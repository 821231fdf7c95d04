/-
  MarathiScript.Proofs.Run.Origin — where the error of a run arises.

  An error of a run is the error of one statement: the run comes to a state in which the step of
  the statement that is next fails with it, and from then on the error only passes the callers
  (`Ran.origin`). What is still to do in any state, in the innermost call and in its callers, is
  code of the program or of functions declared before, so what holds throughout that code holds of
  the statement that fails (`Reached.inSight`).
-/

import MarathiScript.Proofs.Run.Code
import MarathiScript.Proofs.Run.Progress

namespace MarathiScript

open Progress

namespace Progress

/-- What is still to do, in the innermost call and in its callers. -/
def blocks : Progress → List Block
  | running todo callers _ => todo :: callers
  | failing _ callers _ => callers

/-- All code in sight has the property: what is still to do, and the functions declared. -/
structure InSight (P : Stmt → Prop) (p : Progress) : Prop where
  functions : p.session.Throughout P
  code : ∀ block ∈ p.blocks, Throughout P block

variable {P : Stmt → Prop} {limit : Nat} {p q : Progress}

theorem Step.inSight (hs : Step limit p q) (h : p.InSight P) : q.InSight P := by
  obtain ⟨hfunctions, hcode⟩ := h
  cases hs with
  | go hm =>
    obtain ⟨htodo, hcallers⟩ := List.forall_mem_cons.1 hcode
    obtain ⟨hmore, ht⟩ := Session.move_go_throughout hm htodo.head hfunctions
    exact ⟨ht, List.forall_mem_cons.2 ⟨throughout_append.2 ⟨hmore, htodo.tail⟩, hcallers⟩⟩
  | call hm =>
    obtain ⟨htodo, hcallers⟩ := List.forall_mem_cons.1 hcode
    obtain ⟨hbody, ht⟩ := Session.move_call_throughout hm hfunctions
    exact ⟨ht, List.forall_mem_cons.2 ⟨hbody, List.forall_mem_cons.2 ⟨htodo.tail, hcallers⟩⟩⟩
  | fail hm =>
    exact ⟨hfunctions.kept (Session.move_error_quiet hm).2.1, (List.forall_mem_cons.1 hcode).2⟩
  | back => exact ⟨hfunctions, (List.forall_mem_cons.1 hcode).2⟩
  | out => exact ⟨hfunctions, (List.forall_mem_cons.1 hcode).2⟩

end Progress

section

variable {P : Stmt → Prop} {limit : Nat} {p q : Progress} {block : Block} {s : Session}
  {o : Outcome Unit} {e : RunError}

theorem Reached.inSight (h : Reached limit p q) (hp : p.InSight P) : q.InSight P := by
  induction h with
  | start => exact hp
  | step _ hs ih => exact hs.inSight ih

/-- A run that fails comes to a statement whose own step fails with the same error. -/
theorem Ran.origin (h : Ran limit block s o) (he : o.result = .error e) (callers : List Block) :
    ∃ stmt rest callers' t u, Reached limit (running block callers s) (running (stmt :: rest) callers' t) ∧
      t.move limit stmt = ⟨.error e, u⟩ := by
  induction h generalizing callers with
  | nil => cases he
  | fail hm =>
    cases he
    exact ⟨_, _, _, _, _, .start, hm⟩
  | go hm _ ih =>
    obtain ⟨stmt, rest, callers', t, u, hreached, hfails⟩ := ih he callers
    exact ⟨stmt, rest, callers', t, u, .after (.go hm) hreached, hfails⟩
  | call hm hb _ _ ihr =>
    obtain ⟨stmt, rest, callers', t, u, hreached, hfails⟩ := ihr he callers
    have hrest := ((reached_of_ran hb _).step .back).trans hreached
    exact ⟨stmt, rest, callers', t, u, .after (.call hm) hrest, hfails⟩
  | callFail hm _ ihb =>
    obtain ⟨stmt, rest, callers', t, u, hreached, hfails⟩ := ihb he (_ :: callers)
    exact ⟨stmt, rest, callers', t, u, .after (.call hm) hreached, hfails⟩

end

end MarathiScript
