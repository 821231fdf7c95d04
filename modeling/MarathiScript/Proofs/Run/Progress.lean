/-
  MarathiScript.Proofs.Run.Progress — a run while it is going on.

  A run in progress is what the innermost call has still to do, what each of its callers has,
  and the session; or an error on its way out through the callers. It goes on step by step
  (`Progress.Step`): the first statement takes its step, a body that is done gives its frame
  back and its caller goes on, and so does every caller that an error passes. There is one
  next step at most (`Progress.Step.unique`); the states that a run comes to are those `Reached`
  from its start, whether it ends or not.

  Proved: a block ends with an outcome iff its run comes to a state with this outcome
  (`ends_iff_reached`). A caller goes on with what its call came to (`Completes`), which a
  step backwards leaves as it is (`Progress.Step.finishes`).
-/

import MarathiScript.Proofs.Run.Frames

namespace MarathiScript

/-- A run while it is going on. -/
inductive Progress where
  /-- What the innermost call has still to do, and what its callers have, the innermost first. -/
  | running (todo : Block) (callers : List Block) (s : Session)
  /-- An error that these callers have not been told of yet. -/
  | failing (e : RunError) (callers : List Block) (s : Session)

namespace Progress

def session : Progress → Session
  | running _ _ s => s
  | failing _ _ s => s

def callers : Progress → List Block
  | running _ callers _ => callers
  | failing _ callers _ => callers

/-- How the run ended, if it has. -/
def outcome? : Progress → Option (Outcome Unit)
  | running [] [] s => some ⟨.ok (), s⟩
  | failing e [] s => some ⟨.error e, s⟩
  | _ => none

inductive Step (limit : Nat) : Progress → Progress → Prop
  | go {stmt : Stmt} {more rest : Block} {callers : List Block} {s t : Session} :
      s.move limit stmt = ⟨.ok (.go more), t⟩ →
        Step limit (running (stmt :: rest) callers s) (running (more ++ rest) callers t)
  | call {stmt : Stmt} {body rest : Block} {callers : List Block} {s t : Session} :
      s.move limit stmt = ⟨.ok (.call body), t⟩ →
        Step limit (running (stmt :: rest) callers s) (running body (rest :: callers) t)
  | fail {stmt : Stmt} {rest : Block} {callers : List Block} {s t : Session} {e : RunError} :
      s.move limit stmt = ⟨.error e, t⟩ →
        Step limit (running (stmt :: rest) callers s) (failing e callers t)
  /-- The body of a call is done. -/
  | back {rest : Block} {callers : List Block} {s : Session} :
      Step limit (running [] (rest :: callers) s) (running rest callers s.leave)
  /-- A call fails as its body did. -/
  | out {rest : Block} {callers : List Block} {s : Session} {e : RunError} :
      Step limit (failing e (rest :: callers) s) (failing e callers s.leave)

variable {limit : Nat} {p q r : Progress}

theorem Step.unique (h : Step limit p q) (h' : Step limit p r) : q = r := by
  cases h with
  | go hm =>
    cases h' with
    | go hm' => cases hm.symm.trans hm'; rfl
    | call hm' | fail hm' => cases hm.symm.trans hm'
  | call hm =>
    cases h' with
    | call hm' => cases hm.symm.trans hm'; rfl
    | go hm' | fail hm' => cases hm.symm.trans hm'
  | fail hm =>
    cases h' with
    | fail hm' => cases hm.symm.trans hm'; rfl
    | go hm' | call hm' => cases hm.symm.trans hm'
  | back => cases h'; rfl
  | out => cases h'; rfl

end Progress

open Progress

/-- The states that a run comes to from `p` on. -/
inductive Reached (limit : Nat) (p : Progress) : Progress → Prop
  | start : Reached limit p p
  | step {q r : Progress} : Reached limit p q → Step limit q r → Reached limit p r

namespace Reached

variable {limit : Nat} {p q r : Progress}

theorem trans (h : Reached limit p q) (h' : Reached limit q r) : Reached limit p r := by
  induction h' with
  | start => exact h
  | step _ hs ih => exact ih.step hs

theorem after (hs : Step limit p q) (h : Reached limit q r) : Reached limit p r :=
  (start.step hs).trans h

/-- An error comes out of all calls. -/
theorem out (e : RunError) (callers : List Block) (s : Session) :
    ∃ t, Reached limit (failing e callers s) (failing e [] t) := by
  induction callers generalizing s with
  | nil => exact ⟨s, .start⟩
  | cons rest callers ih =>
    obtain ⟨t, ht⟩ := ih s.leave
    exact ⟨t, after .out ht⟩

end Reached

/-! ## Runs that end -/

variable {limit : Nat}

/-- What is left to do after the innermost call came to this outcome. -/
def Outcome.resume (o : Outcome Unit) (callers : List Block) : Progress :=
  match o with
  | ⟨.ok _, s⟩ => running [] callers s
  | ⟨.error e, s⟩ => failing e callers s

theorem reached_of_ran {block : Block} {s : Session} {o : Outcome Unit} (h : Ran limit block s o)
    (callers : List Block) : Reached limit (running block callers s) (o.resume callers) := by
  induction h generalizing callers with
  | nil => exact .start
  | fail hm => exact .step .start (.fail hm)
  | go hm _ ih => exact .after (.go hm) (ih callers)
  | call hm _ _ ihb ihr => exact .after (.call hm) (((ihb _).step .back).trans (ihr callers))
  | callFail hm _ ihb => exact .after (.call hm) ((ihb _).step .out)

/-- What the callers make of the outcome of the innermost call. -/
def Completes (limit : Nat) : List Block → Outcome Unit → Outcome Unit → Prop
  | [], first, o => o = first
  | rest :: callers, ⟨.ok _, s⟩, o => ∃ next, Ran limit rest s.leave next ∧ Completes limit callers next o
  | _ :: callers, ⟨.error e, s⟩, o => Completes limit callers ⟨.error e, s.leave⟩ o

/-- How the rules end a run in progress. -/
def Progress.Finishes (limit : Nat) (p : Progress) (o : Outcome Unit) : Prop :=
  match p with
  | running todo callers s => ∃ first, Ran limit todo s first ∧ Completes limit callers first o
  | failing e callers s => Completes limit callers ⟨.error e, s⟩ o

theorem Progress.finishes_of_outcome {p : Progress} {o : Outcome Unit} (h : p.outcome? = some o) :
    p.Finishes limit o := by
  rcases p with ⟨_ | ⟨stmt, rest⟩, _ | ⟨rest', callers⟩, s⟩ | ⟨e, _ | ⟨rest, callers⟩, s⟩ <;> cases h
  · exact ⟨_, .nil s, rfl⟩
  · rfl

/-- How a run ends is settled before each of its steps. -/
theorem Progress.Step.finishes {p q : Progress} {o : Outcome Unit} (hs : Step limit p q)
    (h : q.Finishes limit o) : p.Finishes limit o := by
  cases hs with
  | go hm =>
    obtain ⟨first, hran, hrest⟩ := h
    exact ⟨first, .go hm hran, hrest⟩
  | call hm =>
    obtain ⟨⟨e | _, u⟩, hbody, hrest⟩ := h
    · exact ⟨_, .callFail hm hbody, hrest⟩
    · obtain ⟨next, hran, hrest⟩ := hrest
      exact ⟨next, .call hm hbody hran, hrest⟩
  | fail hm => exact ⟨_, .fail hm, h⟩
  | back => exact ⟨_, .nil _, h⟩
  | out => exact h

theorem Reached.finishes {p q : Progress} {o : Outcome Unit} (h : Reached limit p q)
    (hq : q.Finishes limit o) : p.Finishes limit o := by
  induction h with
  | start => exact hq
  | step _ hs ih => exact ih (hs.finishes hq)

/-- A block comes to an end iff its run, step by step, comes to one. -/
theorem ends_iff_reached {block : Block} {s : Session} {o : Outcome Unit} :
    Ends limit block s o ↔ ∃ p, Reached limit (running block [] s) p ∧ p.outcome? = some o := by
  rw [ends_iff_ran]
  constructor
  · intro h
    refine ⟨o.resume [], reached_of_ran h [], ?_⟩
    rcases o with ⟨_ | _, t⟩ <;> rfl
  · intro h
    obtain ⟨p, hp, ho⟩ := h
    obtain ⟨first, hran, rfl⟩ := hp.finishes (finishes_of_outcome ho)
    exact hran

end MarathiScript
