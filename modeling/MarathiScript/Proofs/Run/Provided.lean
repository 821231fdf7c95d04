/-
  MarathiScript.Proofs.Run.Provided — runs that find every name.

  A session provides for a statement if all variables that it reads are bound and all functions
  that it calls are declared (`Session.Provides`). What a session provides is never lost in a
  run (`Session.Keeps`): the frame of a call may hide a variable but not take it away, no
  binding is removed, the globals lie below every frame, and a function declared again is
  declared still. And a run comes to no statement but those of its program and of the functions
  declared before, however they are declared again.

  Proved (`provided_no_name_error`): a run of a program all of whose statements are provided for,
  from a session that provides for its own functions too, does not fail for an undefined
  variable or function.
-/

import MarathiScript.Proofs.Run.Code
import MarathiScript.Proofs.Run.Footprint
import MarathiScript.Proofs.Run.Failures

namespace MarathiScript

namespace Session

/-- Every variable that the step of the statement reads is bound (among the globals, if no call is
in progress), and every function that it calls is declared. -/
structure Provides (s : Session) (stmt : Stmt) : Prop where
  bound : ∀ x ∈ stmt.reads, (s.environment.get? x).isSome = true
  declared : ∀ f ∈ stmt.calls, (s.functions.get? f).isSome = true

instance (s : Session) (stmt : Stmt) : Decidable (s.Provides stmt) :=
  decidable_of_iff ((∀ x ∈ stmt.reads, (s.environment.get? x).isSome = true) ∧
    ∀ f ∈ stmt.calls, (s.functions.get? f).isSome = true)
    ⟨fun h => ⟨h.1, h.2⟩, fun h => ⟨h.bound, h.declared⟩⟩

/-- No variable and no function that can be found in the one session is missing in the other. -/
structure Keeps (s t : Session) : Prop where
  bound : ∀ x, (s.environment.get? x).isSome = true → (t.environment.get? x).isSome = true
  declared : ∀ f, (s.functions.get? f).isSome = true → (t.functions.get? f).isSome = true

variable {limit : Nat} {s t u : Session} {stmt : Stmt}

theorem Keeps.refl (s : Session) : s.Keeps s := ⟨fun _ => id, fun _ => id⟩

theorem Keeps.trans (h : s.Keeps t) (h' : t.Keeps u) : s.Keeps u where
  bound := fun x hx => h'.bound x (h.bound x hx)
  declared := fun f hf => h'.declared f (h.declared f hf)

theorem Keeps.of_confined {names : List String} (h : Confined names s t) : s.Keeps t where
  bound := by
    intro x hx
    rw [Environment.get?_eq, Option.isSome_or, Bool.or_eq_true] at hx ⊢
    rw [h.outer]
    exact hx.imp_left (h.bound x)
  declared := h.functions

/-- The frame of a call hides variables at most. -/
theorem Keeps.of_call {body : Block} (hm : s.move limit stmt = ⟨.ok (.call body), t⟩) : s.Keeps t where
  bound := by
    intro x hx
    obtain ⟨name, arguments, f, frame, u, -, hp, -, rfl⟩ := move_call hm
    show ((u.environment.push frame).get? x).isSome = true
    rw [Environment.get?_push, (prepare_quiet hp).1, Option.isSome_or, hx, Bool.or_true]
  declared := by
    rw [move_call_functions hm]
    exact fun _ => id

theorem Keeps.provides (h : s.Keeps t) (hs : s.Provides stmt) : t.Provides stmt where
  bound := fun x hx => h.bound x (hs.bound x hx)
  declared := fun f hf => h.declared f (hs.declared f hf)

end Session

/-! ## Errors that tell of no name -/

/-- Neither an undefined variable nor an undefined function. -/
def RunError.Nameless (e : RunError) : Prop :=
  (∀ x, e ≠ .undefinedVariable x) ∧ ∀ f, e ≠ .undefinedFunction f

section

variable {env : Environment} {v w : Value} {err : RunError}

theorem Value.combine_nameless {operator : String} (h : v.combine operator w = .error err) :
    err.Nameless := by
  cases combined_of h <;> exact ⟨nofun, nofun⟩

theorem Value.asBool_nameless (h : v.asBool = .error err) : err.Nameless := by
  cases v <;> cases h <;> exact ⟨nofun, nofun⟩

theorem Condition.verdict_nameless {c : Condition} (h : c.verdict v = .error err) : err.Nameless := by
  rw [verdict] at h
  split at h
  · cases h; exact ⟨nofun, nofun⟩
  · split at h
    · cases h; exact ⟨nofun, nofun⟩
    · split at h <;> cases h
      exact ⟨nofun, nofun⟩

/-- An expression whose names are bound fails for other reasons than a name. -/
theorem Expr.eval_nameless {e : Expr} (hreads : ∀ x ∈ e.reads, (env.get? x).isSome = true)
    (h : e.eval env = .error err) : err.Nameless := by
  have hmeets : Meets (fun _ => True) RunError.Nameless (e.eval env) := by
    refine e.eval_meets ?_ ?_
    · refine fun l hl => ⟨fun _ _ => trivial, fun err herr => ?_⟩
      rcases leaf_error (e.leaves_primary l hl) herr with ⟨x, rfl, hx, -⟩ | ⟨text, -, rfl⟩
      · have hbound := hreads x (mem_reads.2 hl)
        rw [hx] at hbound
        cases hbound
      · exact ⟨nofun, nofun⟩
    · exact fun op _ v w _ _ => ⟨fun _ _ => trivial, fun _ => Value.combine_nameless⟩
  exact hmeets.error err h

end

section

variable {limit : Nat} {s t : Session}

/-- A statement that is provided for fails for other reasons than a name. -/
theorem Session.Provides.nameless {stmt : Stmt} {err : RunError} (hs : s.Provides stmt)
    (h : s.move limit stmt = ⟨.error err, t⟩) : err.Nameless := by
  cases move_error h with
  | expression he hv => exact Expr.eval_nameless (fun x hx => hs.bound x (Stmt.mem_reads he hx)) hv
  | undecided he hv hbool => exact Value.asBool_nameless hbool
  | @unbound c _ _ hnone =>
    have hbound := hs.bound c.name (.head _)
    rw [hnone] at hbound
    cases hbound
  | verdict hv hverdict => exact Condition.verdict_nameless hverdict
  | @unknown name _ hnone =>
    have hdeclared := hs.declared name (.head _)
    rw [hnone] at hdeclared
    cases hdeclared
  | arity | depth => exact ⟨nofun, nofun⟩

/-- What the first session provides is enough for the whole run. -/
theorem Ran.nameless {first : Session} {block : Block} {o : Outcome Unit} (h : Ran limit block s o)
    (hkeeps : first.Keeps s) (hblock : Throughout first.Provides block)
    (hs : s.Throughout first.Provides) : ∀ e, o.result = .error e → e.Nameless := by
  induction h with
  | nil => nofun
  | fail hm =>
    rintro e ⟨⟩
    exact (hkeeps.provides hblock.first).nameless hm
  | go hm _ ih =>
    obtain ⟨hmore, ht⟩ := Session.move_go_throughout hm hblock.head hs
    have hstep := Session.Keeps.of_confined (Session.move_go hm).confined.1
    exact ih (hkeeps.trans hstep) (throughout_append.2 ⟨hmore, hblock.tail⟩) ht
  | call hm hb _ _ ihr =>
    obtain ⟨hbody, ht⟩ := Session.move_call_throughout hm hs
    -- the frame of the call is gone again, and what it hid is there as before
    have hcall : Confined [] _ _ := .call hm hb hb.confined
    exact ihr (hkeeps.trans (.of_confined hcall)) hblock.tail (hb.throughout hbody ht)
  | callFail hm _ ihb =>
    obtain ⟨hbody, ht⟩ := Session.move_call_throughout hm hs
    exact ihb (hkeeps.trans (.of_call hm)) hbody ht

/-- If every variable that a program or a declared function reads is bound, and every function that
they call is declared, then a run of the program does not fail for a name. -/
theorem provided_no_name_error {program : Block} {o : Outcome Unit}
    (hprogram : Throughout s.Provides program) (hfunctions : s.Throughout s.Provides)
    (h : Ends limit program s o) :
    (∀ x, o.result ≠ .error (.undefinedVariable x)) ∧
      ∀ f, o.result ≠ .error (.undefinedFunction f) := by
  have hnameless := (ends_iff_ran.1 h).nameless (.refl s) hprogram hfunctions
  exact ⟨fun x hx => (hnameless _ hx).1 x rfl, fun f hf => (hnameless _ hf).2 f rfl⟩

end

/-- A function that declares itself anew, with another parameter, and calls what it has declared: the
body of that one reads the variable of its caller. -/
theorem provided_no_name_error_redeclared :
    let f : Function := ⟨["x"], [.define "f" ["y"] [.print (.name "x")], .call "f" [.name "x"]]⟩
    let s : Session := ⟨⟨⟨[("x", .int 1)]⟩, []⟩, ⟨[("f", f)]⟩, #[], #[]⟩
    let program : Block := [.call "f" [.number "2"]]
    Throughout s.Provides program ∧ s.Throughout s.Provides ∧
      ∃ o, Ends 5 program s o ∧ o.session.printed = #["2"] ∧
        (∀ x, o.result ≠ .error (.undefinedVariable x)) ∧
          ∀ g, o.result ≠ .error (.undefinedFunction g) := by
  intro f s program
  have hprogram : Throughout s.Provides program := by
    unfold Throughout
    decide
  have hbody : Throughout s.Provides f.body := by
    unfold Throughout
    decide
  have hfunctions : s.Throughout s.Provides := by
    intro name g hg
    simp only [s, Table.get?, Table.lookup] at hg
    split at hg
    · cases hg; exact hbody
    · cases hg
  have hends : Ends 5 program s _ := ⟨10, rfl⟩
  exact ⟨hprogram, hfunctions, _, hends, rfl, provided_no_name_error hprogram hfunctions hends⟩

end MarathiScript
