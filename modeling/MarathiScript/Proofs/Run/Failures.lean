/-
  MarathiScript.Proofs.Run.Failures — why a statement fails.

  A statement fails in its own step only, and the reason is in what it mentions: one of its
  `expressions` has no value, or one that decides on a loop is not logical; the variable of a
  branch is unbound, or its verdict fails; or a call is refused (`Session.Fails`,
  `Session.move_error`). `Stmt.reads` and `Stmt.calls` list the variables and the functions that
  the step of a statement asks for; those of a whole block are the ones of all statements in
  its `code`.
-/

import MarathiScript.Proofs.Run.Frames
import MarathiScript.Proofs.Run.Operands

namespace MarathiScript

/-! ## What a statement mentions -/

namespace Stmt

/-- The expressions that the step of a statement evaluates. -/
def expressions : Stmt → List Expr
  | declare _ value | assign _ value | print value => [value]
  | whilst condition _ | count _ condition _ _ => [condition]
  | call _ arguments => arguments
  | branch _ _ _ | define _ _ _ => []

/-- The variables that the step of a statement reads. -/
def reads : Stmt → List String
  | branch condition _ _ => [condition.name]
  | stmt => stmt.expressions.flatMap (·.reads)

/-- The functions that the step of a statement calls. -/
def calls : Stmt → List String
  | call name _ => [name]
  | _ => []

/-- The names and literals in the expressions of a statement. -/
def leaves (stmt : Stmt) : List Expr := stmt.expressions.flatMap (·.leaves)

/-- The operators in the expressions of a statement. -/
def operators (stmt : Stmt) : List String := stmt.expressions.flatMap (·.operators)

theorem mem_reads {stmt : Stmt} {e : Expr} {x : String} (he : e ∈ stmt.expressions)
    (hx : x ∈ e.reads) : x ∈ stmt.reads := by
  cases stmt with
  | branch => nomatch he
  | _ => exact List.mem_flatMap.2 ⟨e, he, hx⟩

end Stmt

/-! ## Why its step fails -/

/-- Why the step of a statement fails. -/
inductive Session.Fails (limit : Nat) (s : Session) : Stmt → RunError → Prop
  /-- One of its expressions has no value. -/
  | expression {stmt : Stmt} {e : Expr} {err : RunError} : e ∈ stmt.expressions →
      e.eval s.environment = .error err → Fails limit s stmt err
  /-- The value that decides whether a loop goes on is not logical. -/
  | undecided {stmt : Stmt} {e : Expr} {v : Value} {err : RunError} : e ∈ stmt.expressions →
      e.eval s.environment = .ok v → v.asBool = .error err → Fails limit s stmt err
  | unbound {c : Condition} {consequence : Block} {alternative : Option Block} :
      s.environment.get? c.name = none →
        Fails limit s (.branch c consequence alternative) (.undefinedVariable c.name)
  | verdict {c : Condition} {consequence : Block} {alternative : Option Block} {v : Value}
      {err : RunError} : s.environment.get? c.name = some v → c.verdict v = .error err →
        Fails limit s (.branch c consequence alternative) err
  | unknown {name : String} {arguments : List Expr} : s.functions.get? name = none →
      Fails limit s (.call name arguments) (.undefinedFunction name)
  | arity {name : String} {arguments : List Expr} {f : Function} :
      s.functions.get? name = some f → arguments.length ≠ f.parameters.length →
        Fails limit s (.call name arguments) (.arity name f.parameters.length arguments.length)
  | depth {name : String} {arguments : List Expr} : limit ≤ s.environment.depth →
      Fails limit s (.call name arguments) (.depthExceeded limit)

namespace Session

variable {limit : Nat} {s t : Session} {err : RunError}

theorem test_error {e : Expr} (h : s.test e = ⟨.error err, t⟩) :
    e.eval s.environment = .error err ∨
      ∃ v, e.eval s.environment = .ok v ∧ v.asBool = .error err := by
  have hr := (test_quiet h).1
  rw [Expr.holds] at hr
  rcases hv : e.eval s.environment with err' | v <;> rw [hv] at hr
  · cases hr
    exact .inl rfl
  · exact .inr ⟨v, rfl, hr.symm⟩

theorem ask_error {c : Condition} {consequence : Block} {alternative : Option Block}
    (h : s.ask c = ⟨.error err, t⟩) : s.Fails limit (.branch c consequence alternative) err := by
  have hr := (ask_quiet h).1
  rw [Condition.holds, Environment.read] at hr
  rcases hv : s.environment.get? c.name with _ | v <;> rw [hv] at hr
  · cases hr
    exact .unbound hv
  · exact .verdict hv hr.symm

theorem prepare_error {name : String} {arguments : List Expr}
    (h : s.prepare limit name arguments = ⟨.error err, t⟩) :
    s.Fails limit (.call name arguments) err := by
  have hr := s.prepare_result limit name arguments
  rw [h] at hr
  simp only at hr
  split at hr
  · cases hr
    exact .unknown ‹_›
  · split at hr
    · cases hr
      exact .arity ‹_› ‹_›
    · split at hr
      · rename_i hs
        cases hr
        obtain ⟨before, e, after, rfl, -, hv⟩ := evalAll_error hs
        have he : e ∈ before ++ e :: after := List.mem_append_right _ (.head _)
        exact .expression he hv
      · split at hr <;> cases hr
        exact .depth ‹_›

theorem move_error {stmt : Stmt} (h : s.move limit stmt = ⟨.error err, t⟩) :
    s.Fails limit stmt err := by
  have evaluated : ∀ e, stmt.expressions = [e] → s.evaluate e = ⟨.error err, t⟩ →
      s.Fails limit stmt err := fun e hstmt he =>
    .expression (hstmt ▸ List.mem_singleton.2 rfl) (evaluate_quiet he).1.symm
  have tested : ∀ e, stmt.expressions = [e] → s.test e = ⟨.error err, t⟩ →
      s.Fails limit stmt err := by
    intro e hstmt he
    have hmem : e ∈ stmt.expressions := hstmt ▸ List.mem_singleton.2 rfl
    rcases test_error he with hv | ⟨v, hv, hbool⟩
    · exact .expression hmem hv
    · exact .undecided hmem hv hbool
  rcases stmt with ⟨name, value⟩ | ⟨name, value⟩ | ⟨c, consequence, alternative⟩ | ⟨c, body⟩ |
    ⟨_ | init, c, step, body⟩ | ⟨name, parameters, body⟩ | ⟨name, arguments⟩ | ⟨value⟩ <;>
    simp only [move] at h
  case count.some | define => cases h
  case declare | assign | print => exact evaluated value rfl (Outcome.proceed_error h)
  case branch => exact ask_error (Outcome.proceed_error h)
  case whilst | count.none => exact tested c rfl (Outcome.proceed_error h)
  case call => exact prepare_error (Outcome.proceed_error h)

end Session

end MarathiScript
