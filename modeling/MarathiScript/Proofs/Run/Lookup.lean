/-
  MarathiScript.Proofs.Run.Lookup — values from a lookup alone.

  An expression meets the variables only by reading names. `Expr.evalWith` evaluates with any
  function that answers for names, and evaluating in an environment is evaluating with the
  environment's answers (`eval_eq_evalWith`); so the same holds of what a loop or a branch
  decides and of the arguments of a call.
-/

import MarathiScript.Evaluation

namespace MarathiScript

/-- What is known of the variables. -/
abbrev Lookup := String → Option Value

namespace Lookup

def read (lookup : Lookup) (x : String) : Except RunError Value :=
  match lookup x with
  | some v => .ok v
  | none => .error (.undefinedVariable x)

end Lookup

mutual

/-- The value of an expression when `lookup` answers for the names in it. -/
def Expr.evalWith (lookup : Lookup) : Expr → Except RunError Value
  | .name x => lookup.read x
  | .number text => numberValue text
  | .float text => floatValue text
  | .string text => .ok (.str text)
  | .chain first links =>
    match first.evalWith lookup with
    | .error e => .error e
    | .ok v => chainWith lookup v links

/-- The value of a chain whose part before the links has the value `v`. -/
def chainWith (lookup : Lookup) (v : Value) : List (String × Expr) → Except RunError Value
  | [] => .ok v
  | (operator, operand) :: links =>
    match operand.evalWith lookup with
    | .error e => .error e
    | .ok w =>
      match v.combine operator w with
      | .error e => .error e
      | .ok u => chainWith lookup u links

end

/-- Whether a loop goes on. -/
def Expr.holdsWith (lookup : Lookup) (e : Expr) : Except RunError Bool := do
  let v ← e.evalWith lookup
  v.asBool

/-- Whether the condition of a branch holds. -/
def Condition.holdsWith (lookup : Lookup) (c : Condition) : Except RunError Bool := do
  let v ← lookup.read c.name
  c.verdict v

variable (env : Environment)

mutual

theorem Expr.eval_eq_evalWith : (e : Expr) → e.eval env = e.evalWith env.get?
  | .chain first links => by
    rw [Expr.eval, Expr.evalWith, ← first.eval_eq_evalWith]
    rcases first.eval env with _ | v
    · rfl
    · exact evalLinks_eq_chainWith v links
  | .name _ | .number _ | .float _ | .string _ => rfl

theorem evalLinks_eq_chainWith (v : Value) :
    (links : List (String × Expr)) → evalLinks env v links = chainWith env.get? v links
  | [] => rfl
  | (operator, operand) :: links => by
    rw [evalLinks, chainWith, ← operand.eval_eq_evalWith]
    rcases operand.eval env with _ | w
    · rfl
    · simp only
      rcases v.combine operator w with _ | u
      · rfl
      · exact evalLinks_eq_chainWith u links

end

theorem Expr.holds_eq_holdsWith (e : Expr) : e.holds env = e.holdsWith env.get? := by
  rw [Expr.holds, Expr.holdsWith, e.eval_eq_evalWith]

theorem Condition.holds_eq_holdsWith (c : Condition) : c.holds env = c.holdsWith env.get? := rfl

theorem evalAll_eq_mapM (es : List Expr) : evalAll env es = es.mapM (·.evalWith env.get?) := by
  induction es with
  | nil => rfl
  | cons e es ih => rw [evalAll, List.mapM_cons, e.eval_eq_evalWith, ih]

end MarathiScript
