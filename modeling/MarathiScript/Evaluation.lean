/-
  MarathiScript.Evaluation — the values of expressions and conditions.

  A name has the value of the variable and a literal the number that it spells. A chain is
  evaluated from left to right: its first operand, then with each link the operand and at
  once the operator, so an operator that fails is noticed before any later operand. Nothing
  is changed by evaluating. A condition reads the text of a variable as an integer, the
  literal beside it too, and compares the two.
-/

import MarathiScript.Program
import MarathiScript.Environment
import MarathiScript.Value.Combine

namespace MarathiScript

/-- The value of a literal that spells an integer. -/
def numberValue (text : String) : Except RunError Value :=
  match int64OfText? text with
  | some n => .ok (.int n)
  | none => .error (.invalidLiteral text)

/-- The value of a literal that spells a double. -/
def floatValue (text : String) : Except RunError Value :=
  match Decimal.float? text.toList with
  | some x => .ok (.float x)
  | none => .error (.invalidLiteral text)

/-- The value of a variable. -/
def Environment.read (env : Environment) (x : String) : Except RunError Value :=
  match env.get? x with
  | some v => .ok v
  | none => .error (.undefinedVariable x)

mutual

def Expr.eval (env : Environment) : Expr → Except RunError Value
  | .name x => env.read x
  | .number text => numberValue text
  | .float text => floatValue text
  | .string text => .ok (.str text)
  | .chain first links =>
    match first.eval env with
    | .error e => .error e
    | .ok v => evalLinks env v links

/-- The value of a chain whose part before `links` has the value `v`. -/
def evalLinks (env : Environment) (v : Value) : List (String × Expr) → Except RunError Value
  | [] => .ok v
  | (operator, operand) :: links =>
    match operand.eval env with
    | .error e => .error e
    | .ok w =>
      match v.combine operator w with
      | .error e => .error e
      | .ok u => evalLinks env u links

end

/-- The values of expressions, from left to right up to the first that has none. -/
def evalAll (env : Environment) : List Expr → Except RunError (List Value)
  | [] => .ok []
  | e :: es => do
    let v ← e.eval env
    let vs ← evalAll env es
    pure (v :: vs)

/-- A value that decides whether a loop goes on. -/
def Expr.holds (env : Environment) (e : Expr) : Except RunError Bool := do
  let v ← e.eval env
  v.asBool

namespace Condition

/-- The comparisons that a condition may make. -/
def compare? (operator : String) (a b : Int64) : Option Bool :=
  match operator with
  | "==" => some (a.toInt = b.toInt)
  | "<" => some (a.toInt < b.toInt)
  | ">" => some (b.toInt < a.toInt)
  | "<=" => some (a.toInt ≤ b.toInt)
  | ">=" => some (b.toInt ≤ a.toInt)
  | _ => none

/-- Whether the condition holds of the value `v` of its variable. -/
def verdict (c : Condition) (v : Value) : Except RunError Bool :=
  match int64OfText? v.text with
  | none => .error (.notInteger c.name v)
  | some a =>
    match int64OfText? c.value with
    | none => .error (.invalidLiteral c.value)
    | some b =>
      match compare? c.operator a b with
      | none => .error (.unsupportedOperator c.operator)
      | some answer => .ok answer

def holds (env : Environment) (c : Condition) : Except RunError Bool := do
  let v ← env.read c.name
  c.verdict v

end Condition

end MarathiScript
