/-
  MarathiScript.Value.Combine — what an operator does with two values.

  A string on either side joins the texts of both, whatever the operator is. Two integers
  are computed exactly; a result that does not fit into 64 bits is an overflow, never a
  wrapped number. Any other pair of numbers is computed in doubles. Division by zero is an
  error in both, so a quotient of doubles has no infinity out of a zero divisor.
-/

import MarathiScript.Value

namespace MarathiScript

namespace Operator

/-- The operator between two integers. -/
def onInts (o : Operator) (a b : Int64) : Except RunError Value :=
  let exactly (z : Int) : Except RunError Value :=
    match int64? z with
    | some n => .ok (.int n)
    | none => .error (.overflow a o b)
  match o with
  | add => exactly (a.toInt + b.toInt)
  | sub => exactly (a.toInt - b.toInt)
  | mul => exactly (a.toInt * b.toInt)
  | div => if b.toInt = 0 then .error .divisionByZero else exactly (a.toInt.tdiv b.toInt)
  | lt => .ok (.bool (a.toInt < b.toInt))
  | gt => .ok (.bool (b.toInt < a.toInt))
  | le => .ok (.bool (a.toInt ≤ b.toInt))
  | ge => .ok (.bool (b.toInt ≤ a.toInt))
  | eq => .ok (.bool (a.toInt = b.toInt))
  | ne => .ok (.bool (a.toInt ≠ b.toInt))

/-- The operator between two doubles. -/
def onFloats (o : Operator) (a b : Float) : Except RunError Value :=
  match o with
  | add => .ok (.float (a + b))
  | sub => .ok (.float (a - b))
  | mul => .ok (.float (a * b))
  | div => if b == 0 then .error .divisionByZero else .ok (.float (a / b))
  | lt => .ok (.bool (a < b))
  | gt => .ok (.bool (b < a))
  | le => .ok (.bool (a ≤ b))
  | ge => .ok (.bool (b ≤ a))
  | eq => .ok (.bool (a == b))
  | ne => .ok (.bool (a != b))

end Operator

namespace Value

/-- The operator that a text names. -/
def operatorOf (text : String) : Except RunError Operator :=
  match Operator.ofText? text with
  | some o => .ok o
  | none => .error (.unsupportedOperator text)

/-- The value of `left operator right`. -/
def combine (left : Value) (operator : String) (right : Value) : Except RunError Value :=
  match left, right with
  | str s, v => .ok (.str (s ++ v.text))
  | v, str s => .ok (.str (v.text ++ s))
  | int a, int b => do (← operatorOf operator).onInts a b
  | v, w => do
    let a ← v.asFloat
    let b ← w.asFloat
    (← operatorOf operator).onFloats a b

end Value

end MarathiScript
