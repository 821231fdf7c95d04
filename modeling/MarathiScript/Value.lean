/-
  MarathiScript.Value — what a running program computes with.

  A value is a 64-bit integer, a double, a string or a logical value; only comparisons give
  logical values. Every value has a text, by which it is printed and joined to strings.
  `RunError` names the ways in which a run can fail, by their causes; the wording is in
  `RunError.message` and the name of the group of errors in `RunError.kind`.
-/

import MarathiScript.Decimal.Literal
import MarathiScript.Decimal.Shortest

namespace MarathiScript

inductive Value where
  | int (n : Int64)
  | float (x : Float)
  | str (s : String)
  | bool (b : Bool)
  deriving Repr, Inhabited

inductive Operator where
  | add
  | sub
  | mul
  | div
  | lt
  | gt
  | le
  | ge
  | eq
  | ne
  deriving DecidableEq, Repr, Inhabited

/-- Why a run stopped. -/
inductive RunError where
  | undefinedVariable (name : String)
  | undefinedFunction (name : String)
  | notNumber (v : Value)
  | notLogical (v : Value)
  /-- A variable that a condition compares, with a value whose text is no integer. -/
  | notInteger (name : String) (v : Value)
  | unsupportedOperator (operator : String)
  | invalidLiteral (text : String)
  | divisionByZero
  | overflow (left : Int64) (operator : Operator) (right : Int64)
  | arity (name : String) (expected found : Nat)
  | depthExceeded (limit : Nat)
  deriving Repr

/-- The integer, if it has 64 bits. -/
def int64? (z : Int) : Option Int64 :=
  if Int64.minValue.toInt ≤ z ∧ z ≤ Int64.maxValue.toInt then some (Int64.ofInt z) else none

/-- The 64-bit integer that a text spells. -/
def int64OfText? (text : String) : Option Int64 := (Decimal.whole? text.toList).bind int64?

namespace Value

def typeName : Value → String
  | int _ => "integer"
  | float _ => "float"
  | str _ => "string"
  | bool _ => "logical"

def text : Value → String
  | int n => toString n.toInt
  | float x => Decimal.text x
  | str s => s
  | bool true => "true"
  | bool false => "false"

def asFloat : Value → Except RunError Float
  | float x => .ok x
  | int n => .ok (Decimal.ofInt n.toInt)
  | v => .error (.notNumber v)

def asBool : Value → Except RunError Bool
  | bool b => .ok b
  | v => .error (.notLogical v)

end Value

namespace Operator

def text : Operator → String
  | add => "+"
  | sub => "-"
  | mul => "*"
  | div => "/"
  | lt => "<"
  | gt => ">"
  | le => "<="
  | ge => ">="
  | eq => "=="
  | ne => "!="

def ofText? : String → Option Operator
  | "+" => some add
  | "-" => some sub
  | "*" => some mul
  | "/" => some div
  | "<" => some lt
  | ">" => some gt
  | "<=" => some le
  | ">=" => some ge
  | "==" => some eq
  | "!=" => some ne
  | _ => none

theorem ofText?_text (o : Operator) : ofText? o.text = some o := by cases o <;> rfl

theorem text_of_ofText? {s : String} {o : Operator} (h : ofText? s = some o) : o.text = s := by
  unfold ofText? at h
  split at h <;> cases h <;> rfl

end Operator

namespace RunError

/-- The group that an error belongs to. -/
def kind : RunError → String
  | undefinedVariable _ | undefinedFunction _ => "NameError"
  | notNumber _ | notLogical _ | notInteger _ _ | unsupportedOperator _ | invalidLiteral _ =>
    "TypeError"
  | divisionByZero | overflow _ _ _ => "ArithmeticError"
  | arity _ _ _ => "ArityError"
  | depthExceeded _ => "RecursionError"

def message : RunError → String
  | undefinedVariable name => "undefined variable '" ++ name ++ "'"
  | undefinedFunction name => "undefined function '" ++ name ++ "'"
  | notNumber v => "expected a number, got " ++ v.typeName ++ " " ++ v.text
  | notLogical v => "expected a logical value, got " ++ v.typeName ++ " " ++ v.text
  | notInteger name v =>
    "'" ++ name ++ "' holds " ++ v.typeName ++ " " ++ v.text ++ ", not an integer"
  | unsupportedOperator operator => "unsupported operator '" ++ operator ++ "'"
  | invalidLiteral text => "invalid numeric literal '" ++ text ++ "'"
  | divisionByZero => "division by zero"
  | overflow left operator right =>
    "integer overflow evaluating " ++ (Value.int left).text ++ " " ++ operator.text ++ " " ++
      (Value.int right).text
  | arity name expected found =>
    "function '" ++ name ++ "' takes " ++ toString expected ++ " argument(s) but " ++
      toString found ++ " were given"
  | depthExceeded limit => "maximum call depth of " ++ toString limit ++ " exceeded"

end RunError

end MarathiScript
