/-
  MarathiScript.Decimal.Literal — the texts that spell numbers.

  A whole number is a sign or none and at least one digit (`whole?`). A decimal number is a
  sign or none, digits with a point before, among or after them, and an exponent or none;
  or one of the words `inf`, `infinity` and `nan` in any case after a sign or none
  (`float?`). There are no blanks and no separators, and a digit is one of 0 to 9. The value
  of a decimal number is the double nearest to it.
-/

import MarathiScript.Decimal.Nearest

namespace MarathiScript.Decimal

/-- Takes a sign off a text; `true` for a minus. -/
def sign : List Char → Bool × List Char
  | '-' :: rest => (true, rest)
  | '+' :: rest => (false, rest)
  | text => (false, text)

def digitValue (c : Char) : Nat := c.toNat - '0'.toNat

/-- The number that digits spell. -/
def ofDigits (digits : List Char) : Nat := digits.foldl (fun n c => 10 * n + digitValue c) 0

def whole? (text : List Char) : Option Int :=
  let (negative, digits) := sign text
  if digits ≠ [] ∧ digits.all Char.isDigit then
    some (if negative then -(ofDigits digits : Int) else ofDigits digits)
  else none

/-- `digits * 10 ^ exponent`; `digits` was spelt with `width` digits. -/
structure Scientific where
  digits : Nat
  width : Nat
  exponent : Int
  deriving DecidableEq, Repr

namespace Scientific

def exponentOf? : List Char → Option Int
  | [] => some 0
  | c :: rest => if c = 'e' ∨ c = 'E' then whole? rest else none

/-- A decimal number without its sign. -/
def ofChars? (text : List Char) : Option Scientific :=
  let before := text.takeWhile Char.isDigit
  let (after, rest) := match text.dropWhile Char.isDigit with
    | '.' :: tail => (tail.takeWhile Char.isDigit, tail.dropWhile Char.isDigit)
    | tail => ([], tail)
  if before = [] ∧ after = [] then none
  else (exponentOf? rest).map fun e =>
    ⟨ofDigits (before ++ after), (before ++ after).length, e - after.length⟩

/-- The double nearest to the number. From 10 ^ 311 on that is infinity and below 10 ^ -330
zero, so the powers of ten computed stay small. -/
def toFloat (negative : Bool) (s : Scientific) : Float :=
  if s.digits = 0 ∨ s.width + s.exponent < -330 then nearest negative 0 1
  else if 310 < s.exponent then infinity negative
  else
    nearest negative (s.digits * Nat.pow 10 s.exponent.toNat) (Nat.pow 10 (-s.exponent).toNat)

end Scientific

/-- The values that are written as words. -/
def word? (negative : Bool) (text : List Char) : Option Float :=
  let lower := String.ofList (text.map Char.toLower)
  if lower = "inf" ∨ lower = "infinity" then some (infinity negative)
  else if lower = "nan" then some (infinity negative - infinity negative)
  else none

def float? (text : List Char) : Option Float :=
  let (negative, rest) := sign text
  match Scientific.ofChars? rest with
  | some s => some (s.toFloat negative)
  | none => word? negative rest

end MarathiScript.Decimal
