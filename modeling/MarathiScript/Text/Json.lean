/-
  MarathiScript.Text.Json — JSON values and their text.

  Only what dumps need: null, natural numbers, strings, lists and objects, whose fields keep
  their order. In a string a quote, a backslash and the control characters are escaped, and
  every other character stands for itself. `Json.pretty` puts each item on a line of its
  own, two columns further in than its brackets.
-/

import MarathiScript.Text.Nested

namespace MarathiScript.Text

inductive Json where
  | null
  | number (n : Nat)
  | text (s : String)
  | list (items : List Json)
  | object (fields : List (String × Json))
  deriving Repr, Inhabited

namespace Json

/-- The last two hexadecimal digits of a code point below 0x100. -/
def hexPair (n : Nat) : List Char := [Nat.digitChar (n / 16), Nat.digitChar (n % 16)]

/-- A character inside a quoted string. -/
def escape (c : Char) : List Char :=
  match c with
  | '"' => ['\\', '"']
  | '\\' => ['\\', '\\']
  | '\x08' => ['\\', 'b']
  | '\x0c' => ['\\', 'f']
  | '\n' => ['\\', 'n']
  | '\r' => ['\\', 'r']
  | '\t' => ['\\', 't']
  | c => if c.toNat < 0x20 then ['\\', 'u', '0', '0'] ++ hexPair c.toNat else [c]

def quote (s : String) : String := "\"" ++ String.ofList (s.toList.flatMap escape) ++ "\""

/-- Two columns a step, and no comma after the last item. -/
def nesting : Nesting := ⟨2, ""⟩

mutual

def prettyAt (column : Nat) : Json → String
  | null => "null"
  | number n => toString n
  | text s => quote s
  | list items => nesting.bracket column "[" "]" (prettyItems (column + nesting.step) items)
  | object fields =>
    nesting.bracket column "\x7b" "\x7d" (prettyFields (column + nesting.step) fields)

def prettyItems (column : Nat) : List Json → List String
  | [] => []
  | item :: items => item.prettyAt column :: prettyItems column items

def prettyFields (column : Nat) : List (String × Json) → List String
  | [] => []
  | (key, item) :: fields =>
    (quote key ++ ": " ++ item.prettyAt column) :: prettyFields column fields

end

def pretty (j : Json) : String := j.prettyAt 0

end Json

end MarathiScript.Text
