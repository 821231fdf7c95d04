/-
  MarathiScript.Text.Outline — one description of a value for both of its dumps.

  An outline says what a value is made of: strings, lists, groups, records and the forms of a
  sum type. It is shown in two ways. As JSON (`Outline.json`) a form is an object with its
  name as the only key, and the name of a record is dropped. As an indented text
  (`Outline.indented`) every name is written, strings are quoted as in
  `MarathiScript.Text.Quoted`, and a comma follows each item, the last one included.
-/

import MarathiScript.Text.Json
import MarathiScript.Text.Quoted

namespace MarathiScript.Text

inductive Outline where
  | text (s : String)
  | list (items : List Outline)
  /-- A fixed number of things side by side. -/
  | group (items : List Outline)
  | record (name : String) (fields : List (String × Outline))
  /-- A form of a sum type that has named fields. -/
  | form (name : String) (fields : List (String × Outline))
  /-- A form of a sum type that holds one thing. -/
  | wrap (name : String) (item : Outline)
  | absent
  | present (item : Outline)
  deriving Repr, Inhabited

namespace Outline

mutual

def json : Outline → Json
  | text s => .text s
  | list items => .list (jsonItems items)
  | group items => .list (jsonItems items)
  | record _ fields => .object (jsonFields fields)
  | form name fields => .object [(name, .object (jsonFields fields))]
  | wrap name item => .object [(name, item.json)]
  | absent => .null
  | present item => item.json

def jsonItems : List Outline → List Json
  | [] => []
  | item :: items => item.json :: jsonItems items

def jsonFields : List (String × Outline) → List (String × Json)
  | [] => []
  | (key, item) :: fields => (key, item.json) :: jsonFields fields

end

/-- Four columns a step, and a comma after every item. -/
def nesting : Nesting := ⟨4, ","⟩

mutual

def indentedAt (column : Nat) : Outline → String
  | text s => Quoted.encode s
  | list items => nesting.bracket column "[" "]" (indentedItems (column + nesting.step) items)
  | group items => nesting.bracket column "(" ")" (indentedItems (column + nesting.step) items)
  | record name fields =>
    nesting.bracket column (name ++ " \x7b") "\x7d" (indentedFields (column + nesting.step) fields)
  | form name fields =>
    nesting.bracket column (name ++ " \x7b") "\x7d" (indentedFields (column + nesting.step) fields)
  | wrap name item =>
    nesting.bracket column (name ++ "(") ")" [item.indentedAt (column + nesting.step)]
  | absent => "None"
  | present item => nesting.bracket column "Some(" ")" [item.indentedAt (column + nesting.step)]

def indentedItems (column : Nat) : List Outline → List String
  | [] => []
  | item :: items => item.indentedAt column :: indentedItems column items

def indentedFields (column : Nat) : List (String × Outline) → List String
  | [] => []
  | (key, item) :: fields => (key ++ ": " ++ item.indentedAt column) :: indentedFields column fields

end

def indented (o : Outline) : String := o.indentedAt 0

end Outline

end MarathiScript.Text
