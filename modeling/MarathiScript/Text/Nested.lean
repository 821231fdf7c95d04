/-
  MarathiScript.Text.Nested — items in brackets, each on lines of its own.

  Both dumps of a program nest brackets: every item stands one step further in than the
  brackets around it, with a comma between two items. They differ in the width of a step and
  in whether a comma also follows the last item (`Nesting`). Brackets around nothing stay
  on one line.
-/

namespace MarathiScript.Text

structure Nesting where
  /-- How far an item stands inside its brackets. -/
  step : Nat
  /-- What follows the last item. -/
  last : String
  deriving DecidableEq, Repr

namespace Nesting

/-- `items` in brackets that stand at column `column`. -/
def bracket (n : Nesting) (column : Nat) (opening closing : String) : List String → String
  | [] => opening ++ closing
  | item :: items =>
    let margin := "".pushn ' ' (column + n.step)
    opening ++ "\n" ++ margin ++ item ++
      String.join (items.map fun other => ",\n" ++ margin ++ other) ++
      n.last ++ "\n" ++ "".pushn ' ' column ++ closing

end Nesting

end MarathiScript.Text
