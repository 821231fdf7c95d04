/-
  MarathiScript.Text.Ranges — sets of characters given by ranges of code points.

  A table lists its ranges in ascending order, each with its first and last code point.
  Only code points from 0x80 on are listed, because the ASCII part of each class is a
  rule of its own, stated where the class is defined.
-/

namespace MarathiScript.Text

/-- Ranges of code points, first and last included. -/
abbrev Ranges := List (Nat × Nat)

/-- Some range covers the character. -/
def Ranges.covers (ranges : Ranges) (c : Char) : Bool :=
  ranges.any fun range => range.1 ≤ c.toNat && c.toNat ≤ range.2

end MarathiScript.Text
