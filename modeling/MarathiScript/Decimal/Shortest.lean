/-
  MarathiScript.Decimal.Shortest — the text of a double.

  A finite double is written with a point and at least one decimal, and never with an
  exponent. It has the fewest decimals with which it can be read back, and of the numbers
  with that many decimals it is the nearest; of two equally near the larger one. So a whole
  number is written out exactly and ends in `.0`.

  The numbers that read back as a double are those between the midpoints to its neighbours,
  the midpoints themselves included if its significand is even (`Span`). On the grid of `k`
  decimals only the two neighbours of the double itself need to be tried: if any point of
  the grid lies in the span, so does one of these.
-/

import MarathiScript.Decimal.Nearest

namespace MarathiScript.Decimal

/-- A double and the midpoints to its neighbours, over one denominator. -/
structure Span where
  low : Nat
  value : Nat
  high : Nat
  unit : Nat
  /-- The midpoints themselves read back too. -/
  closed : Bool
  deriving DecidableEq, Repr

namespace Span

/-- The span of the finite double with these magnitude bits. The neighbour below a power of two
is half as far away as the one above it. -/
def ofBits (bits : Nat) : Span :=
  let field := bits / exponentUnit
  let fraction := bits % exponentUnit
  let m := if field = 0 then fraction else exponentUnit + fraction
  let e : Int := (if field = 0 then 1 else field : Nat) - 1077
  let below := if fraction = 0 ∧ 1 < field then 1 else 2
  { low := (4 * m - below) <<< e.toNat
    value := (4 * m) <<< e.toNat
    high := (4 * m + 2) <<< e.toNat
    unit := 1 <<< (-e).toNat
    closed := m % 2 = 0 }

/-- The span of ten times the double. -/
def tenfold (s : Span) : Span :=
  { s with low := 10 * s.low, value := 10 * s.value, high := 10 * s.high }

/-- A number that reads back. -/
def contains (s : Span) (n : Nat) : Bool :=
  if s.closed then s.low ≤ n * s.unit && n * s.unit ≤ s.high
  else s.low < n * s.unit && n * s.unit < s.high

/-- The whole number nearest to the double among those that read back. -/
def whole? (s : Span) : Option Nat :=
  let down := s.value / s.unit
  let up := down + 1
  match s.contains down, s.contains up with
  | true, true => some (if 2 * (s.value % s.unit) < s.unit then down else up)
  | true, false => some down
  | false, true => some up
  | false, false => none

/-- The fewest decimals from `k` on, and the digits with them. Every further decimal makes the
span ten times as large; with as many decimals as the unit has binary places the double itself
is on the grid. -/
def decimals : Nat → Nat → Span → Nat × Nat
  | 0, k, s => (s.value / s.unit, k)
  | rounds + 1, k, s =>
    match s.whole? with
    | some n => (n, k)
    | none => decimals rounds (k + 1) s.tenfold

end Span

/-- `n / 10 ^ k` with `k` decimals. -/
def fixed (n k : Nat) : String :=
  let unit := Nat.pow 10 k
  let decimals := Nat.toDigits 10 (n % unit)
  toString (n / unit) ++ "." ++
    String.ofList (List.replicate (k - decimals.length) '0' ++ decimals)

/-- The text of a finite double without its sign. -/
def magnitudeText (bits : Nat) : String :=
  let s := Span.ofBits bits
  let (n, k) := s.tenfold.decimals s.unit.log2 1
  fixed n k

/-- The text of a double. -/
def text (x : Float) : String :=
  let bits := x.toBits.toNat
  let magnitude := bits % signBit
  let sign := if bits < signBit then "" else "-"
  if infinityBits < magnitude then "NaN"
  else if magnitude = infinityBits then sign ++ "inf"
  else sign ++ magnitudeText magnitude

end MarathiScript.Decimal
