/-
  MarathiScript.Decimal.Nearest — the double nearest to a quotient of natural numbers.

  A positive double is `m * 2 ^ e` with `m` below `2 ^ 53` and `e` at least -1074, and with
  `m` at least `2 ^ 52` unless `e` is -1074. The quotient is brought to that scale and
  rounded to a whole number there, a half to the even neighbour (`roundHalfEven`). Written as
  `(e + 1074) * 2 ^ 52 + m` the pair is the bit pattern of the double, also where rounding
  carries into the next exponent; what lies past the last finite double is infinity. `ofInt`
  is the nearest double to an integer.
-/

namespace MarathiScript.Decimal

/-- `n / d` rounded to a whole number, a half to the even one. -/
def roundHalfEven (n d : Nat) : Nat :=
  let q := n / d
  let r := n % d
  if 2 * r < d then q else if d < 2 * r then q + 1 else q + q % 2

/-- One in the exponent field of a double: `2 ^ 52`. -/
def exponentUnit : Nat := 0x0010000000000000

/-- The bits of positive infinity: an exponent field of ones. -/
def infinityBits : Nat := 0x7ff0000000000000

/-- The bit of a minus sign: `2 ^ 63`. -/
def signBit : Nat := 0x8000000000000000

/-- `n / d` divided by `2 ^ e`, as a numerator and a denominator. -/
def scale (n d : Nat) (e : Int) : Nat × Nat := (n <<< (-e).toNat, d <<< e.toNat)

/-- The least exponent that the quotient `n / d` may have as a double with 53 bits. -/
def exponent (n d : Nat) : Int :=
  let guess := (n.log2 : Int) - d.log2 - 53
  let e := if guess < -1074 then -1074 else guess
  let (n', d') := scale n d e
  if n' / d' < 2 * exponentUnit then e else e + 1

/-- The bits of the double nearest to `n / d`. -/
def nearestBits (n d : Nat) : Nat :=
  if n = 0 then 0 else
  let e := exponent n d
  let (n', d') := scale n d e
  let bits := (e + 1074).toNat * exponentUnit + roundHalfEven n' d'
  if bits < infinityBits then bits else infinityBits

/-- The double with these bits and a sign. -/
def signed (negative : Bool) (bits : Nat) : Float :=
  Float.ofBits (UInt64.ofNat (if negative then bits + signBit else bits))

def infinity (negative : Bool) : Float := signed negative infinityBits

def nearest (negative : Bool) (n d : Nat) : Float := signed negative (nearestBits n d)

/-- The double nearest to an integer. -/
def ofInt (z : Int) : Float := nearest (z < 0) z.natAbs 1

end MarathiScript.Decimal
