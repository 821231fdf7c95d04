/-
  MarathiScript.Proofs.Values.Operators — the table of operators.

  What an operator comes to between two values is laid down by a table (`Value.Rule`), whose rules
  exclude each other by what they ask of the operands and of the operator's text:
  - A string on either side: the texts are joined.
  - Otherwise a logical value on either side is no number, the left one before the right one.
  - Otherwise, between two numbers, the text has to be an operator's, and a division needs a
    divisor other than zero, of which doubles have two.
  - Otherwise two integers are compared or computed as integers without bounds, and the result is
    an overflow if it has no 64 bits; and if either of the numbers is a double, both are doubles.

  Proved (`operators_tabled`): every pair of values and every text comes to what the table says and
  to nothing else, so an integer result is the exact one; and of all quotients only that of the
  least integer and -1 overflows.
-/

import MarathiScript.Value.Combine
import MarathiScript.Proofs.Values.Zeros

namespace MarathiScript

/-! ## Operators -/

namespace Operator

/-- What the operators of arithmetic give, in any kind of numbers. -/
def arithmetic? {α : Type} [Add α] [Sub α] [Mul α] (quotient : α → α → α) (o : Operator) (a b : α) :
    Option α :=
  match o with
  | add => some (a + b)
  | sub => some (a - b)
  | mul => some (a * b)
  | div => some (quotient a b)
  | lt | gt | le | ge | eq | ne => none

/-- What the comparisons give, in any kind of numbers. -/
def comparison? {α : Type} [BEq α] [LT α] [LE α] [DecidableLT α] [DecidableLE α] (o : Operator)
    (a b : α) : Option Bool :=
  match o with
  | lt => some (a < b)
  | gt => some (b < a)
  | le => some (a ≤ b)
  | ge => some (b ≤ a)
  | eq => some (a == b)
  | ne => some (a != b)
  | add | sub | mul | div => none

/-- An operator compares or computes. -/
theorem comparison_or_arithmetic {α : Type} [Add α] [Sub α] [Mul α] [BEq α] [LT α] [LE α]
    [DecidableLT α] [DecidableLE α] (quotient : α → α → α) (o : Operator) (a b : α) :
    (∃ c, o.comparison? a b = some c) ∨ ∃ z, o.arithmetic? quotient a b = some z := by
  cases o with
  | lt | gt | le | ge | eq | ne => exact .inl ⟨_, rfl⟩
  | add | sub | mul | div => exact .inr ⟨_, rfl⟩

theorem text_injective {o p : Operator} (h : o.text = p.text) : o = p := by
  have ho := ofText?_text o
  rw [h, ofText?_text] at ho
  exact (Option.some.inj ho).symm

/-- The texts of the operators. -/
def texts : List String := ["+", "-", "*", "/", "<", ">", "<=", ">=", "==", "!="]

theorem mem_texts {op : String} : op ∈ texts ↔ ∃ o : Operator, o.text = op := by
  constructor
  · intro h
    have hall : ∀ op ∈ texts, (ofText? op).isSome = true := by decide
    obtain ⟨o, ho⟩ := Option.isSome_iff_exists.1 (hall op h)
    exact ⟨o, text_of_ofText? ho⟩
  · rintro ⟨o, rfl⟩
    cases o <;> decide

theorem ofText?_eq_none {op : String} (h : op ∉ texts) : ofText? op = none := by
  cases ho : ofText? op with
  | none => rfl
  | some o => exact absurd (mem_texts.2 ⟨o, text_of_ofText? ho⟩) h

end Operator

/-! ## Values -/

namespace Value

def isString : Value → Bool
  | str _ => true
  | _ => false

def isFloat : Value → Bool
  | float _ => true
  | _ => false

/-- An integer or a double. -/
def isNumber : Value → Bool
  | int _ | float _ => true
  | _ => false

/-- What cannot divide. -/
inductive IsZero : Value → Prop
  | int : IsZero (int 0)
  | positive : IsZero (float 0.0)
  | negative : IsZero (float (-0.0))

/-- Two numbers of which one is a double, and the doubles nearest to them. -/
structure Promoted (v w : Value) (x y : Float) : Prop where
  either : v.isFloat = true ∨ w.isFloat = true
  left : v.asFloat = .ok x
  right : w.asFloat = .ok y

/-- The table of operators. -/
inductive Rule : Value → String → Value → Except RunError Value → Prop
  | join {v w : Value} {op : String} : v.isString = true ∨ w.isString = true →
      Rule v op w (.ok (str (v.text ++ w.text)))
  /-- A logical value on the left, whatever is on the right but a string. -/
  | left {w : Value} {op : String} {b : Bool} : w.isString = false →
      Rule (bool b) op w (.error (.notNumber (bool b)))
  | right {v : Value} {op : String} {b : Bool} : v.isNumber = true →
      Rule v op (bool b) (.error (.notNumber (bool b)))
  | unknown {v w : Value} {op : String} : v.isNumber = true → w.isNumber = true →
      op ∉ Operator.texts → Rule v op w (.error (.unsupportedOperator op))
  | division {v w : Value} : v.isNumber = true → w.IsZero → Rule v "/" w (.error .divisionByZero)
  | compared {a b : Int64} {o : Operator} {c : Bool} : o.comparison? a.toInt b.toInt = some c →
      Rule (int a) o.text (int b) (.ok (bool c))
  | exact {a b n : Int64} {o : Operator} : (o = .div → ¬ (int b).IsZero) →
      o.arithmetic? Int.tdiv a.toInt b.toInt = some n.toInt →
        Rule (int a) o.text (int b) (.ok (int n))
  | overflow {a b : Int64} {o : Operator} {z : Int} : (o = .div → ¬ (int b).IsZero) →
      o.arithmetic? Int.tdiv a.toInt b.toInt = some z →
        z < Int64.minValue.toInt ∨ Int64.maxValue.toInt < z →
          Rule (int a) o.text (int b) (.error (.overflow a o b))
  | comparedFloats {v w : Value} {o : Operator} {x y : Float} {c : Bool} : Promoted v w x y →
      o.comparison? x y = some c → Rule v o.text w (.ok (bool c))
  | computedFloats {v w : Value} {o : Operator} {x y z : Float} : Promoted v w x y →
      (o = .div → ¬ w.IsZero) → o.arithmetic? (· / ·) x y = some z →
        Rule v o.text w (.ok (float z))

end Value

/-! ## Integers -/

section

variable {z : Int} {a b n : Int64} {o : Operator} {c : Bool}

theorem int64?_eq_some : int64? z = some n ↔ n.toInt = z := by
  have hmin : Int64.minValue.toInt = -9223372036854775808 := by decide
  have hmax : Int64.maxValue.toInt = 9223372036854775807 := by decide
  unfold int64?
  constructor
  · intro h
    split at h
    · cases h
      exact Int64.toInt_ofInt_of_le (by omega) (by omega)
    · cases h
  · rintro rfl
    have hlow := n.le_toInt
    have hhigh := n.toInt_lt
    rw [if_pos (by omega), Int64.ofInt_toInt]

theorem int64?_eq_none :
    int64? z = none ↔ z < Int64.minValue.toInt ∨ Int64.maxValue.toInt < z := by
  unfold int64?
  split
  · simp only [reduceCtorEq, false_iff]
    omega
  · simp only [true_iff]
    omega

theorem Value.isZero_int : (int b).IsZero ↔ b.toInt = 0 := by
  constructor
  · rintro ⟨⟩
    rfl
  · intro h
    have hzero : b = 0 := Int64.toInt_inj.1 h
    exact hzero ▸ .int

namespace Operator

theorem onInts_comparison (h : o.comparison? a.toInt b.toInt = some c) :
    o.onInts a b = .ok (.bool c) := by
  cases o with
  | lt | gt | le | ge | eq => cases h; rfl
  | ne =>
    cases h
    have hne : decide (a.toInt ≠ b.toInt) = (a.toInt != b.toInt) := decide_not
    simp only [onInts, hne]
  | add | sub | mul | div => cases h

theorem onInts_arithmetic (h : o.arithmetic? Int.tdiv a.toInt b.toInt = some z)
    (hdiv : o = div → ¬ (Value.int b).IsZero) :
    o.onInts a b = match int64? z with
      | some n => .ok (.int n)
      | none => .error (.overflow a o b) := by
  cases o with
  | add | sub | mul => cases h; rfl
  | div =>
    cases h
    have hb : b.toInt ≠ 0 := fun hb => hdiv rfl (Value.isZero_int.2 hb)
    exact if_neg hb
  | lt | gt | le | ge | eq | ne => cases h

end Operator

/-- Of all quotients only that of the least integer and -1 has no 64 bits. -/
theorem int64?_tdiv (hb : b.toInt ≠ 0) :
    int64? (a.toInt.tdiv b.toInt) = none ↔ a = Int64.minValue ∧ b = -1 := by
  have hmin : Int64.minValue.toInt = -9223372036854775808 := by decide
  have hmax : Int64.maxValue.toInt = 9223372036854775807 := by decide
  have hone : (-1 : Int64).toInt = -1 := by decide
  have hlow := a.le_toInt
  have hhigh := a.toInt_lt
  rw [int64?_eq_none, ← Int64.toInt_inj, ← Int64.toInt_inj, hmin, hmax, hone]
  by_cases hunit : b.toInt.natAbs = 1
  · have hcases : b.toInt = 1 ∨ b.toInt = -1 := by omega
    rcases hcases with h | h
    · rw [h, Int.tdiv_one]
      omega
    · rw [h, Int.tdiv_neg, Int.tdiv_one]
      omega
  · have habs : (a.toInt.tdiv b.toInt).natAbs = a.toInt.natAbs / b.toInt.natAbs := Int.natAbs_tdiv ..
    -- at most half of the dividend
    have hhalf : a.toInt.natAbs / b.toInt.natAbs ≤ a.toInt.natAbs / 2 :=
      Nat.div_le_div_left (by omega) (by decide)
    omega

end

/-! ## Doubles -/

section

variable {v w : Value} {x y z : Float} {o : Operator} {c : Bool}

theorem Operator.onFloats_comparison (h : o.comparison? x y = some c) :
    o.onFloats x y = .ok (.bool c) := by
  cases o with
  | lt | gt | le | ge | eq | ne => cases h; rfl
  | add | sub | mul | div => cases h

theorem Operator.onFloats_arithmetic (h : o.arithmetic? (· / ·) x y = some z)
    (hdiv : o = div → (y == 0) = false) : o.onFloats x y = .ok (.float z) := by
  cases o with
  | add | sub | mul => cases h; rfl
  | div =>
    cases h
    simp only [onFloats, hdiv rfl]
    rfl
  | lt | gt | le | ge | eq | ne => cases h

/-- The double nearest to a divisor is zero only if the divisor is. -/
theorem Value.isZero_asFloat (h : w.asFloat = .ok y) : (y == 0) = true ↔ w.IsZero := by
  cases w with
  | int b =>
    cases h
    rw [Decimal.ofInt_beq_zero, isZero_int]
  | float y =>
    cases h
    rw [Decimal.beq_zero]
    constructor
    · rintro (rfl | rfl)
      · exact .positive
      · exact .negative
    · rintro (_ | _)
      · exact .inl rfl
      · exact .inr rfl
  | str s | bool b => cases h

end

/-! ## The table -/

namespace Value

variable {v w : Value} {op : String} {x y : Float} {r : Except RunError Value}

/-- Two numbers are two integers, or both are taken as doubles. -/
theorem numbers_cases (hv : v.isNumber = true) (hw : w.isNumber = true) :
    (∃ a b, v = int a ∧ w = int b) ∨ ∃ x y, Promoted v w x y := by
  cases v with
  | int a =>
    cases w with
    | int b => exact .inl ⟨a, b, rfl, rfl⟩
    | float y => exact .inr ⟨_, y, .inr rfl, rfl, rfl⟩
    | str s | bool b => cases hw
  | float x =>
    cases w with
    | int b => exact .inr ⟨x, _, .inl rfl, rfl, rfl⟩
    | float y => exact .inr ⟨x, y, .inl rfl, rfl, rfl⟩
    | str s | bool b => cases hw
  | str s | bool b => cases hv

theorem combine_ints (a b : Int64) :
    (int a).combine op (int b) = operatorOf op >>= fun o => o.onInts a b := rfl

theorem Promoted.combine (h : Promoted v w x y) :
    v.combine op w = operatorOf op >>= fun o => o.onFloats x y := by
  obtain ⟨heither, hv, hw⟩ := h
  cases v with
  | int a =>
    cases w with
    | int b => rcases heither with h | h <;> cases h
    | float y => cases hv; cases hw; rfl
    | str s | bool b => cases hw
  | float x =>
    cases w with
    | int b | float y => cases hv; cases hw; rfl
    | str s | bool b => cases hw
  | str s | bool b => cases hv

theorem operatorOf_text (o : Operator) : operatorOf o.text = .ok o := by
  rw [operatorOf, Operator.ofText?_text]

theorem combine_unknown (hv : v.isNumber = true) (hw : w.isNumber = true) (h : op ∉ Operator.texts) :
    v.combine op w = .error (.unsupportedOperator op) := by
  have hop : operatorOf op = .error (.unsupportedOperator op) := by
    rw [operatorOf, Operator.ofText?_eq_none h]
  rcases numbers_cases hv hw with ⟨a, b, rfl, rfl⟩ | ⟨x, y, hp⟩
  · rw [combine_ints, hop]
    rfl
  · rw [hp.combine, hop]
    rfl

theorem combine_division (hv : v.isNumber = true) (hw : w.IsZero) :
    v.combine "/" w = .error .divisionByZero := by
  have hop : operatorOf "/" = .ok .div := rfl
  have hnumber : w.isNumber = true := by cases hw <;> rfl
  rcases numbers_cases hv hnumber with ⟨a, b, rfl, rfl⟩ | ⟨x, y, hp⟩
  · rw [combine_ints, hop]
    exact if_pos (isZero_int.1 hw)
  · rw [hp.combine, hop]
    exact if_pos ((isZero_asFloat hp.right).2 hw)

theorem Rule.combine (h : Rule v op w r) : v.combine op w = r := by
  cases h with
  | join h =>
    rcases h with h | h
    · cases v <;> cases h
      rfl
    · cases w <;> cases h
      cases v <;> rfl
  | left h => cases w <;> cases h <;> rfl
  | right h => cases v <;> cases h <;> rfl
  | unknown hv hw h => exact combine_unknown hv hw h
  | division hv hw => exact combine_division hv hw
  | compared h =>
    rw [combine_ints, operatorOf_text]
    exact Operator.onInts_comparison h
  | exact hdiv h =>
    rw [combine_ints, operatorOf_text]
    refine (Operator.onInts_arithmetic h hdiv).trans ?_
    rw [int64?_eq_some.2 rfl]
  | overflow hdiv h hz =>
    rw [combine_ints, operatorOf_text]
    refine (Operator.onInts_arithmetic h hdiv).trans ?_
    rw [int64?_eq_none.2 hz]
  | comparedFloats hp h =>
    rw [hp.combine, operatorOf_text]
    exact Operator.onFloats_comparison h
  | computedFloats hp hdiv h =>
    rw [hp.combine, operatorOf_text]
    refine Operator.onFloats_arithmetic h fun ho => ?_
    exact Bool.eq_false_iff.2 fun hzero => hdiv ho ((isZero_asFloat hp.right).1 hzero)

theorem exists_rule_ints (o : Operator) (a b : Int64) : ∃ r, Rule (int a) o.text (int b) r := by
  by_cases hdiv : o = .div ∧ (int b).IsZero
  · obtain ⟨rfl, hzero⟩ := hdiv
    exact ⟨_, .division rfl hzero⟩
  · have hdivisor : o = .div → ¬ (int b).IsZero := fun ho hzero => hdiv ⟨ho, hzero⟩
    rcases o.comparison_or_arithmetic Int.tdiv a.toInt b.toInt with ⟨c, hc⟩ | ⟨z, hz⟩
    · exact ⟨_, .compared hc⟩
    · cases hn : int64? z with
      | some n =>
        rw [← int64?_eq_some.1 hn] at hz
        exact ⟨_, .exact hdivisor hz⟩
      | none => exact ⟨_, .overflow hdivisor hz (int64?_eq_none.1 hn)⟩

theorem Promoted.exists_rule (h : Promoted v w x y) (o : Operator) (hv : v.isNumber = true) :
    ∃ r, Rule v o.text w r := by
  by_cases hdiv : o = .div ∧ w.IsZero
  · obtain ⟨rfl, hzero⟩ := hdiv
    exact ⟨_, .division hv hzero⟩
  · have hdivisor : o = .div → ¬ w.IsZero := fun ho hzero => hdiv ⟨ho, hzero⟩
    rcases o.comparison_or_arithmetic (· / ·) x y with ⟨c, hc⟩ | ⟨z, hz⟩
    · exact ⟨_, .comparedFloats h hc⟩
    · exact ⟨_, .computedFloats h hdivisor hz⟩

/-- The table has a rule for every case. -/
theorem exists_rule (v : Value) (op : String) (w : Value) : ∃ r, Rule v op w r := by
  have numbers : v.isNumber = true → w.isNumber = true → ∃ r, Rule v op w r := by
    intro hv hw
    by_cases hop : op ∈ Operator.texts
    · obtain ⟨o, rfl⟩ := Operator.mem_texts.1 hop
      rcases numbers_cases hv hw with ⟨a, b, rfl, rfl⟩ | ⟨x, y, hp⟩
      · exact exists_rule_ints o a b
      · exact hp.exists_rule o hv
    · exact ⟨_, .unknown hv hw hop⟩
  by_cases hs : v.isString = true ∨ w.isString = true
  · exact ⟨_, .join hs⟩
  · cases v with
    | str s => exact absurd (.inl rfl) hs
    | bool b => exact ⟨_, .left (Bool.eq_false_iff.2 fun h => hs (.inr h))⟩
    | int a | float x =>
      cases w with
      | str s => exact absurd (.inr rfl) hs
      | bool b => exact ⟨_, .right rfl⟩
      | int b | float y => exact numbers rfl rfl

theorem combine_iff_rule : v.combine op w = r ↔ Rule v op w r := by
  constructor
  · rintro rfl
    obtain ⟨r, h⟩ := exists_rule v op w
    exact h.combine ▸ h
  · exact Rule.combine

end Value

/-- Between any two values a text comes to what the table says and to nothing else. A quotient of
integers overflows for the least of them and -1 only, and an integer result is the exact one, which
there is whenever it has 64 bits. -/
theorem operators_tabled :
    (∀ (v w : Value) (op : String) (r : Except RunError Value), v.combine op w = r ↔ v.Rule op w r) ∧
      (∀ a b : Int64, (Value.int a).combine "/" (.int b) = .error (.overflow a .div b) ↔
        a = Int64.minValue ∧ b = -1) ∧
      ∀ (o : Operator) (a b n : Int64), (Value.int a).combine o.text (.int b) = .ok (.int n) ↔
        (o = .div → b.toInt ≠ 0) ∧ o.arithmetic? Int.tdiv a.toInt b.toInt = some n.toInt := by
  refine ⟨fun v w op r => Value.combine_iff_rule, fun a b => ?_, fun o a b n => ?_⟩
  · by_cases hb : b.toInt = 0
    · rw [Value.combine_division rfl (Value.isZero_int.2 hb)]
      constructor
      · nofun
      · rintro ⟨-, rfl⟩
        exact absurd hb (by decide)
    · have hquotient : (Value.int a).combine "/" (.int b) = Operator.div.onInts a b := rfl
      have hdiv : Operator.div = .div → ¬ (Value.int b).IsZero := fun _ => mt Value.isZero_int.1 hb
      rw [hquotient, Operator.onInts_arithmetic rfl hdiv, ← int64?_tdiv hb]
      cases int64? (a.toInt.tdiv b.toInt) <;> simp
  · constructor
    · intro h
      rw [Value.combine_iff_rule] at h
      generalize hop : o.text = op at h
      cases h with
      | exact hdiv hz =>
        cases Operator.text_injective hop
        exact ⟨fun ho => mt Value.isZero_int.2 (hdiv ho), hz⟩
    · rintro ⟨hdiv, hz⟩
      exact Value.Rule.combine (.exact (fun ho => mt Value.isZero_int.1 (hdiv ho)) hz)

/-- The least integer has no opposite. -/
example : (Value.int Int64.minValue).combine "*" (.int (-1)) =
    .error (.overflow Int64.minValue .mul (-1)) := rfl

end MarathiScript
