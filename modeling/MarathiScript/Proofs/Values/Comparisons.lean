/-
  MarathiScript.Proofs.Values.Comparisons — the two ways to compare a variable with a number.

  A loop compares by an operator between two values. A branch reads the text of its variable as an
  integer, and the text of its literal, and compares the two (`Condition.Judged`); so it asks four
  things in turn: is the variable bound, does its text spell an integer of 64 bits, does the
  literal, and is the operator one of the five comparisons. A text spells an integer if it is a sign
  or none and digits (`Whole`): that is what is read (`whole?_iff`), the text of an integer spells
  that integer (`whole_toString`), and no double has such a text (`text_not_whole`).

  Proved (`conditions_agree`): a branch is decided in this order and in no other way; of an integer
  it decides what the operator does between two values; a string that spells an integer stands for
  it; and a double or a logical value is never compared.
-/

import MarathiScript.Proofs.Rejections
import MarathiScript.Proofs.Values.Operators

namespace MarathiScript

/-! ## Texts of integers -/

namespace Decimal

/-- The text is a sign or none and at least one digit, and this is the integer that it spells. -/
inductive Whole : List Char → Int → Prop
  | unsigned {digits : List Char} : digits ≠ [] → (∀ c ∈ digits, c.isDigit = true) →
      Whole digits (Nat.ofDigitChars 10 digits 0)
  | plus {digits : List Char} : digits ≠ [] → (∀ c ∈ digits, c.isDigit = true) →
      Whole ('+' :: digits) (Nat.ofDigitChars 10 digits 0)
  | minus {digits : List Char} : digits ≠ [] → (∀ c ∈ digits, c.isDigit = true) →
      Whole ('-' :: digits) (-(Nat.ofDigitChars 10 digits 0 : Int))

theorem ofDigits_eq (digits : List Char) : ofDigits digits = Nat.ofDigitChars 10 digits 0 := rfl

theorem whole?_iff {text : List Char} {z : Int} : whole? text = some z ↔ Whole text z := by
  constructor
  · intro h
    unfold whole? sign at h
    split at h
    rename_i negative digits hsign
    split at h
    · rename_i hdigits
      have hall : ∀ c ∈ digits, c.isDigit = true := List.all_eq_true.1 hdigits.2
      cases h
      split at hsign
      · cases hsign
        exact .minus hdigits.1 hall
      · cases hsign
        exact .plus hdigits.1 hall
      · cases hsign
        exact .unsigned hdigits.1 hall
    · cases h
  · intro h
    cases h with
    | unsigned hne hdigits => exact whole?_digits hne hdigits
    | plus hne hdigits | minus hne hdigits =>
      have hall := List.all_eq_true.2 hdigits
      simp [whole?, sign, hne, hall, ofDigits_eq]

theorem toDigits_isDigit (n : Nat) : ∀ c ∈ Nat.toDigits 10 n, c.isDigit = true := by
  intro c hc
  exact Nat.isDigit_of_mem_toDigits (by decide) (by decide) hc

/-- The text of an integer spells it. -/
theorem whole_toString (z : Int) : Whole (toString z).toList z := by
  cases z with
  | ofNat n =>
    have htext : (toString (Int.ofNat n)).toList = Nat.toDigits 10 n := Nat.toList_repr
    have hwhole := Whole.unsigned Nat.toDigits_ne_nil (toDigits_isDigit n)
    rw [Nat.ofDigitChars_ten_toDigits] at hwhole
    rw [htext]
    exact hwhole
  | negSucc n =>
    have hsign : toString (Int.negSucc n) = "-" ++ (n + 1).repr := rfl
    have hwhole := Whole.minus Nat.toDigits_ne_nil (toDigits_isDigit (n + 1))
    rw [Nat.ofDigitChars_ten_toDigits] at hwhole
    rw [hsign, String.toList_append, Nat.toList_repr]
    exact hwhole

theorem Whole.chars {text : List Char} {z : Int} (h : Whole text z) :
    ∀ c ∈ text, c = '+' ∨ c = '-' ∨ c.isDigit = true := by
  cases h with
  | unsigned _ hdigits => exact fun c hc => .inr (.inr (hdigits c hc))
  | plus _ hdigits =>
    exact List.forall_mem_cons.2 ⟨.inl rfl, fun c hc => .inr (.inr (hdigits c hc))⟩
  | minus _ hdigits =>
    exact List.forall_mem_cons.2 ⟨.inr (.inl rfl), fun c hc => .inr (.inr (hdigits c hc))⟩

/-- The text of a double has a point, or it is a word. -/
theorem text_marked (x : Float) : ∃ c ∈ (text x).toList, c = '.' ∨ c = 'N' ∨ c = 'i' := by
  unfold text
  simp only
  split
  · exact ⟨'N', by decide, .inr (.inl rfl)⟩
  · split
    · exact ⟨'i', by simp, .inr (.inr rfl)⟩
    · refine ⟨'.', ?_, .inl rfl⟩
      simp [magnitudeText, fixed]

theorem text_not_whole (x : Float) (z : Int) : ¬ Whole (text x).toList z := by
  intro h
  obtain ⟨c, hc, hmark⟩ := text_marked x
  have hchar := h.chars c hc
  rcases hmark with rfl | rfl | rfl <;> exact absurd hchar (by decide)

end Decimal

/-- The text spells this integer of 64 bits. -/
def SpellsInt (text : String) (n : Int64) : Prop := Decimal.Whole text.toList n.toInt

section

variable {text : String} {n : Int64}

theorem int64OfText?_eq_some : int64OfText? text = some n ↔ SpellsInt text n := by
  rw [int64OfText?, Option.bind_eq_some_iff, SpellsInt, ← Decimal.whole?_iff]
  constructor
  · rintro ⟨z, hz, hn⟩
    rw [int64?_eq_some.1 hn]
    exact hz
  · intro h
    exact ⟨n.toInt, h, int64?_eq_some.2 rfl⟩

theorem int64OfText?_eq_none : int64OfText? text = none ↔ ∀ n, ¬ SpellsInt text n := by
  simp only [Option.eq_none_iff_forall_ne_some, ne_eq, int64OfText?_eq_some]

theorem spellsInt_text (n : Int64) : SpellsInt (Value.int n).text n := Decimal.whole_toString n.toInt

theorem not_spellsInt_float (x : Float) (n : Int64) : ¬ SpellsInt (Value.float x).text n :=
  Decimal.text_not_whole x n.toInt

theorem not_spellsInt_bool (b : Bool) (n : Int64) : ¬ SpellsInt (Value.bool b).text n := by
  intro h
  have hchars := Decimal.Whole.chars h
  cases b <;> exact absurd (hchars 'e' (by decide)) (by decide)

end

/-! ## Conditions -/

namespace Condition

/-- How a condition is decided: the first of four checks that fails says why it is not. -/
inductive Judged (env : Environment) (c : Condition) : Except RunError Bool → Prop
  | unbound : env.get? c.name = none → Judged env c (.error (.undefinedVariable c.name))
  | notInteger {v : Value} : env.get? c.name = some v → (∀ a, ¬ SpellsInt v.text a) →
      Judged env c (.error (.notInteger c.name v))
  | literal {v : Value} {a : Int64} : env.get? c.name = some v → SpellsInt v.text a →
      (∀ b, ¬ SpellsInt c.value b) → Judged env c (.error (.invalidLiteral c.value))
  | unknown {v : Value} {a b : Int64} : env.get? c.name = some v → SpellsInt v.text a →
      SpellsInt c.value b → c.operator ∉ comparisons →
        Judged env c (.error (.unsupportedOperator c.operator))
  /-- The answer is that of the operator between the two integers. -/
  | compared {v : Value} {a b : Int64} {answer : Bool} : env.get? c.name = some v →
      SpellsInt v.text a → SpellsInt c.value b → c.operator ∈ comparisons →
        (Value.int a).combine c.operator (.int b) = .ok (.bool answer) → Judged env c (.ok answer)

variable {env : Environment} {c : Condition} {v : Value} {a b : Int64} {op : String}

theorem compare?_of_mem (h : op ∈ comparisons) (a b : Int64) :
    ∃ answer, compare? op a b = some answer ∧
      (Value.int a).combine op (.int b) = .ok (.bool answer) := by
  simp only [comparisons, List.mem_cons, List.not_mem_nil, or_false] at h
  rcases h with rfl | rfl | rfl | rfl | rfl <;> exact ⟨_, rfl, rfl⟩

theorem compare?_of_not_mem (h : op ∉ comparisons) (a b : Int64) : compare? op a b = none := by
  simp only [comparisons, List.mem_cons, List.not_mem_nil, or_false, not_or] at h
  unfold compare?
  split <;> simp_all

theorem holds_bound (h : env.get? c.name = some v) : c.holds env = c.verdict v := by
  rw [holds, Environment.read, h]
  rfl

theorem Judged.holds {r : Except RunError Bool} (h : c.Judged env r) : c.holds env = r := by
  cases h with
  | unbound hx =>
    rw [Condition.holds, Environment.read, hx]
    rfl
  | notInteger hx ha => rw [holds_bound hx, verdict, int64OfText?_eq_none.2 ha]
  | literal hx ha hb =>
    rw [holds_bound hx, verdict, int64OfText?_eq_some.2 ha, int64OfText?_eq_none.2 hb]
  | @unknown v a b hx ha hb hop =>
    rw [holds_bound hx, verdict, int64OfText?_eq_some.2 ha, int64OfText?_eq_some.2 hb]
    simp only [compare?_of_not_mem hop a b]
  | @compared v a b answer hx ha hb hop hanswer =>
    rw [holds_bound hx, verdict, int64OfText?_eq_some.2 ha, int64OfText?_eq_some.2 hb]
    obtain ⟨other, hcompare, hcombine⟩ := compare?_of_mem hop a b
    rw [hcombine] at hanswer
    cases hanswer
    simp only [hcompare]

theorem exists_judged (env : Environment) (c : Condition) : ∃ r, c.Judged env r := by
  cases hx : env.get? c.name with
  | none => exact ⟨_, .unbound hx⟩
  | some v =>
    cases ha : int64OfText? v.text with
    | none => exact ⟨_, .notInteger hx (int64OfText?_eq_none.1 ha)⟩
    | some a =>
      have hleft := int64OfText?_eq_some.1 ha
      cases hb : int64OfText? c.value with
      | none => exact ⟨_, .literal hx hleft (int64OfText?_eq_none.1 hb)⟩
      | some b =>
        have hright := int64OfText?_eq_some.1 hb
        by_cases hop : c.operator ∈ comparisons
        · obtain ⟨answer, -, hanswer⟩ := compare?_of_mem hop a b
          exact ⟨_, .compared hx hleft hright hop hanswer⟩
        · exact ⟨_, .unknown hx hleft hright hop⟩

theorem holds_iff_judged {r : Except RunError Bool} : c.holds env = r ↔ c.Judged env r := by
  constructor
  · rintro rfl
    obtain ⟨r, h⟩ := exists_judged env c
    exact h.holds ▸ h
  · exact Judged.holds

/-- The condition as an expression, for the operator between two values. -/
def expr (c : Condition) : Expr := .chain (.name c.name) [(c.operator, .number c.value)]

/-- What is decided of an integer is the value of the expression. -/
theorem eval_expr {answer : Bool} (hx : env.get? c.name = some (.int a))
    (h : c.holds env = .ok answer) : c.expr.eval env = .ok (.bool answer) := by
  rw [holds_iff_judged] at h
  cases h with
  | @compared v a' b _ hv ha hb _ hanswer =>
    rw [hx] at hv
    cases hv
    have haa : a' = a := by
      have hread := int64OfText?_eq_some.2 ha
      rw [int64OfText?_eq_some.2 (spellsInt_text a)] at hread
      exact (Option.some.inj hread).symm
    subst haa
    have hname : (Expr.name c.name).eval env = .ok (.int a') := by
      rw [Expr.eval, Environment.read, hx]
    have hnumber : (Expr.number c.value).eval env = .ok (.int b) := by
      rw [Expr.eval, numberValue, int64OfText?_eq_some.2 hb]
    rw [expr, Expr.eval, hname]
    simp only [evalLinks, hnumber, hanswer]

/-- Variables whose texts spell the same integer are decided alike. -/
theorem holds_alike {env' : Environment} {w : Value} (hv : env.get? c.name = some v)
    (hw : env'.get? c.name = some w) (ha : SpellsInt v.text a) (hb : SpellsInt w.text a) :
    c.holds env = c.holds env' := by
  rw [holds_bound hv, holds_bound hw, verdict, verdict, int64OfText?_eq_some.2 ha,
    int64OfText?_eq_some.2 hb]

end Condition

/-- A condition is decided by four checks in turn, and by the operator between the two integers if
none of them fails. Every integer passes the second check, and the answer is what the condition has as
an expression. A string that spells an integer is decided as the integer is. A double or a logical
value always fails the second check. -/
theorem conditions_agree (env : Environment) (c : Condition) :
    (∀ r, c.holds env = r ↔ c.Judged env r) ∧
    (∀ n, env.get? c.name = some (.int n) → SpellsInt (Value.int n).text n ∧
      ∀ answer, c.holds env = .ok answer → c.expr.eval env = .ok (.bool answer)) ∧
    (∀ s n, env.get? c.name = some (.str s) → SpellsInt s n →
      c.holds env = c.holds (env.set c.name (.int n))) ∧
    (∀ x, env.get? c.name = some (.float x) →
      c.holds env = .error (.notInteger c.name (.float x))) ∧
    ∀ b, env.get? c.name = some (.bool b) →
      c.holds env = .error (.notInteger c.name (.bool b)) := by
  refine ⟨fun r => Condition.holds_iff_judged, ?_, ?_, ?_, ?_⟩
  · intro n hn
    exact ⟨spellsInt_text n, fun answer h => Condition.eval_expr hn h⟩
  · intro s n hs hspells
    have hset : (env.set c.name (.int n)).get? c.name = some (.int n) := by
      rw [Environment.get?_set, if_pos rfl]
    exact Condition.holds_alike hs hset hspells (spellsInt_text n)
  · intro x hx
    exact Condition.Judged.holds (.notInteger hx (not_spellsInt_float x))
  · intro b hb
    exact Condition.Judged.holds (.notInteger hb (not_spellsInt_bool b))

/-- The least integer, as a string and as an integer. -/
theorem conditions_agree_least :
    let c : Condition := ⟨"x", "<", "+0"⟩
    let env := Environment.empty.set "x" (.str "-9223372036854775808")
    let env' := env.set "x" (.int Int64.minValue)
    SpellsInt "-9223372036854775808" Int64.minValue ∧ c.holds env = c.holds env' ∧
      c.holds env' = .ok true ∧ c.expr.eval env' = .ok (.bool true) := by
  intro c env env'
  have hspells : SpellsInt "-9223372036854775808" Int64.minValue := int64OfText?_eq_some.1 rfl
  have hzero : SpellsInt "+0" 0 := int64OfText?_eq_some.1 rfl
  have hholds : c.holds env' = .ok true :=
    Condition.Judged.holds (.compared rfl (spellsInt_text Int64.minValue) hzero (by decide) rfl)
  have hstring := (conditions_agree env c).2.2.1 _ _ rfl hspells
  have hinteger := ((conditions_agree env' c).2.1 Int64.minValue rfl).2 true hholds
  exact ⟨hspells, hstring, hholds, hinteger⟩

end MarathiScript
