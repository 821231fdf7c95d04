/-
  MarathiScript.Proofs.Run.Operands — what the value of an expression is made of.

  An expression is made of `leaves`, names and literals, and `operators` between them. What an
  operator can come to is said once (`Value.Combined`): a string needs a string operand, a double
  a double operand, a logical value a comparison, and each of the four errors its own reason. So
  a property of values and one of errors hold of the whole expression if they hold of its leaves
  and its operators keep them (`Expr.eval_meets`); no other part of the evaluation has to be
  looked at.
-/

import MarathiScript.Evaluation

namespace MarathiScript

/-! ## Operators -/

def Operator.compares : Operator → Bool
  | lt | gt | le | ge | eq | ne => true
  | add | sub | mul | div => false

/-- What an operator can come to between two values. -/
inductive Value.Combined : Value → String → Value → Except RunError Value → Prop
  | join {v w : Value} {operator : String} (text : String) :
      (∃ s, v = .str s) ∨ (∃ s, w = .str s) → Combined v operator w (.ok (.str text))
  | int {a b : Int64} {o : Operator} (n : Int64) :
      o.compares = false → Combined (.int a) o.text (.int b) (.ok (.int n))
  | float {v w : Value} {o : Operator} (x : Float) :
      (∃ y, v = .float y) ∨ (∃ y, w = .float y) → o.compares = false →
        Combined v o.text w (.ok (.float x))
  | bool {v w : Value} {o : Operator} (b : Bool) :
      o.compares = true → Combined v o.text w (.ok (.bool b))
  | notNumber {v w : Value} {operator : String} {b : Bool} :
      v = .bool b ∨ w = .bool b → Combined v operator w (.error (.notNumber (.bool b)))
  | unsupported {v w : Value} {operator : String} :
      Operator.ofText? operator = none → Combined v operator w (.error (.unsupportedOperator operator))
  | division {v w : Value} : Combined v "/" w (.error .divisionByZero)
  | overflow {a b : Int64} {o : Operator} :
      o.compares = false → Combined (.int a) o.text (.int b) (.error (.overflow a o b))

theorem Operator.onInts_combined (o : Operator) (a b : Int64) :
    Value.Combined (.int a) o.text (.int b) (o.onInts a b) := by
  cases o with
  | lt | gt | le | ge | eq | ne => exact .bool _ rfl
  | add | sub | mul =>
    simp only [onInts]
    split
    · exact .int _ rfl
    · exact .overflow rfl
  | div =>
    simp only [onInts]
    split
    · exact .division
    · split
      · exact .int _ rfl
      · exact .overflow rfl

theorem Operator.onFloats_combined (o : Operator) (a b : Float) {v w : Value}
    (h : (∃ y, v = .float y) ∨ ∃ y, w = .float y) : Value.Combined v o.text w (o.onFloats a b) := by
  cases o with
  | lt | gt | le | ge | eq | ne => exact .bool _ rfl
  | add | sub | mul => exact .float _ h rfl
  | div =>
    rw [onFloats]
    split
    · exact .division
    · exact .float _ h rfl

/-- The operator that a text names, put between two values, or no such operator. -/
theorem Value.combined_operator {v w : Value} {operator : String}
    {next : Operator → Except RunError Value} (h : ∀ o : Operator, Combined v o.text w (next o)) :
    Combined v operator w (operatorOf operator >>= next) := by
  rw [operatorOf]
  split
  · rename_i o ho
    exact Operator.text_of_ofText? ho ▸ h o
  · rename_i ho
    exact .unsupported ho

theorem Value.combined (v : Value) (operator : String) (w : Value) :
    Combined v operator w (v.combine operator w) := by
  cases v with
  | str s => exact .join _ (.inl ⟨s, rfl⟩)
  | int a =>
    cases w with
    | str s => exact .join _ (.inr ⟨s, rfl⟩)
    | int b => exact combined_operator fun o => o.onInts_combined a b
    | float y => exact combined_operator fun o => o.onFloats_combined _ y (.inr ⟨y, rfl⟩)
    | bool b => exact .notNumber (.inr rfl)
  | float x =>
    cases w with
    | str s => exact .join _ (.inr ⟨s, rfl⟩)
    | int b => exact combined_operator fun o => o.onFloats_combined x _ (.inl ⟨x, rfl⟩)
    | float y => exact combined_operator fun o => o.onFloats_combined x y (.inl ⟨x, rfl⟩)
    | bool b => exact .notNumber (.inr rfl)
  | bool b =>
    cases w with
    | str s => exact .join _ (.inr ⟨s, rfl⟩)
    | int _ | float _ | bool _ => exact .notNumber (.inl rfl)

theorem Value.combined_of {v w : Value} {operator : String} {r : Except RunError Value}
    (h : v.combine operator w = r) : Combined v operator w r := h ▸ v.combined operator w

/-! ## Leaves and operators of an expression -/

mutual

/-- The names and literals of an expression. -/
def Expr.leaves : Expr → List Expr
  | .chain first links => first.leaves ++ linkLeaves links
  | e => [e]

def linkLeaves : List (String × Expr) → List Expr
  | [] => []
  | (_, operand) :: links => operand.leaves ++ linkLeaves links

end

mutual

def Expr.operators : Expr → List String
  | .chain first links => first.operators ++ linkOperators links
  | _ => []

def linkOperators : List (String × Expr) → List String
  | [] => []
  | (operator, operand) :: links => operator :: (operand.operators ++ linkOperators links)

end

mutual

theorem Expr.leaves_primary : (e : Expr) → ∀ l ∈ e.leaves, l.isPrimary = true
  | .chain first links => by
    rw [Expr.leaves, List.forall_mem_append]
    exact ⟨first.leaves_primary, linkLeaves_primary links⟩
  | .name _ | .number _ | .float _ | .string _ => fun l hl => by cases List.mem_singleton.1 hl; rfl

theorem linkLeaves_primary :
    (links : List (String × Expr)) → ∀ l ∈ linkLeaves links, l.isPrimary = true
  | [] => nofun
  | (_, operand) :: links => by
    rw [linkLeaves, List.forall_mem_append]
    exact ⟨operand.leaves_primary, linkLeaves_primary links⟩

end

/-- The names that an expression reads. -/
def Expr.reads (e : Expr) : List String :=
  e.leaves.filterMap fun
    | .name x => some x
    | _ => none

theorem Expr.mem_reads {e : Expr} {x : String} : x ∈ e.reads ↔ .name x ∈ e.leaves := by
  rw [reads, List.mem_filterMap]
  constructor
  · intro h
    obtain ⟨l, hl, hx⟩ := h
    cases l <;> cases hx
    exact hl
  · exact fun h => ⟨_, h, rfl⟩

/-- The value of a leaf is that of a variable, or of a literal of its own kind. -/
theorem Expr.leaf_value {env : Environment} {l : Expr} {v : Value} (hl : l.isPrimary = true)
    (h : l.eval env = .ok v) :
    (∃ x, l = .name x ∧ env.get? x = some v) ∨ (∃ n, v = .int n) ∨
      (∃ text x, l = .float text ∧ v = .float x) ∨ ∃ text, l = .string text ∧ v = .str text := by
  cases l with
  | chain => cases hl
  | name x =>
    rw [eval, Environment.read] at h
    split at h <;> cases h
    exact .inl ⟨x, rfl, ‹_›⟩
  | number text =>
    rw [eval, numberValue] at h
    split at h <;> cases h
    exact .inr (.inl ⟨_, rfl⟩)
  | float text =>
    rw [eval, floatValue] at h
    split at h <;> cases h
    exact .inr (.inr (.inl ⟨text, _, rfl, rfl⟩))
  | string text =>
    cases h
    exact .inr (.inr (.inr ⟨text, rfl, rfl⟩))

/-- A leaf without a value is an unbound name or a literal out of range. -/
theorem Expr.leaf_error {env : Environment} {l : Expr} {err : RunError} (hl : l.isPrimary = true)
    (h : l.eval env = .error err) :
    (∃ x, l = .name x ∧ env.get? x = none ∧ err = .undefinedVariable x) ∨
      ∃ text, (l = .number text ∨ l = .float text) ∧ err = .invalidLiteral text := by
  cases l with
  | chain => cases hl
  | name x =>
    rw [eval, Environment.read] at h
    split at h <;> cases h
    exact .inl ⟨x, rfl, ‹_›, rfl⟩
  | number text =>
    rw [eval, numberValue] at h
    split at h <;> cases h
    exact .inr ⟨text, .inl rfl, rfl⟩
  | float text =>
    rw [eval, floatValue] at h
    split at h <;> cases h
    exact .inr ⟨text, .inr rfl, rfl⟩
  | string text => cases h

/-! ## From the parts to the whole -/

/-- A result with the first property, or an error with the second. -/
structure Meets {α : Type} (K : α → Prop) (E : RunError → Prop) (r : Except RunError α) : Prop where
  value : ∀ a, r = .ok a → K a
  error : ∀ e, r = .error e → E e

section

variable {α : Type} {L : α → Prop} {K : Value → Prop} {E : RunError → Prop} {env : Environment}

theorem Meets.of_ok {a : α} (h : L a) : Meets L E (.ok a) :=
  ⟨fun _ ha => by cases ha; exact h, nofun⟩

theorem Meets.of_error {e : RunError} (h : E e) : Meets L E (.error e) :=
  ⟨nofun, fun _ he => by cases he; exact h⟩

mutual

/-- An expression comes to a value with `K` or to an error with `E` if each of its leaves does and
its operators do so between values with `K`. -/
theorem Expr.eval_meets : (e : Expr) → (∀ l ∈ e.leaves, Meets K E (l.eval env)) →
    (∀ op ∈ e.operators, ∀ v w, K v → K w → Meets K E (v.combine op w)) → Meets K E (e.eval env)
  | .chain first links, hleaves, hoperators => by
    simp only [Expr.leaves, Expr.operators, List.forall_mem_append] at hleaves hoperators
    have hfirst := first.eval_meets hleaves.1 hoperators.1
    rw [Expr.eval]
    rcases hv : first.eval env with err | v
    · exact .of_error (hfirst.error err hv)
    · exact evalLinks_meets links (hfirst.value v hv) hleaves.2 hoperators.2
  | .name _, hleaves, _ | .number _, hleaves, _ | .float _, hleaves, _ | .string _, hleaves, _ =>
    hleaves _ (List.mem_singleton.2 rfl)

theorem evalLinks_meets {v : Value} : (links : List (String × Expr)) → K v →
    (∀ l ∈ linkLeaves links, Meets K E (l.eval env)) →
    (∀ op ∈ linkOperators links, ∀ v w, K v → K w → Meets K E (v.combine op w)) →
      Meets K E (evalLinks env v links)
  | [], hv, _, _ => .of_ok hv
  | (operator, operand) :: links, hv, hleaves, hoperators => by
    simp only [linkLeaves, linkOperators, List.forall_mem_append, List.forall_mem_cons]
      at hleaves hoperators
    obtain ⟨hoperator, hinner, hrest⟩ := hoperators
    have hoperand := operand.eval_meets hleaves.1 hinner
    rw [evalLinks]
    rcases hw : operand.eval env with err | w
    · exact .of_error (hoperand.error err hw)
    · have hcombine := hoperator v w hv (hoperand.value w hw)
      simp only
      rcases hu : v.combine operator w with err | u
      · exact .of_error (hcombine.error err hu)
      · exact evalLinks_meets links (hcombine.value u hu) hleaves.2 hrest

end

/-- The values of arguments have the property that each of them has. -/
theorem evalAll_values {es : List Expr} {vs : List Value} (h : evalAll env es = .ok vs)
    (hes : ∀ e ∈ es, ∀ v, e.eval env = .ok v → K v) : ∀ v ∈ vs, K v := by
  induction es generalizing vs with
  | nil =>
    cases h
    exact nofun
  | cons e es ih =>
    rw [evalAll] at h
    rcases hv : e.eval env with err | v <;> rw [hv] at h
    · cases h
    · rcases hrest : evalAll env es with err | rest <;> rw [hrest] at h <;> cases h
      obtain ⟨he, hes⟩ := List.forall_mem_cons.1 hes
      exact List.forall_mem_cons.2 ⟨he v hv, ih hrest hes⟩

/-- The values of arguments are missing because of the first one without a value. -/
theorem evalAll_error {es : List Expr} {e : RunError} (h : evalAll env es = .error e) :
    ∃ before a after, es = before ++ a :: after ∧ (∀ b ∈ before, ∃ v, b.eval env = .ok v) ∧
      a.eval env = .error e := by
  induction es with
  | nil => cases h
  | cons a es ih =>
    rw [evalAll] at h
    rcases ha : a.eval env with err | v <;> rw [ha] at h
    · cases h
      exact ⟨[], a, es, rfl, nofun, ha⟩
    · rcases hs : evalAll env es with err | vs <;> rw [hs] at h <;> cases h
      obtain ⟨before, b, after, rfl, hbefore, hb⟩ := ih hs
      refine ⟨a :: before, b, after, rfl, ?_, hb⟩
      intro c hc
      rcases List.mem_cons.1 hc with rfl | hc
      · exact ⟨v, ha⟩
      · exact hbefore c hc

end

end MarathiScript
