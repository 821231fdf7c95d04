/-
  MarathiScript.Proofs.Syntax.Lexemes — the literals and operators of a program are lexemes.

  What the step of a statement evaluates is spelt by tokens of its own (`Stmt.evaluated`): those of
  its expressions, or of its condition. In a well-formed block the tokens of every statement are
  among those that spell the block, at every depth and in the bodies of functions
  (`evaluated_subset`). A token that is read from a source has the form of its kind, and the
  grammar keeps its lexeme, so in a program that a source spells every literal and every operator
  has the form of one (`Spells.formed`), wherever it stands.
-/

import MarathiScript.Proofs.Sequence
import MarathiScript.Proofs.Run.Code
import MarathiScript.Proofs.Run.Failures

namespace MarathiScript

open Token

/-! ## What a statement evaluates -/

/-- The condition of a branch. -/
def Stmt.conditions : Stmt → List Condition
  | .branch condition _ _ => [condition]
  | _ => []

/-- The tokens that spell what the step of a statement evaluates. -/
def Stmt.evaluated (stmt : Stmt) : List Token :=
  stmt.expressions.flatMap (·.unparse) ++ stmt.conditions.flatMap (·.unparse)

theorem mem_commaSeparated {α : Type} {text : α → List Token} {items : List α} {t : Token}
    (h : t ∈ items.flatMap text) : t ∈ commaSeparated text items := by
  cases items with
  | nil => exact h
  | cons a others =>
    rw [List.flatMap_cons, List.mem_append] at h
    rcases h with h | h
    · exact List.mem_append_left _ h
    · obtain ⟨b, hb, ht⟩ := List.mem_flatMap.1 h
      exact List.mem_append_right _ (List.mem_flatMap.2 ⟨b, hb, .tail _ ht⟩)

/-- What opens a loop, or steps, has nothing but its clause. -/
theorem Stmt.evaluated_clause {stmt : Stmt} (h : stmt.opens = true) :
    stmt.inside = [] ∧ stmt.evaluated ⊆ stmt.clause := by
  cases stmt with
  | declare name value | assign name value =>
    refine ⟨by rw [inside], fun t ht => ?_⟩
    have hvalue : t ∈ value.unparse := by simpa [evaluated, expressions, conditions] using ht
    simp [clause, hvalue]
  | _ => cases h

theorem Stmt.opens_of_steps {stmt : Stmt} (h : stmt.steps = true) : stmt.opens = true := by
  cases stmt with
  | assign name value => exact h
  | _ => cases h

/-- A statement is spelt with the tokens of what it evaluates. -/
theorem Stmt.evaluated_unparse (stmt : Stmt) : stmt.evaluated ⊆ stmt.unparse := by
  intro t ht
  rw [evaluated, List.mem_append] at ht
  cases stmt with
  | declare _ value | assign _ value | print value | whilst value | count _ value =>
    have hvalue : t ∈ value.unparse := by simpa [expressions, conditions] using ht
    simp [unparse, clause, hvalue]
  | branch c consequence alternative =>
    have hcondition : t ∈ c.unparse := by simpa [expressions, conditions] using ht
    cases alternative <;> simp [unparse, hcondition]
  | define => simp [expressions, conditions] at ht
  | call name arguments =>
    have harguments : t ∈ arguments.flatMap (·.unparse) := by
      simpa [expressions, conditions] using ht
    simp [unparse, mem_commaSeparated harguments]

mutual

theorem Stmt.inside_subset : (stmt : Stmt) → stmt.wellFormed = true →
    ∀ inner ∈ stmt.inside, inner.evaluated ⊆ stmt.unparse
  | .branch c consequence none, h => by
    rw [Stmt.wellFormed] at h
    have hyes := evaluated_subset consequence h
    intro inner hinner t ht
    rw [Stmt.inside] at hinner
    simp [Stmt.unparse, hyes inner hinner ht]
  | .branch c consequence (some alternative), h => by
    rw [Stmt.wellFormed, Bool.and_eq_true] at h
    have hyes := evaluated_subset consequence h.1
    have hno := evaluated_subset alternative h.2
    intro inner hinner t ht
    rw [Stmt.inside, List.mem_append] at hinner
    rcases hinner with hinner | hinner
    · simp [Stmt.unparse, hyes inner hinner ht]
    · simp [Stmt.unparse, hno inner hinner ht]
  | .whilst test body, h => by
    rw [Stmt.wellFormed, Bool.and_eq_true] at h
    have hbody := evaluated_subset body h.2
    intro inner hinner t ht
    rw [Stmt.inside] at hinner
    simp [Stmt.unparse, hbody inner hinner ht]
  | .count none test step body, h => by
    simp only [Stmt.wellFormed, Bool.and_eq_true] at h
    have hbody := evaluated_subset body h.2
    obtain ⟨hinside, hstep⟩ := Stmt.evaluated_clause (Stmt.opens_of_steps h.1.2)
    intro inner hinner t ht
    rw [Stmt.inside, hinside, List.singleton_append, List.mem_cons] at hinner
    rcases hinner with rfl | hinner
    · simp [Stmt.unparse, hstep ht]
    · simp [Stmt.unparse, hbody inner hinner ht]
  | .count (some init) test step body, h => by
    simp only [Stmt.wellFormed, Bool.and_eq_true] at h
    have hbody := evaluated_subset body h.2
    obtain ⟨hinside, hstep⟩ := Stmt.evaluated_clause (Stmt.opens_of_steps h.1.2)
    have hopens : init.opens = true := h.1.1.1
    obtain ⟨hinside', hinit⟩ := Stmt.evaluated_clause hopens
    intro inner hinner t ht
    rw [Stmt.inside, hinside, hinside', List.singleton_append, List.singleton_append, List.mem_cons,
      List.mem_cons, List.mem_cons] at hinner
    rcases hinner with rfl | rfl | rfl | hinner
    · simp [Stmt.unparse, hinit ht]
    · -- without its opening statement the loop evaluates what it does with it
      have htest : t ∈ test.unparse := by simpa [Stmt.evaluated, Stmt.expressions, Stmt.conditions] using ht
      simp [Stmt.unparse, htest]
    · simp [Stmt.unparse, hstep ht]
    · simp [Stmt.unparse, hbody inner hinner ht]
  | .define _ _ body, h => by
    rw [Stmt.wellFormed] at h
    have hbody := evaluated_subset body h
    intro inner hinner t ht
    rw [Stmt.inside] at hinner
    simp [Stmt.unparse, hbody inner hinner ht]
  | .declare _ _, _ | .assign _ _, _ | .call _ _, _ | .print _, _ => by
    rw [Stmt.inside]
    exact nofun

/-- The tokens of what is evaluated anywhere in a block are among those that spell the block. -/
theorem evaluated_subset : (block : Block) → wellFormed block = true →
    ∀ stmt ∈ code block, stmt.evaluated ⊆ unparse block
  | [], _ => by simp
  | stmt :: block, h => by
    rw [wellFormed, Bool.and_eq_true] at h
    have hinside := stmt.inside_subset h.1
    have hblock := evaluated_subset block h.2
    intro inner hinner
    rw [code_cons, List.mem_cons, List.mem_append] at hinner
    rw [unparse]
    rcases hinner with rfl | hinner | hinner
    · exact List.subset_append_of_subset_left _ (Stmt.evaluated_unparse _)
    · exact List.subset_append_of_subset_left _ (hinside inner hinner)
    · exact List.subset_append_of_subset_right _ (hblock inner hinner)

end

mutual

/-- A name or a literal of an expression is a token of it. -/
theorem Expr.leaves_unparse : (e : Expr) → ∀ l ∈ e.leaves, l.unparse ⊆ e.unparse
  | .chain first links => by
    rw [Expr.leaves, Expr.unparse, List.forall_mem_append]
    exact ⟨fun l hl => List.subset_append_of_subset_left _ (first.leaves_unparse l hl),
      fun l hl => List.subset_append_of_subset_right _ (linkLeaves_unparse links l hl)⟩
  | .name _ | .number _ | .float _ | .string _ => fun l hl => by
    cases List.mem_singleton.1 hl
    exact List.Subset.refl _

theorem linkLeaves_unparse :
    (links : List (String × Expr)) → ∀ l ∈ linkLeaves links, l.unparse ⊆ unparseLinks links
  | [] => nofun
  | (_, operand) :: links => by
    rw [linkLeaves, unparseLinks, List.forall_mem_append]
    exact ⟨fun l hl => List.subset_cons_of_subset _
        (List.subset_append_of_subset_left _ (operand.leaves_unparse l hl)),
      fun l hl => List.subset_cons_of_subset _
        (List.subset_append_of_subset_right _ (linkLeaves_unparse links l hl))⟩

end

mutual

theorem Expr.operators_unparse : (e : Expr) → ∀ op ∈ e.operators, written .operator op ∈ e.unparse
  | .chain first links => by
    rw [Expr.operators, Expr.unparse, List.forall_mem_append]
    exact ⟨fun op hop => List.mem_append_left _ (first.operators_unparse op hop),
      fun op hop => List.mem_append_right _ (linkOperators_unparse links op hop)⟩
  | .name _ | .number _ | .float _ | .string _ => nofun

theorem linkOperators_unparse :
    (links : List (String × Expr)) → ∀ op ∈ linkOperators links, written .operator op ∈ unparseLinks links
  | [] => nofun
  | (operator, operand) :: links => by
    rw [linkOperators, unparseLinks, List.forall_mem_cons, List.forall_mem_append]
    exact ⟨.head _, fun op hop => .tail _ (List.mem_append_left _ (operand.operators_unparse op hop)),
      fun op hop => .tail _ (List.mem_append_right _ (linkOperators_unparse links op hop))⟩

end

/-! ## The forms of tokens -/

/-- The tokens have the forms of their kinds, as far as the grammar looks at their lexemes. -/
def Formed (ts : List Token) : Prop :=
  ∀ t ∈ ts, t.kind.hasText = true → t.kind.Admits t.lexeme.toList

theorem Formed.subset {ts us : List Token} (h : Formed us) (hsub : ts ⊆ us) : Formed ts :=
  fun t ht => h t (hsub ht)

/-- What the grammar cannot tell apart has the same forms. -/
theorem Formed.alike {ts us : List Token} (h : Formed ts) (halike : Alike ts us) : Formed us := by
  intro u hu htext
  have hsign : u.sign ∈ ts.map Token.sign := halike ▸ List.mem_map_of_mem hu
  obtain ⟨t, ht, hsame⟩ := List.mem_map.1 hsign
  obtain ⟨hkind, hlexeme⟩ := sign_eq_iff.1 hsame
  rw [← hkind] at htext ⊢
  rw [← hlexeme htext]
  exact h t ht htext

/-- Every token that is read has the form of its kind. -/
theorem scan_admits {source : String} {ts : List Token} (h : scan source = .ok ts) :
    ∀ t ∈ ts, t.kind.Admits t.lexeme.toList := by
  obtain ⟨first, placed, rfl, hlayout⟩ := scan_layout h
  intro t ht
  obtain ⟨⟨t, blanks⟩, hmem, rfl⟩ := List.mem_map.1 ht
  obtain ⟨before, after, hplaced⟩ := List.append_of_mem hmem
  exact (hlayout.token before t blanks after hplaced).2.1

/-- Whatever is evaluated in a program that a source spells is made of lexemes. -/
theorem Spells.formed {source : String} {program : Block} (h : Spells source program) :
    ∀ stmt ∈ code program, Formed stmt.evaluated := by
  obtain ⟨ts, hscan, hparse⟩ := h
  obtain ⟨hgood, halike⟩ := spelt_of_parse hparse
  have hprogram : Formed (unparse program) :=
    Formed.alike (fun t ht _ => scan_admits hscan t ht) halike
  exact fun stmt hstmt => hprogram.subset (evaluated_subset program hgood stmt hstmt)

namespace Formed

variable {stmt : Stmt} (h : Formed stmt.evaluated)

include h

theorem expression {e : Expr} (he : e ∈ stmt.expressions) : Formed e.unparse :=
  h.subset fun _ ht => List.mem_append_left _ (List.mem_flatMap.2 ⟨e, he, ht⟩)

theorem condition {c : Condition} (hc : c ∈ stmt.conditions) : Formed c.unparse :=
  h.subset fun _ ht => List.mem_append_right _ (List.mem_flatMap.2 ⟨c, hc, ht⟩)

end Formed

end MarathiScript
