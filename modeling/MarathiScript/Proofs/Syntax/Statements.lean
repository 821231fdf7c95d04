/-
  MarathiScript.Proofs.Syntax.Statements — statements and blocks as grammars.

  Every statement parser reads the spellings of the statements that begin with its token, as
  long as the parser given to it reads blocks (`reads_statement`). A block is then read by
  induction on the bound of its loop (`reads_statements`); since statements take at least one
  token, the bound plays no role when it covers the tokens ahead (`agree_statements`), and
  `block` reads blocks of any length (`reads_block`).
-/

import MarathiScript.Proofs.Syntax.Grammar

namespace MarathiScript

open Token

/-- The kind of the first token of a statement. -/
def Stmt.starter : Stmt → TokenKind
  | declare _ _ => .declare
  | assign _ _ | call _ _ => .identifier
  | branch _ _ _ => .branch
  | whilst _ _ => .whilst
  | count _ _ _ _ => .count
  | define _ _ _ => .define
  | print _ => .print

theorem Stmt.starter_mem (stmt : Stmt) : stmt.starter ∈ Parse.starters := by
  cases stmt <;> simp [starter, Parse.starters]

theorem Stmt.starts {stmt : Stmt} {used : List Token} (h : Alike used stmt.unparse) :
    ∃ t v, used = t :: v ∧ t.kind = stmt.starter := by
  rcases stmt with _ | _ | ⟨c, yes, _ | no⟩ | _ | _ | _ | _ | _ <;> rw [Stmt.unparse] at h <;>
    exact h.head

namespace Parse

/-- The statements that begin with `k`, and their spellings. -/
def StmtSpelt (k : TokenKind) (stmt : Stmt) (used : List Token) : Prop :=
  stmt.starter = k ∧ stmt.wellFormed = true ∧ Alike used stmt.unparse

abbrev BlockSpelt : Block → List Token → Prop :=
  Spelt (fun block => wellFormed block = true) unparse

/-- Where a block ends: at a closing brace, or at the end of the tokens. -/
def AtEnd (next : Option Token) : Prop := ∀ t, next = some t → t.kind = .rightBrace

/-! ## Declarations, assignments and calls -/

theorem reads_declaration (n : Nat) :
    Reads n declaration
      (Spelt (fun stmt => stmt.starter = .declare ∧ stmt.opens = true) Stmt.clause)
      fun _ => True := by
  have hvalue : ∀ name, Reads n (take .literal >>= fun value =>
      pure (Stmt.declare name (operandOf value)))
      (Built (fun e : Expr => e.isLiteral = true) (.declare name) Expr.unparse) fun _ => True := by
    intro name
    refine (Reads.take .literal).yield.congr (fun stmt used => ?_) fun _ => id
    refine ⟨fun h => ?_, fun h => ?_⟩
    · obtain ⟨t, rfl, ht⟩ := h
      obtain ⟨he, h⟩ := literal_iff.1 ⟨t, rfl, ht⟩
      exact ⟨_, he, rfl, h⟩
    · obtain ⟨e, he, rfl, h⟩ := h
      obtain ⟨t, rfl, ht⟩ := literal_iff.2 ⟨he, h⟩
      exact ⟨t, rfl, ht⟩
  have hname := (reads_text n (k := .identifier) rfl).part fun name =>
    (reads_equals n).part fun _ => hvalue name
  refine ((hname.after_mark (k := .declare) rfl).shorten (Nat.le_succ n)).congr
    (fun stmt used => ?_) fun _ => id
  refine ⟨fun h => ?_, fun h => ?_⟩
  · obtain ⟨⟨name, _, e⟩, ⟨-, -, he⟩, rfl, h⟩ := h
    exact ⟨⟨rfl, he⟩, h⟩
  · obtain ⟨⟨hstart, hopens⟩, h⟩ := h
    cases stmt <;> cases hstart
    exact ⟨(_, (), _), ⟨trivial, trivial, hopens⟩, rfl, h⟩

/-- What follows the name in an assignment or a call, without the semicolon. -/
def tail : Stmt → List Token
  | .assign _ value => written .operator "=" :: value.unparse
  | .call _ arguments =>
    fixed .leftParen :: (commaSeparated Expr.unparse arguments ++ [fixed .rightParen])
  | _ => []

def Assigns (name : String) (stmt : Stmt) : Prop :=
  ∃ e : Expr, e.wellFormed = true ∧ stmt = .assign name e

def Calls (name : String) (stmt : Stmt) : Prop :=
  ∃ arguments : List Expr, (∀ e ∈ arguments, e.wellFormed = true) ∧ stmt = .call name arguments

theorem reads_assignTo (name : String) (n : Nat) :
    Reads n (assignTo name) (Spelt (Assigns name) tail) (NotNext .operator) := by
  have hvalue := (reads_expression n).yield (g := Stmt.assign name)
  refine ((reads_equals n).seq fun _ => hvalue).congr (fun stmt used => ?_) fun _ => id
  refine ⟨fun h => ?_, fun h => ?_⟩
  · obtain ⟨_, u, v, ⟨-, hu⟩, ⟨e, rfl, he, hv⟩, rfl⟩ := h
    exact ⟨⟨e, he, rfl⟩, hu.append hv⟩
  · obtain ⟨⟨e, he, rfl⟩, h⟩ := h
    obtain ⟨t, v, ht, hv, rfl⟩ := Alike.cons_iff.1 h
    exact ⟨(), [t], v, ⟨trivial, .cons ht (.refl _)⟩, ⟨e, rfl, he, hv⟩, rfl⟩

theorem reads_callOf (name : String) (n : Nat) :
    Reads n (callOf name) (Spelt (Calls name) tail) fun _ => True := by
  refine ((reads_arguments n).yield (g := Stmt.call name)).congr (fun stmt used => ?_) fun _ => id
  refine ⟨fun h => ?_, fun h => ?_⟩
  · obtain ⟨arguments, rfl, hgood, h⟩ := h
    exact ⟨⟨arguments, hgood, rfl⟩, h⟩
  · obtain ⟨⟨arguments, hgood, rfl⟩, h⟩ := h
    exact ⟨arguments, rfl, hgood, h⟩

/-- After a name, `=` tells an assignment from a call. -/
theorem reads_tail (name : String) (n : Nat) :
    Reads n (sees .equals >>= fun b => if b = true then assignTo name else callOf name)
      (Spelt (fun stmt => Assigns name stmt ∨ Calls name stmt) tail) (NotNext .operator) := by
  refine (Reads.ite (looks_sees .equals) (reads_assignTo name n) (reads_callOf name n) ?_ ?_).congr
    ?_ fun next hnext => ⟨hnext, trivial⟩
  · intro stmt u rest h _
    obtain ⟨⟨e, -, rfl⟩, h⟩ := h
    obtain ⟨t, v, ht, -, rfl⟩ := Alike.cons_iff.1 h
    simpa [Wanted.admits] using (sign_written_iff rfl).1 ht
  · intro stmt u rest h _
    obtain ⟨⟨arguments, -, rfl⟩, h⟩ := h
    obtain ⟨t, v, ht, -, rfl⟩ := Alike.cons_iff.1 h
    simp [Wanted.admits, (sign_fixed_iff rfl).1 ht]
  · intro stmt used
    simp only [Spelt, or_and_right]

/-- The two kinds of statement that begin with a name end in the same way. -/
theorem named_eq : named = identifier >>= fun name =>
    (sees .equals >>= fun b => if b = true then assignTo name else callOf name) >>= fun stmt =>
      mark .semicolon >>= fun _ => pure stmt := by
  unfold named
  congr 1
  funext name
  rw [bind_assoc]
  congr 1
  funext b
  cases b <;> rfl

theorem reads_named (n : Nat) : Reads n named (StmtSpelt .identifier) fun _ => True := by
  have hsemicolon : ∀ t : Token, t.kind = .semicolon → NotNext .operator (some t) :=
    fun t ht => notNext_of_kind (by simp [ht])
  have hname := (reads_text n (k := .identifier) rfl).part fun name =>
    (reads_tail name n).ended rfl hsemicolon fun stmt => Reads.made stmt
  rw [named_eq]
  refine hname.congr (fun stmt used => ?_) fun _ => id
  refine ⟨fun h => ?_, fun h => ?_⟩
  · obtain ⟨⟨name, s, _⟩, ⟨-, hs, -⟩, rfl, h⟩ := h
    dsimp only at hs h
    rcases hs with ⟨e, he, rfl⟩ | ⟨arguments, hgood, rfl⟩
    · exact ⟨rfl, he, by simpa [Stmt.unparse, Stmt.clause, tail] using h⟩
    · exact ⟨rfl, by simpa [Stmt.wellFormed] using hgood, by simpa [Stmt.unparse, tail] using h⟩
  · obtain ⟨hstart, hgood, h⟩ := h
    cases stmt <;> cases hstart
    · exact ⟨(_, _, ()), ⟨trivial, .inl ⟨_, hgood, rfl⟩, trivial⟩, rfl,
        by simpa [Stmt.unparse, Stmt.clause, tail] using h⟩
    · exact ⟨(_, _, ()), ⟨trivial, .inr ⟨_, by simpa [Stmt.wellFormed] using hgood, rfl⟩, trivial⟩,
        rfl, by simpa [Stmt.unparse, tail] using h⟩

theorem reads_parenthesised_expression (n : Nat) :
    Reads n (parenthesised expression)
      (Spelt (fun e => e.wellFormed = true) fun e =>
        fixed .leftParen :: (e.unparse ++ [fixed .rightParen])) fun _ => True :=
  (reads_expression n).parenthesised fun t ht => notNext_of_kind (by simp [ht])

theorem reads_print (n : Nat) : Reads n print (StmtSpelt .print) fun _ => True := by
  have hvalue := (reads_parenthesised_expression n).ended (k := .semicolon) rfl
    (fun _ _ => trivial) fun value => Reads.made (Stmt.print value)
  refine ((hvalue.after_mark (k := .print) rfl).shorten (Nat.le_succ n)).congr
    (fun stmt used => ?_) fun _ => id
  refine ⟨fun h => ?_, fun h => ?_⟩
  · obtain ⟨⟨e, _⟩, ⟨he, -⟩, rfl, h⟩ := h
    exact ⟨rfl, he, by simpa [Stmt.unparse] using h⟩
  · obtain ⟨hstart, hgood, h⟩ := h
    cases stmt <;> cases hstart
    exact ⟨(_, ()), ⟨hgood, trivial⟩, rfl, by simpa [Stmt.unparse] using h⟩

/-! ## Statements with blocks -/

theorem condition_eq : condition = identifier >>= fun name =>
    Token.lexeme <$> take (.kind .operator) >>= fun operator =>
      Token.lexeme <$> take (.kind .number) >>= fun value => pure ⟨name, operator, value⟩ := by
  simp only [condition, map_eq_pure_bind, bind_assoc, pure_bind]

theorem reads_condition (n : Nat) :
    Reads n condition (Spelt (fun _ => True) Condition.unparse) fun _ => True := by
  have hname := (reads_text n (k := .identifier) rfl).part fun name =>
    (reads_text n (k := .operator) rfl).part fun operator =>
      (reads_text n (k := .number) rfl).part fun value =>
        Reads.made (Condition.mk name operator value)
  rw [condition_eq]
  refine hname.congr (fun c used => ?_) fun _ => id
  refine ⟨fun h => ?_, fun h => ?_⟩
  · obtain ⟨⟨name, operator, value, _⟩, -, rfl, h⟩ := h
    exact ⟨trivial, h⟩
  · obtain ⟨-, h⟩ := h
    exact ⟨(c.name, c.operator, c.value, ()), ⟨trivial, trivial, trivial, trivial⟩, rfl, h⟩

theorem reads_opening (n : Nat) :
    Reads n opening
      (Spelt (fun init => init.all Stmt.opens = true) fun init => (init.map Stmt.clause).getD [])
      (Next .semicolon) := by
  have hdeclare := (reads_declaration n).map (g := some)
  have hassign := (reads_text n (k := .identifier) rfl).seq fun name =>
    (reads_assignTo name n).map (g := some)
  have hnone : Reads n (pure none) (fun init used => init = (none : Option Stmt) ∧ used = [])
      (Next .semicolon) := Reads.pure none
  have hinner := Reads.ite (looks_sees (.kind .identifier)) hassign hnone
    (by
      intro init u rest h _
      obtain ⟨name, v, w, ⟨-, hv⟩, -, rfl⟩ := h
      obtain ⟨t, v, rfl, ht⟩ := hv.head
      simp [Wanted.admits, ht, written])
    (by
      intro init u rest h h'
      obtain ⟨rfl, rfl⟩ := h
      obtain ⟨t, hnext, ht⟩ := h'
      rw [List.nil_append, hnext]
      simp [Wanted.admits, ht])
  refine (Reads.ite (looks_sees (.kind .declare)) hdeclare hinner ?_ ?_).congr ?_ ?_
  · intro init u rest h _
    obtain ⟨stmt, rfl, ⟨hstart, -⟩, h⟩ := h
    cases stmt <;> cases hstart
    obtain ⟨t, v, rfl, ht⟩ := h.head
    simp [Wanted.admits, ht, fixed]
  · intro init u rest h h'
    obtain ⟨-, t, hnext, ht⟩ := h'
    rcases h with ⟨name, v, w, ⟨-, hv⟩, -, rfl⟩ | ⟨rfl, rfl⟩
    · obtain ⟨t, v, rfl, ht⟩ := hv.head
      simp [Wanted.admits, ht, written]
    · rw [List.nil_append, hnext]
      simp [Wanted.admits, ht]
  · intro init used
    refine ⟨fun h => ?_, fun h => ?_⟩
    · rcases h with ⟨stmt, rfl, ⟨-, hopens⟩, h⟩ | ⟨name, v, w, ⟨-, hv⟩, h, rfl⟩ | ⟨rfl, rfl⟩
      · exact ⟨hopens, h⟩
      · obtain ⟨stmt, rfl, ⟨e, he, rfl⟩, hw⟩ := h
        exact ⟨he, hv.append hw⟩
      · exact ⟨rfl, .refl _⟩
    · obtain ⟨hopens, h⟩ := h
      rcases init with _ | stmt
      · exact .inr (.inr ⟨rfl, Alike.nil_iff.1 h⟩)
      cases stmt <;> try cases hopens
      · exact .inl ⟨_, rfl, ⟨rfl, hopens⟩, h⟩
      · obtain ⟨t, v, ht, hv, rfl⟩ := Alike.cons_iff.1 h
        exact .inr (.inl ⟨_, [t], v, ⟨trivial, .cons ht (.refl _)⟩,
          ⟨_, rfl, ⟨_, hopens, rfl⟩, hv⟩, rfl⟩)
  · intro next hnext
    obtain ⟨t, rfl, ht⟩ := hnext
    exact ⟨trivial, notNext_of_kind (by simp [ht]), t, rfl, ht⟩

section Blocks

variable {n : Nat} {inner : Parse Block}

theorem reads_braced (hinner : Reads n inner BlockSpelt AtEnd) :
    Reads n (braced inner)
      (Spelt (fun block => wellFormed block = true) fun block =>
        fixed .leftBrace :: (unparse block ++ [fixed .rightBrace])) fun _ => True :=
  hinner.between rfl rfl fun t ht u hu => by cases hu; exact ht

theorem reads_define (hinner : Reads n inner BlockSpelt AtEnd) :
    Reads (n + 1) (define inner) (StmtSpelt .define) fun _ => True := by
  have hname := (reads_text n (k := .identifier) rfl).part fun name =>
    (reads_parameters n).part fun parameters =>
      (reads_braced hinner).part fun body =>
        Reads.made (Stmt.define name parameters body)
  refine (hname.after_mark (k := .define) rfl).congr (fun stmt used => ?_) fun _ => id
  refine ⟨fun h => ?_, fun h => ?_⟩
  · obtain ⟨⟨name, parameters, body, _⟩, ⟨-, -, hbody, -⟩, rfl, h⟩ := h
    exact ⟨rfl, hbody, by simpa [Stmt.unparse] using h⟩
  · obtain ⟨hstart, hgood, h⟩ := h
    cases stmt <;> cases hstart
    exact ⟨(_, _, _, ()), ⟨trivial, trivial, hgood, trivial⟩, rfl, by simpa [Stmt.unparse] using h⟩

theorem reads_whilst (hinner : Reads n inner BlockSpelt AtEnd) :
    Reads (n + 1) (whilst inner) (StmtSpelt .whilst) fun _ => True := by
  have htest := (reads_parenthesised_expression n).part fun test =>
    (reads_braced hinner).part fun body =>
      Reads.made (Stmt.whilst test body)
  refine (htest.after_mark (k := .whilst) rfl).congr (fun stmt used => ?_) fun _ => id
  refine ⟨fun h => ?_, fun h => ?_⟩
  · obtain ⟨⟨test, body, _⟩, ⟨htest, hbody, -⟩, rfl, h⟩ := h
    exact ⟨rfl, by simp [Stmt.wellFormed, htest, hbody], by simpa [Stmt.unparse] using h⟩
  · obtain ⟨hstart, hgood, h⟩ := h
    cases stmt <;> cases hstart
    simp only [Stmt.wellFormed, Bool.and_eq_true] at hgood
    exact ⟨(_, _, ()), ⟨hgood.1, hgood.2, trivial⟩, rfl, by simpa [Stmt.unparse] using h⟩

/-- What follows the first block of a branch. -/
def alternativeText (alternative : Option Block) : List Token :=
  (alternative.map fun block => fixed .otherwise :: fixed .leftBrace ::
    (unparse block ++ [fixed .rightBrace])).getD []

theorem reads_alternative (hinner : Reads n inner BlockSpelt AtEnd) (test : Condition)
    (consequence : Block) :
    Reads n (sees (.kind .otherwise) >>= fun b => if b = true then
        mark .otherwise >>= fun _ => braced inner >>= fun alternative =>
          pure (Stmt.branch test consequence (some alternative))
      else pure (Stmt.branch test consequence none))
      (Built (fun alternative : Option Block => alternative.all wellFormed = true)
        (.branch test consequence) alternativeText) (NotNext .otherwise) := by
  have hsome := (((reads_braced hinner).part fun alternative =>
    Reads.made (Stmt.branch test consequence (some alternative))).after_mark (k := .otherwise)
      rfl).shorten (Nat.le_succ n)
  have hnone : Reads n (pure (Stmt.branch test consequence none))
      (fun stmt used => stmt = Stmt.branch test consequence none ∧ used = [])
      (NotNext .otherwise) := Reads.pure _
  refine (Reads.ite (looks_sees (.kind .otherwise)) hsome hnone ?_ ?_).congr ?_
    fun next hnext => ⟨trivial, hnext⟩
  · intro stmt u rest h _
    obtain ⟨i, -, rfl, h⟩ := h
    obtain ⟨t, v, rfl, ht⟩ := h.head
    simp [Wanted.admits, ht, fixed]
  · intro stmt u rest h hnext
    obtain ⟨rfl, rfl⟩ := h
    rcases rest with _ | ⟨t, rest⟩
    · rfl
    · simpa [Wanted.admits] using hnext t rfl
  · intro stmt used
    refine ⟨fun h => ?_, fun h => ?_⟩
    · rcases h with ⟨⟨block, _⟩, ⟨hblock, -⟩, rfl, h⟩ | ⟨rfl, rfl⟩
      · exact ⟨some block, hblock, rfl, by simpa [alternativeText] using h⟩
      · exact ⟨none, rfl, rfl, .refl _⟩
    · rcases h with ⟨_ | block, hblock, rfl, h⟩
      · exact .inr ⟨rfl, Alike.nil_iff.1 h⟩
      · exact .inl ⟨(block, ()), ⟨hblock, trivial⟩, rfl, by simpa [alternativeText] using h⟩

theorem reads_branch (hinner : Reads n inner BlockSpelt AtEnd) :
    Reads (n + 1) (branch inner) (StmtSpelt .branch) (NotNext .otherwise) := by
  have htest := ((reads_condition n).parenthesised fun _ _ => trivial).part fun test =>
    (reads_braced hinner).part fun consequence => reads_alternative hinner test consequence
  refine (htest.after_mark (k := .branch) rfl).congr (fun stmt used => ?_) fun _ => id
  refine ⟨fun h => ?_, fun h => ?_⟩
  · obtain ⟨⟨test, consequence, alternative⟩, ⟨-, hyes, hno⟩, rfl, h⟩ := h
    cases alternative with
    | none => exact ⟨rfl, hyes, by simpa [Stmt.unparse, alternativeText] using h⟩
    | some block =>
      refine ⟨rfl, ?_, by simpa [Stmt.unparse, alternativeText] using h⟩
      have hno : wellFormed block = true := hno
      simp [Stmt.wellFormed, hyes, hno]
  · obtain ⟨hstart, hgood, h⟩ := h
    rcases stmt with _ | _ | ⟨test, consequence, _ | block⟩ | _ | _ | _ | _ | _ <;> cases hstart
    · exact ⟨(_, _, none), ⟨trivial, hgood, rfl⟩, rfl,
        by simpa [Stmt.unparse, alternativeText] using h⟩
    · simp only [Stmt.wellFormed, Bool.and_eq_true] at hgood
      exact ⟨(_, _, some block), ⟨trivial, hgood.1, hgood.2⟩, rfl,
        by simpa [Stmt.unparse, alternativeText] using h⟩

theorem reads_count (hinner : Reads n inner BlockSpelt AtEnd) :
    Reads (n + 1) (count inner) (StmtSpelt .count) fun _ => True := by
  have hstep := fun (init : Option Stmt) (test : Expr) =>
    (reads_text n (k := .identifier) rfl).part fun name =>
      (reads_assignTo name n).ended (k := .rightParen) rfl
        (fun t ht => notNext_of_kind (by simp [ht])) fun step =>
          (reads_braced hinner).part fun body => Reads.made (Stmt.count init test step body)
  have hinit := (reads_opening n).ended (k := .semicolon) rfl (fun t ht => ⟨t, rfl, ht⟩) fun init =>
    (reads_expression n).ended (k := .semicolon) rfl (fun t ht => notNext_of_kind (by simp [ht]))
      fun test => hstep init test
  refine (((hinit.after_mark (k := .leftParen) rfl).shorten (Nat.le_succ n)).after_mark
    (k := .count) rfl).congr (fun stmt used => ?_) fun _ => id
  refine ⟨fun h => ?_, fun h => ?_⟩
  · obtain ⟨⟨init, test, name, step, body, _⟩, ⟨hinit, htest, -, hstep, hbody, -⟩, rfl, h⟩ := h
    dsimp only at hstep h
    obtain ⟨e, he, rfl⟩ := hstep
    refine ⟨rfl, ?_, by simpa [Stmt.unparse, Stmt.clause, tail] using h⟩
    simp only [Stmt.wellFormed, Bool.and_eq_true]
    exact ⟨⟨⟨hinit, htest⟩, he⟩, hbody⟩
  · obtain ⟨hstart, hgood, h⟩ := h
    cases stmt with
    | count init test step body =>
      simp only [Stmt.wellFormed, Bool.and_eq_true] at hgood
      obtain ⟨⟨⟨hinit, htest⟩, hstep⟩, hbody⟩ := hgood
      cases step <;> try cases hstep
      exact ⟨(init, test, _, _, body, ()), ⟨hinit, htest, trivial, ⟨_, hstep, rfl⟩, hbody, trivial⟩,
        rfl, by simpa [Stmt.unparse, Stmt.clause, tail] using h⟩
    | _ => cases hstart

theorem reads_declare (n : Nat) :
    Reads n (declaration >>= fun stmt => mark .semicolon >>= fun _ => pure stmt)
      (StmtSpelt .declare) fun _ => True := by
  refine ((reads_declaration n).ended (k := .semicolon) rfl (fun _ _ => trivial)
    fun stmt => Reads.made stmt).congr (fun stmt used => ?_) fun _ => id
  refine ⟨fun h => ?_, fun h => ?_⟩
  · obtain ⟨⟨stmt, _⟩, ⟨⟨hstart, hopens⟩, -⟩, rfl, h⟩ := h
    cases stmt <;> cases hstart
    exact ⟨rfl, hopens, by simpa [Stmt.unparse] using h⟩
  · obtain ⟨hstart, hgood, h⟩ := h
    cases stmt with
    | declare name value =>
      exact ⟨(.declare name value, ()), ⟨⟨rfl, hgood⟩, trivial⟩, rfl,
        by simpa [Stmt.unparse] using h⟩
    | _ => cases hstart

/-- A statement may be followed by anything but the rest of a branch. -/
theorem reads_statement (hinner : Reads n inner BlockSpelt AtEnd) :
    Reads (n + 1) (statement inner) (Spelt (fun stmt => stmt.wellFormed = true) Stmt.unparse)
      (NotNext .otherwise) := by
  have hstop {p : Parse Stmt} {S : Stmt → List Token → Prop}
      (h : Reads (n + 1) p S fun _ => True) : Reads (n + 1) p S (NotNext .otherwise) :=
    h.congr (fun _ _ => Iff.rfl) fun _ _ => trivial
  refine (Reads.dispatch (S := StmtSpelt) (fun k hk => ?_) ?_).congr (fun stmt used => ?_) fun _ => id
  · simp only [starters, List.mem_cons, List.not_mem_nil, or_false] at hk
    rcases hk with rfl | rfl | rfl | rfl | rfl | rfl | rfl
    · exact hstop (reads_declare _)
    · exact hstop (reads_print _)
    · exact hstop (reads_count hinner)
    · exact reads_branch hinner
    · exact hstop (reads_whilst hinner)
    · exact hstop (reads_define hinner)
    · exact hstop (reads_named _)
  · intro k stmt used h
    obtain ⟨rfl, -, h⟩ := h
    exact Stmt.starts h
  · refine ⟨fun h => ?_, fun h => ?_⟩
    · obtain ⟨k, -, -, hgood, h⟩ := h
      exact ⟨hgood, h⟩
    · obtain ⟨hgood, h⟩ := h
      exact ⟨_, stmt.starter_mem, rfl, hgood, h⟩

end Blocks

/-! ## Blocks -/

theorem starts_block {block : Block} {used : List Token} (h : Alike used (unparse block)) :
    block = [] ∧ used = [] ∨ ∃ t v, used = t :: v ∧ t.kind ∈ starters := by
  cases block with
  | nil => exact .inl ⟨rfl, Alike.nil_iff.1 h⟩
  | cons stmt block =>
    obtain ⟨u, v, hu, -, rfl⟩ := Alike.append_iff.1 h
    obtain ⟨t, u, rfl, ht⟩ := Stmt.starts hu
    exact .inr ⟨t, u ++ v, rfl, by rw [ht]; exact stmt.starter_mem⟩

theorem AtEnd.notNext {k : TokenKind} {next : Option Token} (h : AtEnd next)
    (hk : k ≠ .rightBrace) : NotNext k next := by
  intro t ht h
  subst h
  exact hk (h t ht)

def endsBlock (next : Option Token) : Bool := next.all (·.kind == .rightBrace)

theorem looks_atEnd : Looks atEnd endsBlock := by
  intro h
  rcases h with ⟨_ | ⟨t, rest⟩, begun⟩
  · exact ⟨begun, rfl⟩
  · exact ⟨begun, rfl⟩

/-- The statements after those `read`, as many as the bound has tokens. -/
theorem reads_statements (bound : List Token) (read : List Stmt) :
    Reads bound.length (statements bound read)
      (fun block used => ∃ more, block = read.reverse ++ more ∧ BlockSpelt more used) AtEnd := by
  induction bound generalizing read with
  | nil =>
    refine (Reads.pure read.reverse).widen ?_ ?_ fun _ => id
    · intro block used h
      obtain ⟨rfl, rfl⟩ := h
      exact ⟨[], by simp, rfl, .refl _⟩
    · intro block used hn h
      obtain ⟨more, rfl, -, hmore⟩ := h
      cases List.eq_nil_of_length_eq_zero (Nat.le_zero.1 hn)
      rcases starts_block hmore with ⟨rfl, -⟩ | ⟨t, v, h, -⟩
      · exact ⟨by simp, rfl⟩
      · cases h
  | cons t bound ih =>
    have hinner : Reads bound.length (statements bound []) BlockSpelt AtEnd :=
      (ih []).congr (by simp) fun _ => id
    have hmore := (reads_statement hinner).bind (fun stmt => ih (stmt :: read))
      (by
        intro stmt u h
        obtain ⟨-, hu⟩ := h
        obtain ⟨t, u, rfl, -⟩ := Stmt.starts hu
        simp)
      (by
        intro stmt u block v rest _ h hnext
        obtain ⟨more, -, -, hv⟩ := h
        rcases starts_block hv with ⟨-, rfl⟩ | ⟨t, v, rfl, ht⟩
        · exact hnext.notNext (by decide)
        · refine notNext_of_kind fun hk => ?_
          rw [hk] at ht
          revert ht
          decide)
    have hnone : Reads (bound.length + 1) (pure read.reverse)
        (fun block used => block = read.reverse ∧ used = []) AtEnd := Reads.pure _
    refine (Reads.ite looks_atEnd hnone hmore ?_ ?_).congr ?_ fun next hnext => ⟨hnext, hnext⟩
    · intro block u rest h hnext
      obtain ⟨-, rfl⟩ := h
      rcases rest with _ | ⟨t, rest⟩
      · rfl
      · simpa [endsBlock] using hnext t rfl
    · intro block u rest h _
      obtain ⟨stmt, u, v, ⟨-, hu⟩, -, rfl⟩ := h
      obtain ⟨t, u, rfl, ht⟩ := Stmt.starts hu
      cases stmt <;> simp [endsBlock, ht, Stmt.starter]
    · intro block used
      refine ⟨fun h => ?_, fun h => ?_⟩
      · rcases h with ⟨rfl, rfl⟩ | ⟨stmt, u, v, ⟨hstmt, hu⟩, ⟨more, rfl, hgood, hv⟩, rfl⟩
        · exact ⟨[], by simp, rfl, .refl _⟩
        · refine ⟨stmt :: more, by simp, ?_, hu.append hv⟩
          show (stmt.wellFormed && wellFormed more) = true
          rw [hstmt, hgood]
          rfl
      · rcases h with ⟨_ | ⟨stmt, more⟩, rfl, hgood, h⟩
        · exact .inl ⟨by simp, Alike.nil_iff.1 h⟩
        · obtain ⟨hstmt, hmore⟩ := Bool.and_eq_true_iff.1 hgood
          obtain ⟨u, v, hu, hv, rfl⟩ := Alike.append_iff.1 h
          exact .inr ⟨stmt, u, v, ⟨hstmt, hu⟩, ⟨more, by simp, hmore, hv⟩, rfl⟩

theorem reads_statements_nil (bound : List Token) :
    Reads bound.length (statements bound []) BlockSpelt AtEnd :=
  (reads_statements bound []).congr (by simp) fun _ => id

/-! ### The bound -/

section Bound

variable {n : Nat} {inner inner' : Parse Block}

theorem agree_braced (h : Agree n inner inner') : Agree n (braced inner) (braced inner') :=
  (Agree.after_mark h.left).mono (Nat.le_succ n)

theorem agree_define (h : Agree n inner inner') : Agree (n + 1) (define inner) (define inner') :=
  .after_mark <| .after (reads_text 0 rfl) fun _ => .after (reads_parameters 0) fun _ =>
    (agree_braced h).left

theorem agree_whilst (h : Agree n inner inner') : Agree (n + 1) (whilst inner) (whilst inner') :=
  .after_mark <| .after (reads_parenthesised_expression 0) fun _ => (agree_braced h).left

theorem agree_count (h : Agree n inner inner') : Agree (n + 1) (count inner) (count inner') :=
  .after_mark <| .after (Reads.mark rfl) fun _ => .after (reads_opening 0) fun _ =>
    .after (Reads.mark rfl) fun _ => .after (reads_expression 0) fun _ =>
      .after (Reads.mark rfl) fun _ => .after (reads_text 0 rfl) fun name =>
        .after (reads_assignTo name 0) fun _ => .after (Reads.mark rfl) fun _ =>
          (agree_braced h).left

theorem agree_branch (hinner : Reads 0 inner BlockSpelt AtEnd) (h : Agree n inner inner') :
    Agree (n + 1) (branch inner) (branch inner') := by
  have hbraced := agree_braced h
  refine .after_mark <| .after ((reads_condition 0).parenthesised fun _ _ => trivial) fun test =>
    .bind (m := n) hbraced (fun r block r' hr hblock => ?_) fun consequence =>
      .bind (m := n) (fun _ _ => rfl) (fun r b r' hr hb => ?_) fun b => ?_
  · have := (reads_braced hinner).length_le (fun _ _ _ => Nat.zero_le _) hblock
    omega
  · cases hb
    exact hr
  · cases b
    · exact fun _ _ => rfl
    · exact .after (Reads.mark rfl) fun _ => hbraced.left

theorem agree_statement (hinner : Reads 0 inner BlockSpelt AtEnd) (h : Agree n inner inner') :
    Agree (n + 1) (statement inner) (statement inner') := by
  refine Agree.bind (m := n + 1) (fun _ _ => rfl) (fun r k r' hr hk => ?_) fun k => ?_
  · unfold begin at hk
    split at hk
    · cases hk
    · split at hk <;> cases hk
      simpa [*] using hr
  · cases k
    case define => exact agree_define h
    case branch => exact agree_branch hinner h
    case whilst => exact agree_whilst h
    case count => exact agree_count h
    all_goals exact fun _ _ => rfl

end Bound

theorem agree_statements (bound bound' : List Token) (read : List Stmt)
    (h : bound.length ≤ bound'.length) :
    Agree bound.length (statements bound read) (statements bound' read) := by
  have hend (b : List Token) (read : List Stmt) (r : Reader) (hr : r.ahead = []) :
      statements b read r = .ok read.reverse r := by
    cases b with
    | nil => rfl
    | cons t b => simp [statements, bind_run, atEnd, hr]; rfl
  induction bound generalizing bound' read with
  | nil =>
    intro r hr
    have hr : r.ahead = [] := List.eq_nil_of_length_eq_zero (Nat.le_zero.1 hr)
    rw [hend _ _ _ hr, hend _ _ _ hr]
  | cons t bound ih =>
    rcases bound' with _ | ⟨t', bound'⟩
    · simp at h
    have hlen : bound.length ≤ bound'.length := by simpa using h
    have hinner := reads_statements_nil bound
    refine Agree.bind (m := bound.length + 1) (fun _ _ => rfl) (fun r b r' hr hb => ?_) fun b => ?_
    · obtain ⟨begun, hq⟩ := looks_atEnd r
      rw [hq] at hb
      cases hb
      exact hr
    rcases b with _ | _
    · refine Agree.bind (m := bound.length)
        (agree_statement (hinner.shorten (Nat.zero_le _)) (ih _ _ hlen))
        (fun r stmt r' hr hstmt => ?_) fun stmt => ih _ _ hlen
      have := (reads_statement hinner).length_le (k := 1) (by
        intro stmt u h
        obtain ⟨-, hu⟩ := h
        obtain ⟨t, u, rfl, -⟩ := Stmt.starts hu
        simp) hstmt
      omega
    · exact fun _ _ => rfl

/-- A block of any length, up to a closing brace or the end of the tokens. -/
theorem reads_block (n : Nat) : Reads n block BlockSpelt AtEnd :=
  Reads.of_bound reads_statements_nil (fun bound bound' => agree_statements bound bound' []) n

end Parse

end MarathiScript
