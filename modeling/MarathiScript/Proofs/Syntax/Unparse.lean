/-
  MarathiScript.Proofs.Syntax.Unparse — the tokens that spell a program.

  `unparse` writes a block by the grammar: every keyword and mark in its place, and the names,
  literals and operators of the block as they are. The grammar sees less of a token than
  there is: its kind, and its lexeme where that is not fixed by the kind (`Token.sign`); two
  token lists that it cannot tell apart are `Alike`. Not every block has a spelling. The
  blocks that have one are `wellFormed`:
  - a declaration takes a literal;
  - a loop is opened by a declaration or an assignment, if by anything, and steps by an
    assignment;
  - an operand is no chain, and a chain has a link.
-/

import MarathiScript.Program
import MarathiScript.Token

namespace MarathiScript

/-! ## Tokens -/

namespace TokenKind

/-- The kinds whose tokens differ in their lexemes. -/
def hasText : TokenKind → Bool
  | identifier | number | float | string | operator => true
  | _ => false

/-- The lexeme of the other kinds. -/
def word (k : TokenKind) : String :=
  match k with
  | leftParen => "("
  | rightParen => ")"
  | leftBrace => "\x7b"
  | rightBrace => "\x7d"
  | semicolon => ";"
  | comma => ","
  | _ => ((keywords.find? (·.2 == k)).map (·.1)).getD ""

end TokenKind

namespace Token

/-- A token with the one lexeme that its kind has. -/
def fixed (k : TokenKind) : Token := ⟨k, k.word, 0⟩

def written (k : TokenKind) (lexeme : String) : Token := ⟨k, lexeme, 0⟩

/-- What the grammar sees of a token. -/
def sign (t : Token) : TokenKind × String := (t.kind, if t.kind.hasText then t.lexeme else "")

theorem sign_eq_iff {t u : Token} :
    t.sign = u.sign ↔ t.kind = u.kind ∧ (t.kind.hasText = true → t.lexeme = u.lexeme) := by
  rcases t with ⟨k, x, i⟩
  rcases u with ⟨l, y, j⟩
  refine ⟨fun h => ?_, fun h => ?_⟩
  · obtain ⟨rfl, h⟩ := Prod.mk.inj h
    refine ⟨rfl, fun hk => ?_⟩
    have hk : k.hasText = true := hk
    simpa [hk] using h
  · obtain ⟨hkind, h⟩ := h
    cases hkind
    rw [sign, sign]
    split
    · rw [h ‹_›]
    · rfl

theorem sign_fixed_iff {t : Token} {k : TokenKind} (hk : k.hasText = false) :
    t.sign = (fixed k).sign ↔ t.kind = k := by
  rw [sign_eq_iff]
  refine ⟨And.left, fun h => ⟨h, fun ht => ?_⟩⟩
  rw [h, hk] at ht
  cases ht

theorem sign_written_iff {t : Token} {k : TokenKind} {x : String} (hk : k.hasText = true) :
    t.sign = (written k x).sign ↔ t.kind = k ∧ t.lexeme = x := by
  rw [sign_eq_iff]
  refine ⟨fun ⟨h, hx⟩ => ⟨h, hx ?_⟩, fun ⟨h, hx⟩ => ⟨h, fun _ => hx⟩⟩
  rw [h]
  exact hk

end Token

/-- Token lists that the grammar cannot tell apart. -/
def Alike (ts us : List Token) : Prop := ts.map Token.sign = us.map Token.sign

namespace Alike

variable {t u : Token} {ts us vs : List Token}

theorem refl (ts : List Token) : Alike ts ts := rfl

theorem nil_iff : Alike ts [] ↔ ts = [] := List.map_eq_nil_iff

theorem cons_iff :
    Alike ts (u :: us) ↔ ∃ t rest, t.sign = u.sign ∧ Alike rest us ∧ ts = t :: rest := by
  rw [Alike, List.map_cons, List.map_eq_cons_iff]
  refine ⟨fun h => ?_, fun h => ?_⟩
  · obtain ⟨t, rest, rfl, ht, hrest⟩ := h
    exact ⟨t, rest, ht, hrest, rfl⟩
  · obtain ⟨t, rest, ht, hrest, rfl⟩ := h
    exact ⟨t, rest, rfl, ht, hrest⟩

theorem singleton_iff : Alike ts [u] ↔ ∃ t, ts = [t] ∧ t.sign = u.sign := by
  refine cons_iff.trans ⟨fun h => ?_, fun h => ?_⟩
  · obtain ⟨t, rest, ht, hrest, rfl⟩ := h
    rw [nil_iff.1 hrest]
    exact ⟨t, rfl, ht⟩
  · obtain ⟨t, rfl, ht⟩ := h
    exact ⟨t, [], ht, refl _, rfl⟩

theorem append_iff : Alike ts (us ++ vs) ↔ ∃ u v, Alike u us ∧ Alike v vs ∧ ts = u ++ v := by
  rw [Alike, List.map_append, List.map_eq_append_iff]
  refine ⟨fun h => ?_, fun h => ?_⟩
  · obtain ⟨u, v, rfl, hu, hv⟩ := h
    exact ⟨u, v, hu, hv, rfl⟩
  · obtain ⟨u, v, hu, hv, rfl⟩ := h
    exact ⟨u, v, rfl, hu, hv⟩

theorem append {ts' us' : List Token} (h : Alike ts us) (h' : Alike ts' us') :
    Alike (ts ++ ts') (us ++ us') := append_iff.2 ⟨_, _, h, h', rfl⟩

theorem cons (h : t.sign = u.sign) (h' : Alike ts us) : Alike (t :: ts) (u :: us) :=
  cons_iff.2 ⟨_, _, h, h', rfl⟩

/-- A list that starts with a token has all its lookalikes start alike. -/
theorem head (h : Alike ts (u :: us)) : ∃ t rest, ts = t :: rest ∧ t.kind = u.kind := by
  obtain ⟨t, rest, ht, -, rfl⟩ := cons_iff.1 h
  exact ⟨t, rest, rfl, (Token.sign_eq_iff.1 ht).1⟩

end Alike

/-! ## Spelling -/

open Token

mutual

def Expr.unparse : Expr → List Token
  | .name x => [written .identifier x]
  | .number text => [written .number text]
  | .float text => [written .float text]
  | .string text => [written .string text]
  | .chain first links => first.unparse ++ unparseLinks links

def unparseLinks : List (String × Expr) → List Token
  | [] => []
  | (operator, operand) :: links =>
    written .operator operator :: (operand.unparse ++ unparseLinks links)

end

/-- The items with commas between them. -/
def commaSeparated {α : Type} (text : α → List Token) : List α → List Token
  | [] => []
  | a :: others => text a ++ others.flatMap fun b => fixed .comma :: text b

def Condition.unparse (c : Condition) : List Token :=
  [written .identifier c.name, written .operator c.operator, written .number c.value]

/-- A declaration or an assignment without the semicolon that ends it. -/
def Stmt.clause : Stmt → List Token
  | .declare name value =>
    fixed .declare :: written .identifier name :: written .operator "=" :: value.unparse
  | .assign name value => written .identifier name :: written .operator "=" :: value.unparse
  | _ => []

mutual

def Stmt.unparse : Stmt → List Token
  | .declare name value => Stmt.clause (.declare name value) ++ [fixed .semicolon]
  | .assign name value => Stmt.clause (.assign name value) ++ [fixed .semicolon]
  | .branch test consequence none =>
    fixed .branch :: fixed .leftParen :: (test.unparse ++ fixed .rightParen ::
      fixed .leftBrace :: (unparse consequence ++ [fixed .rightBrace]))
  | .branch test consequence (some alternative) =>
    fixed .branch :: fixed .leftParen :: (test.unparse ++ fixed .rightParen ::
      fixed .leftBrace :: (unparse consequence ++ fixed .rightBrace :: fixed .otherwise ::
        fixed .leftBrace :: (unparse alternative ++ [fixed .rightBrace])))
  | .whilst test body =>
    fixed .whilst :: fixed .leftParen :: (test.unparse ++ fixed .rightParen ::
      fixed .leftBrace :: (unparse body ++ [fixed .rightBrace]))
  | .count init test step body =>
    fixed .count :: fixed .leftParen :: ((init.map Stmt.clause).getD [] ++ fixed .semicolon ::
      (test.unparse ++ fixed .semicolon :: (step.clause ++ fixed .rightParen ::
        fixed .leftBrace :: (unparse body ++ [fixed .rightBrace]))))
  | .define name parameters body =>
    fixed .define :: written .identifier name :: fixed .leftParen ::
      (commaSeparated (fun x => [written .identifier x]) parameters ++ fixed .rightParen ::
        fixed .leftBrace :: (unparse body ++ [fixed .rightBrace]))
  | .call name arguments =>
    written .identifier name :: fixed .leftParen ::
      (commaSeparated Expr.unparse arguments ++ [fixed .rightParen, fixed .semicolon])
  | .print value =>
    fixed .print :: fixed .leftParen :: (value.unparse ++ [fixed .rightParen, fixed .semicolon])

def unparse : Block → List Token
  | [] => []
  | stmt :: block => stmt.unparse ++ unparse block

end

theorem unparse_append (block rest : Block) :
    unparse (block ++ rest) = unparse block ++ unparse rest := by
  induction block with
  | nil => simp [unparse]
  | cons stmt block ih => simp [unparse, ih]

/-! ## Blocks with a spelling -/

namespace Expr

def isLiteral : Expr → Bool
  | number _ | float _ | string _ => true
  | _ => false

def wellFormed : Expr → Bool
  | chain first links => first.isPrimary && !links.isEmpty && links.all (·.2.isPrimary)
  | _ => true

end Expr

namespace Stmt

/-- An assignment of something that has a spelling. -/
def steps : Stmt → Bool
  | assign _ value => value.wellFormed
  | _ => false

/-- What may open a loop. -/
def opens : Stmt → Bool
  | declare _ value => value.isLiteral
  | stmt => stmt.steps

end Stmt

mutual

def Stmt.wellFormed : Stmt → Bool
  | .declare _ value => value.isLiteral
  | .assign _ value => value.wellFormed
  | .branch _ consequence none => MarathiScript.wellFormed consequence
  | .branch _ consequence (some alternative) =>
    MarathiScript.wellFormed consequence && MarathiScript.wellFormed alternative
  | .whilst test body => test.wellFormed && MarathiScript.wellFormed body
  | .count init test step body =>
    init.all Stmt.opens && test.wellFormed && step.steps && MarathiScript.wellFormed body
  | .define _ _ body => MarathiScript.wellFormed body
  | .call _ arguments => arguments.all Expr.wellFormed
  | .print value => value.wellFormed

def wellFormed : Block → Bool
  | [] => true
  | stmt :: block => stmt.wellFormed && MarathiScript.wellFormed block

end

theorem wellFormed_append (block rest : Block) :
    wellFormed (block ++ rest) = (wellFormed block && wellFormed rest) := by
  induction block with
  | nil => simp [wellFormed]
  | cons stmt block ih => simp [wellFormed, ih, Bool.and_assoc]

end MarathiScript
