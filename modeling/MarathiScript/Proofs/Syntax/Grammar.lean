/-
  MarathiScript.Proofs.Syntax.Grammar — every parser reads what `unparse` writes.

  The sentences of a parser are given by parts: `Built good make text` holds of a result that
  `make` puts together from parts in good form, and of tokens spelled like the `text` of these
  parts. `Reads.after_mark`, `Reads.part` and `Reads.ended` put one part in front of others,
  so the sentences of a statement follow from those of its parts in the order in which they
  are read. A block is read by a loop whose bound is the tokens ahead, so that the induction
  is on that bound (`reads_statements`), and the bound plays no role in the end
  (`reads_block`).
-/

import MarathiScript.Program.Parse
import MarathiScript.Proofs.Syntax.Reads
import MarathiScript.Proofs.Syntax.Unparse

namespace MarathiScript

namespace Parse

open Token

variable {α β ι : Type}

/-! ## Parts -/

/-- A result in good form, and tokens spelled like its text. -/
def Spelt (good : α → Prop) (text : α → List Token) (a : α) (used : List Token) : Prop :=
  good a ∧ Alike used (text a)

/-- A result that `make` builds from parts in good form, and tokens spelled like their text. -/
def Built (good : ι → Prop) (make : ι → α) (text : ι → List Token) (a : α) (used : List Token) :
    Prop :=
  ∃ i, good i ∧ a = make i ∧ Alike used (text i)

namespace Reads

variable {n : Nat} {k l : TokenKind} {p : Parse α} {q : Parse β} {f : α → Parse β}
  {good : α → Prop} {text : α → List Token} {goodF : α → ι → Prop} {make : α → ι → β}
  {textF : α → ι → List Token} {stop stopF : Option Token → Prop}

theorem made (b : β) :
    Reads n (Pure.pure b) (Built (fun _ : Unit => True) (fun _ => b) fun _ => [])
      fun _ => True := by
  refine (Reads.pure b).congr (fun a used => ?_) fun _ => id
  refine ⟨fun h => ?_, fun h => ?_⟩
  · obtain ⟨rfl, rfl⟩ := h
    exact ⟨(), trivial, rfl, Alike.refl _⟩
  · obtain ⟨_, -, rfl, h⟩ := h
    exact ⟨rfl, Alike.nil_iff.1 h⟩

/-- A token that can only look like `u`. -/
theorem discarded {w : Wanted} {u : Token} (hw : ∀ t, w.admits t = true ↔ t.sign = u.sign) :
    Reads n (discard (Parse.take w)) (fun _ used => Alike used [u]) fun _ => True := by
  refine (Reads.take w).map.congr (fun _ used => ?_) fun _ => id
  rw [Alike.singleton_iff]
  refine ⟨fun h => ?_, fun h => ?_⟩
  · obtain ⟨t, -, rfl, ht⟩ := h
    exact ⟨t, rfl, (hw t).1 ht⟩
  · obtain ⟨t, rfl, ht⟩ := h
    exact ⟨t, rfl, rfl, (hw t).2 ht⟩

theorem mark (hk : k.hasText = false) :
    Reads n (mark k) (fun _ used => Alike used [fixed k]) fun _ => True :=
  discarded fun t => by simp [Wanted.admits, sign_fixed_iff hk]

/-- The parts after a mark, which takes a token off the bound. -/
theorem after_mark (hk : k.hasText = false) {good : ι → Prop} {make : ι → β}
    {text : ι → List Token} (hq : Reads n q (Built good make text) stop) :
    Reads (n + 1) (Parse.mark k >>= fun _ => q) (Built good make fun i => fixed k :: text i)
      stop := by
  refine ((Reads.mark hk).bind (fun _ => hq) ?_ fun _ _ _ _ _ _ _ _ => trivial).congr
    (fun b used => ?_) fun _ => id
  · intro _ u hu
    obtain ⟨t, rest, rfl, -⟩ := hu.head
    simp
  · refine ⟨fun h => ?_, fun h => ?_⟩
    · obtain ⟨-, u, v, hu, ⟨i, hi, rfl, hv⟩, rfl⟩ := h
      exact ⟨i, hi, rfl, hu.append hv⟩
    · obtain ⟨i, hi, rfl, h⟩ := h
      obtain ⟨t, v, ht, hv, rfl⟩ := Alike.cons_iff.1 h
      exact ⟨(), [t], v, .cons ht (.refl _), ⟨i, hi, rfl, hv⟩, rfl⟩

/-- A part that stops of its own accord, and the parts after it. -/
theorem part (hp : Reads n p (Spelt good text) fun _ => True)
    (hf : ∀ a, Reads n (f a) (Built (goodF a) (make a) (textF a)) stopF) :
    Reads n (p >>= f)
      (Built (fun i : α × ι => good i.1 ∧ goodF i.1 i.2) (fun i => make i.1 i.2)
        fun i => text i.1 ++ textF i.1 i.2) stopF := by
  refine (hp.seq hf).congr (fun b used => ?_) fun _ => id
  refine ⟨fun h => ?_, fun h => ?_⟩
  · obtain ⟨a, u, v, ⟨ha, hu⟩, ⟨i, hi, rfl, hv⟩, rfl⟩ := h
    exact ⟨(a, i), ⟨ha, hi⟩, rfl, hu.append hv⟩
  · obtain ⟨⟨a, i⟩, ⟨ha, hi⟩, rfl, h⟩ := h
    obtain ⟨u, v, hu, hv, rfl⟩ := Alike.append_iff.1 h
    exact ⟨a, u, v, ⟨ha, hu⟩, ⟨i, hi, rfl, hv⟩, rfl⟩

/-- A part that a mark ends, and the parts after it. -/
theorem ended (hp : Reads n p (Spelt good text) stop) (hk : k.hasText = false)
    (hstop : ∀ t : Token, t.kind = k → stop (some t))
    (hf : ∀ a, Reads n (f a) (Built (goodF a) (make a) (textF a)) stopF) :
    Reads n (p >>= fun a => Parse.mark k >>= fun _ => f a)
      (Built (fun i : α × ι => good i.1 ∧ goodF i.1 i.2) (fun i => make i.1 i.2)
        fun i => text i.1 ++ fixed k :: textF i.1 i.2) stopF := by
  refine (hp.bind (fun a => ((hf a).after_mark hk).shorten (Nat.le_succ n))
    (fun _ _ _ => Nat.le_add_right _ _) ?_).congr (fun b used => ?_) fun _ => id
  · intro a u b v rest _ h _
    obtain ⟨i, -, -, hv⟩ := h
    obtain ⟨t, v', rfl, ht⟩ := hv.head
    exact hstop t ht
  · refine ⟨fun h => ?_, fun h => ?_⟩
    · obtain ⟨a, u, v, ⟨ha, hu⟩, ⟨i, hi, rfl, hv⟩, rfl⟩ := h
      exact ⟨(a, i), ⟨ha, hi⟩, rfl, hu.append hv⟩
    · obtain ⟨⟨a, i⟩, ⟨ha, hi⟩, rfl, h⟩ := h
      obtain ⟨u, v, hu, hv, rfl⟩ := Alike.append_iff.1 h
      exact ⟨a, u, v, ⟨ha, hu⟩, ⟨i, hi, rfl, hv⟩, rfl⟩

/-- One part between two marks. -/
theorem between (hp : Reads n p (Spelt good text) stop) (hk : k.hasText = false)
    (hl : l.hasText = false) (hstop : ∀ t : Token, t.kind = l → stop (some t)) :
    Reads n (Parse.mark k >>= fun _ => p >>= fun a => Parse.mark l >>= fun _ => Pure.pure a)
      (Spelt good fun a => fixed k :: (text a ++ [fixed l])) fun _ => True := by
  refine (((hp.ended hl hstop fun a => made a).after_mark hk).shorten (Nat.le_succ n)).congr
    (fun b used => ?_) fun _ => id
  refine ⟨fun h => ?_, fun h => ?_⟩
  · obtain ⟨⟨a, _⟩, ⟨ha, -⟩, rfl, h⟩ := h
    exact ⟨ha, h⟩
  · obtain ⟨ha, h⟩ := h
    exact ⟨(b, ()), ⟨ha, trivial⟩, rfl, h⟩

theorem parenthesised (hp : Reads n p (Spelt good text) stop)
    (hstop : ∀ t : Token, t.kind = .rightParen → stop (some t)) :
    Reads n (parenthesised p)
      (Spelt good fun a => fixed .leftParen :: (text a ++ [fixed .rightParen])) fun _ => True :=
  hp.between rfl rfl hstop

end Reads

/-- What two parsers do after a mark, they may do on one token more with the mark. -/
theorem Agree.after_mark {n : Nat} {k : TokenKind} {p q : Parse α} (h : Agree n p q) :
    Agree (n + 1) (mark k >>= fun _ => p) (mark k >>= fun _ => q) := by
  refine Agree.bind (fun _ _ => rfl) (fun r _ r' hr hmark => ?_) fun _ => h
  have htake := (Reads.take (n := 0) (.kind k)).map (g := fun _ => ())
  have hone : ∀ (a : Unit) (u : List Token),
      (∃ t, a = () ∧ u = [t] ∧ (Wanted.kind k).admits t = true) → 1 ≤ u.length := by
    intro a u h
    obtain ⟨t, -, rfl, -⟩ := h
    exact Nat.le_refl 1
  have := htake.length_le hone hmark
  omega

/-! ## Names, operands and expressions -/

/-- An operand is spelled by one token. -/
theorem operand_iff {e : Expr} {used : List Token} :
    (∃ t, e = operandOf t ∧ used = [t] ∧ Wanted.operand.admits t = true) ↔
      e.isPrimary = true ∧ Alike used e.unparse := by
  refine ⟨fun h => ?_, fun h => ?_⟩
  · obtain ⟨⟨k, x, i⟩, rfl, rfl, ht⟩ := h
    cases k <;> first | exact ⟨rfl, rfl⟩ | cases ht
  · obtain ⟨he, h⟩ := h
    rcases e with x | x | x | x | _ <;> first | cases he
    all_goals
      obtain ⟨⟨k, y, i⟩, rfl, ht⟩ := Alike.singleton_iff.1 h
      obtain ⟨rfl, rfl⟩ := (sign_written_iff rfl).1 ht
      exact ⟨_, rfl, rfl, rfl⟩

theorem admits_literal_iff {t : Token} : Wanted.literal.admits t = true ↔
    Wanted.operand.admits t = true ∧ (operandOf t).isLiteral = true := by
  rcases t with ⟨k, x, i⟩
  cases k <;> simp [Wanted.admits, operandOf, Expr.isLiteral]

theorem literal_iff {e : Expr} {used : List Token} :
    (∃ t, e = operandOf t ∧ used = [t] ∧ Wanted.literal.admits t = true) ↔
      e.isLiteral = true ∧ Alike used e.unparse := by
  refine ⟨fun h => ?_, fun h => ?_⟩
  · obtain ⟨t, rfl, hu, ht⟩ := h
    obtain ⟨ht, he⟩ := admits_literal_iff.1 ht
    exact ⟨he, (operand_iff.1 ⟨t, rfl, hu, ht⟩).2⟩
  · obtain ⟨he, h⟩ := h
    have hprimary : e.isPrimary = true := by cases e <;> first | rfl | cases he
    obtain ⟨t, rfl, hu, ht⟩ := operand_iff.2 ⟨hprimary, h⟩
    exact ⟨t, rfl, hu, admits_literal_iff.2 ⟨ht, he⟩⟩

theorem reads_text (n : Nat) {k : TokenKind} (hk : k.hasText = true) :
    Reads n (Token.lexeme <$> take (.kind k))
      (Spelt (fun _ => True) fun x => [written k x]) fun _ => True := by
  refine (Reads.take (.kind k)).map.congr (fun x used => ?_) fun _ => id
  refine ⟨fun h => ?_, fun h => ?_⟩
  · obtain ⟨t, rfl, rfl, ht⟩ := h
    have hkind : t.kind = k := by simpa [Wanted.admits] using ht
    exact ⟨trivial, Alike.singleton_iff.2 ⟨t, rfl, (sign_written_iff hk).2 ⟨hkind, rfl⟩⟩⟩
  · obtain ⟨t, rfl, ht⟩ := Alike.singleton_iff.1 h.2
    obtain ⟨hkind, rfl⟩ := (sign_written_iff hk).1 ht
    exact ⟨t, rfl, rfl, by simp [Wanted.admits, hkind]⟩

theorem reads_equals (n : Nat) :
    Reads n (discard (take .equals)) (Spelt (fun _ => True) fun _ => [written .operator "="])
      fun _ => True := by
  have h := Reads.discarded (n := n) (w := .equals) (u := written .operator "=") fun t => by
    rw [sign_written_iff rfl]
    simp [Wanted.admits]
  exact h.congr (fun _ _ => by simp [Spelt]) fun _ => id

theorem reads_operand (n : Nat) :
    Reads n operand (Spelt (fun e => e.isPrimary = true) Expr.unparse) fun _ => True :=
  (Reads.take .operand).map.congr (fun _ _ => operand_iff) fun _ => id

theorem linked_operands_iff {links : List (String × Expr)} {used : List Token} :
    Linked .operator (Spelt (fun e => e.isPrimary = true) Expr.unparse) links used ↔
      (∀ link ∈ links, link.2.isPrimary = true) ∧ Alike used (unparseLinks links) := by
  induction links generalizing used with
  | nil => simp [Linked, unparseLinks, Alike.nil_iff]
  | cons link links ih =>
    obtain ⟨x, e⟩ := link
    refine ⟨fun h => ?_, fun h => ?_⟩
    · obtain ⟨t, u, v, ht, rfl, ⟨he, hu⟩, hv, rfl⟩ := h
      obtain ⟨hlinks, hv⟩ := ih.1 hv
      refine ⟨by simpa [he] using hlinks, .cons ((sign_written_iff rfl).2 ⟨ht, rfl⟩) (hu.append hv)⟩
    · obtain ⟨hlinks, h⟩ := h
      obtain ⟨t, rest, ht, hrest, rfl⟩ := Alike.cons_iff.1 h
      obtain ⟨u, v, hu, hv, rfl⟩ := Alike.append_iff.1 hrest
      obtain ⟨hkind, hlex⟩ := (sign_written_iff rfl).1 ht
      obtain ⟨he, hlinks⟩ := List.forall_mem_cons.1 hlinks
      exact ⟨t, u, v, hkind, hlex, ⟨he, hu⟩, ih.2 ⟨hlinks, hv⟩, rfl⟩

theorem unparse_ofLinks (first : Expr) (links : List (String × Expr)) :
    (Expr.ofLinks first links).unparse = first.unparse ++ unparseLinks links := by
  cases links with
  | nil => simp [Expr.ofLinks, unparseLinks]
  | cons link links => rfl

/-- The expressions with a spelling are the operands with links to operands. -/
theorem wellFormed_iff_ofLinks {e : Expr} : e.wellFormed = true ↔
    ∃ first links, first.isPrimary = true ∧ (∀ link ∈ links, link.2.isPrimary = true) ∧
      e = .ofLinks first links := by
  refine ⟨fun he => ?_, fun h => ?_⟩
  · cases e with
    | chain first links =>
      simp only [Expr.wellFormed, Bool.and_eq_true, List.all_eq_true] at he
      obtain ⟨⟨hfirst, hne⟩, hlinks⟩ := he
      rcases links with _ | ⟨link, links⟩
      · cases hne
      · exact ⟨first, link :: links, hfirst, hlinks, rfl⟩
    | _ => exact ⟨_, [], rfl, by simp, rfl⟩
  · obtain ⟨first, links, hfirst, hlinks, rfl⟩ := h
    rcases links with _ | ⟨link, links⟩
    · cases first <;> first | rfl | cases hfirst
    · simp only [Expr.ofLinks, Expr.wellFormed, Bool.and_eq_true, List.all_eq_true]
      exact ⟨⟨hfirst, rfl⟩, hlinks⟩

theorem reads_expression (n : Nat) :
    Reads n expression (Spelt (fun e => e.wellFormed = true) Expr.unparse) (NotNext .operator) := by
  have hlinks : ∀ first, Reads n (linked .operator operand >>= fun links =>
      Pure.pure (Expr.ofLinks first links))
      (Built (fun links : List (String × Expr) => ∀ link ∈ links, link.2.isPrimary = true)
        (Expr.ofLinks first) unparseLinks) (NotNext .operator) := by
    intro first
    refine (Reads.linked reads_operand (fun _ _ => trivial) n).yield.congr (fun e used => ?_)
      fun next hnext => ⟨trivial, hnext⟩
    refine ⟨fun h => ?_, fun h => ?_⟩
    · obtain ⟨links, rfl, h⟩ := h
      obtain ⟨hlinks, h⟩ := linked_operands_iff.1 h
      exact ⟨links, hlinks, rfl, h⟩
    · obtain ⟨links, hlinks, rfl, h⟩ := h
      exact ⟨links, rfl, linked_operands_iff.2 ⟨hlinks, h⟩⟩
  refine ((reads_operand n).part hlinks).congr (fun e used => ?_) fun _ => id
  refine ⟨fun h => ?_, fun h => ?_⟩
  · obtain ⟨⟨first, links⟩, ⟨hfirst, hlinks⟩, rfl, h⟩ := h
    refine ⟨wellFormed_iff_ofLinks.2 ⟨first, links, hfirst, hlinks, rfl⟩, ?_⟩
    rw [unparse_ofLinks]
    exact h
  · obtain ⟨he, h⟩ := h
    obtain ⟨first, links, hfirst, hlinks, rfl⟩ := wellFormed_iff_ofLinks.1 he
    rw [unparse_ofLinks] at h
    exact ⟨(first, links), ⟨hfirst, hlinks⟩, rfl, h⟩

/-! ## Items with commas -/

theorem linked_commas_iff {good : α → Prop} {text : α → List Token} {all : List α}
    {used : List Token} :
    (∃ others, all = others.map (·.2) ∧ Linked .comma (Spelt good text) others used) ↔
      (∀ a ∈ all, good a) ∧ Alike used (all.flatMap fun a => fixed .comma :: text a) := by
  induction all generalizing used with
  | nil => simp [Linked, Alike.nil_iff]
  | cons a all ih =>
    refine ⟨fun h => ?_, fun h => ?_⟩
    · rcases h with ⟨_ | ⟨⟨x, b⟩, others⟩, hall, h⟩
      · cases hall
      · simp only [List.map_cons, List.cons.injEq] at hall
        obtain ⟨rfl, rfl⟩ := hall
        obtain ⟨t, u, v, ht, -, ⟨ha, hu⟩, hv, rfl⟩ := h
        obtain ⟨hgood, hv⟩ := ih.1 ⟨others, rfl, hv⟩
        refine ⟨List.forall_mem_cons.2 ⟨ha, hgood⟩, ?_⟩
        exact Alike.append (.cons ((sign_fixed_iff rfl).2 ht) hu) hv
    · obtain ⟨hgood, h⟩ := h
      obtain ⟨ha, hgood⟩ := List.forall_mem_cons.1 hgood
      obtain ⟨tu, v, htu, hv, rfl⟩ := Alike.append_iff.1 h
      obtain ⟨t, u, ht, hu, rfl⟩ := Alike.cons_iff.1 htu
      obtain ⟨others, rfl, hlinked⟩ := ih.2 ⟨hgood, hv⟩
      exact ⟨(t.lexeme, a) :: others, rfl, t, u, v, (sign_fixed_iff rfl).1 ht, rfl, ⟨ha, hu⟩,
        hlinked, rfl⟩

/-- The next token is of this kind. -/
def Next (k : TokenKind) (next : Option Token) : Prop := ∃ t, next = some t ∧ t.kind = k

/-- A list in parentheses may be empty, so no item may start with the parenthesis that ends it. -/
theorem reads_items {item : Parse α} {good : α → Prop} {text : α → List Token}
    {stop : Option Token → Prop} (hitem : ∀ n, Reads n item (Spelt good text) stop)
    (hstop : ∀ t : Token, t.kind = .comma ∨ t.kind = .rightParen → stop (some t))
    (hfirst : ∀ a u, Spelt good text a u → ∃ t v, u = t :: v ∧ t.kind ≠ .rightParen) (n : Nat) :
    Reads n (items item) (Spelt (fun all => ∀ a ∈ all, good a) (commaSeparated text))
      (Next .rightParen) := by
  have hnone : Reads n (pure []) (fun all used => all = ([] : List α) ∧ used = [])
      (Next .rightParen) := Reads.pure []
  have hsome := Reads.commaList hitem (fun t ht => hstop t (.inl ht)) n
  refine (Reads.ite (looks_sees (.kind .rightParen)) hnone hsome ?_ ?_).congr ?_ ?_
  · intro all u rest h h'
    obtain ⟨-, rfl⟩ := h
    obtain ⟨t, hnext, ht⟩ := h'
    rw [List.nil_append, hnext]
    simp [Wanted.admits, ht]
  · intro all u rest h _
    obtain ⟨a, others, u, v, -, ha, -, rfl⟩ := h
    obtain ⟨t, u', rfl, ht⟩ := hfirst a u ha
    simpa [Wanted.admits] using ht
  · intro all used
    refine ⟨fun h => ?_, fun h => ?_⟩
    · rcases h with ⟨rfl, rfl⟩ | ⟨a, others, u, v, rfl, ⟨ha, hu⟩, hv, rfl⟩
      · exact ⟨by simp, .refl _⟩
      · obtain ⟨hgood, hv⟩ := linked_commas_iff.1 ⟨others, rfl, hv⟩
        exact ⟨List.forall_mem_cons.2 ⟨ha, hgood⟩, hu.append hv⟩
    · obtain ⟨hgood, h⟩ := h
      rcases all with _ | ⟨a, all⟩
      · exact .inl ⟨rfl, Alike.nil_iff.1 h⟩
      · obtain ⟨ha, hgood⟩ := List.forall_mem_cons.1 hgood
        obtain ⟨u, v, hu, hv, rfl⟩ := Alike.append_iff.1 h
        obtain ⟨others, rfl, hlinked⟩ := linked_commas_iff.2 ⟨hgood, hv⟩
        exact .inr ⟨a, others, u, v, rfl, ⟨ha, hu⟩, hlinked, rfl⟩
  · intro next h
    obtain ⟨t, rfl, ht⟩ := h
    refine ⟨⟨t, rfl, ht⟩, hstop t (.inr ht), ?_⟩
    intro t' h' hcomma
    cases h'
    rw [ht] at hcomma
    cases hcomma

theorem reads_parameters (n : Nat) :
    Reads n (parenthesised (items identifier))
      (Spelt (fun _ => True) fun all =>
        fixed .leftParen :: (commaSeparated (fun x => [written .identifier x]) all ++
          [fixed .rightParen])) fun _ => True := by
  have hfirst : ∀ x u, Spelt (fun _ => True) (fun x => [written .identifier x]) x u →
      ∃ t v, u = t :: v ∧ t.kind ≠ .rightParen := by
    intro x u h
    obtain ⟨-, h⟩ := h
    obtain ⟨t, v, rfl, ht⟩ := h.head
    exact ⟨t, v, rfl, by simp [ht, written]⟩
  refine (Reads.parenthesised (reads_items (fun n => reads_text n rfl) (fun _ _ => trivial) hfirst n)
    fun t ht => ⟨t, rfl, ht⟩).congr (fun all used => ?_) fun _ => id
  simp [Spelt]

/-- Every expression starts with an operand. -/
theorem starts_expression {e : Expr} {used : List Token}
    (h : Spelt (fun e => e.wellFormed = true) Expr.unparse e used) :
    ∃ t v, used = t :: v ∧ Wanted.operand.admits t = true := by
  obtain ⟨first, links, hfirst, -, rfl⟩ := wellFormed_iff_ofLinks.1 h.1
  have hused := h.2
  rw [unparse_ofLinks] at hused
  obtain ⟨u, v, hu, -, rfl⟩ := Alike.append_iff.1 hused
  obtain ⟨t, -, rfl, ht⟩ := operand_iff.2 ⟨hfirst, hu⟩
  exact ⟨t, v, rfl, ht⟩

theorem notNext_of_kind {k : TokenKind} {t : Token} (h : t.kind ≠ k) : NotNext k (some t) := by
  intro u hu
  cases hu
  exact h

theorem reads_arguments (n : Nat) :
    Reads n (parenthesised (items expression))
      (Spelt (fun all => ∀ e ∈ all, e.wellFormed = true) fun all =>
        fixed .leftParen :: (commaSeparated Expr.unparse all ++ [fixed .rightParen]))
      fun _ => True := by
  refine Reads.parenthesised (reads_items reads_expression ?_ ?_ n) fun t ht => ⟨t, rfl, ht⟩
  · intro t ht
    rcases ht with ht | ht <;> exact notNext_of_kind (by rw [ht]; decide)
  · intro e u h
    obtain ⟨t, v, rfl, ht⟩ := starts_expression h
    refine ⟨t, v, rfl, fun hk => ?_⟩
    simp [Wanted.admits, hk] at ht

end Parse

end MarathiScript
