/-
  MarathiScript.Proofs.Lexical.Lexeme — the lexemes of each kind, and which of them is read.

  `TokenKind.Admits k lexeme` says what a lexeme of kind `k` looks like. Where several tokens
  start at one place the text decides: a keyword comes before everything else, and a name, a
  number and an operator are as long as they can be (`Preferred`). A token is preferred by
  what comes after it in the text, so the statement about the head of a text (`piece_fits`)
  splits the text at the end of the token.
-/

import MarathiScript.Token.Piece

namespace MarathiScript

open Text

/-! ## Lexemes -/

def doubleOperators : List (List Char) := [['=', '='], ['!', '='], ['<', '='], ['>', '=']]

def singleOperators : List Char := ['<', '>', '=', '+', '-', '*', '/']

/-- What a lexeme of this kind looks like. -/
def TokenKind.Admits (k : TokenKind) (lexeme : List Char) : Prop :=
  match k with
  | number => lexeme ≠ [] ∧ ∀ c ∈ lexeme, c.isDigit = true
  | float => ∃ whole part, whole ≠ [] ∧ (∀ c ∈ whole, c.isDigit = true) ∧
      (∀ c ∈ part, c.isDigit = true) ∧ lexeme = whole ++ '.' :: part
  | string => '"' ∉ lexeme
  | identifier => (∃ c rest, isLetter c = true ∧ (∀ d ∈ rest, isWordChar d = true) ∧
      lexeme = c :: rest) ∧ ∀ entry ∈ keywords, ¬ entry.1.toList <+: lexeme
  | operator => lexeme ∈ doubleOperators ∨ ∃ c ∈ singleOperators, lexeme = [c]
  | leftParen => lexeme = ['(']
  | rightParen => lexeme = [')']
  | leftBrace => lexeme = ['\x7b']
  | rightBrace => lexeme = ['\x7d']
  | semicolon => lexeme = [';']
  | comma => lexeme = [',']
  | declare | branch | otherwise | print | whilst | count | define | call =>
    ∃ word, (word, k) ∈ keywords ∧ lexeme = word.toList

/-- The token is the one to read where `after` follows it: a keyword is read as such, and a
name, a number or an operator does not go on. -/
structure Preferred (k : TokenKind) (lexeme after : List Char) : Prop where
  keyword : ∀ word l, (word, l) ∈ keywords → word.toList <+: k.raw lexeme ++ after →
    k = l ∧ lexeme = word.toList
  identifier : k = .identifier → ∀ c, after.head? = some c → isWordChar c = false
  number : k = .number ∨ k = .float → ∀ c, after.head? = some c → c.isDigit = false ∧ c ≠ '.'
  operator : k = .operator → ∀ c d, lexeme = [c] → after.head? = some d →
    [c, d] ∉ doubleOperators

/-- A token at the head of a text, in good form and preferred by the rest of the text. -/
def Fits (k : TokenKind) (lexeme text : List Char) : Prop :=
  k.Admits lexeme ∧ ∃ after, text = k.raw lexeme ++ after ∧ Preferred k lexeme after

/-- The kinds whose tokens could go on. -/
def openKinds : List TokenKind := [.identifier, .number, .float, .operator]

/-- Of the other kinds only the keywords have to be looked at. -/
theorem Preferred.of_closed {k : TokenKind} {lexeme after : List Char} (hk : k ∉ openKinds)
    (h : ∀ word l, (word, l) ∈ keywords → word.toList <+: k.raw lexeme ++ after →
      k = l ∧ lexeme = word.toList) : Preferred k lexeme after := by
  simp only [openKinds, List.mem_cons, List.not_mem_nil, or_false, not_or] at hk
  obtain ⟨hidentifier, hnumber, hfloat, hoperator⟩ := hk
  refine ⟨h, fun hk => absurd hk hidentifier, ?_, fun hk => absurd hk hoperator⟩
  intro h
  rcases h with hk | hk
  · exact absurd hk hnumber
  · exact absurd hk hfloat

/-! ## Keywords -/

/-- No keyword is the beginning of another one. -/
theorem keywords_apart : ∀ entry ∈ keywords, ∀ entry' ∈ keywords,
    entry.1.toList <+: entry'.1.toList → entry = entry' := by decide

/-- Two keywords that start at one place are one. -/
theorem keywords_agree {entry entry' : String × TokenKind} {text : List Char} (h : entry ∈ keywords)
    (h' : entry' ∈ keywords) (hstarts : entry.1.toList <+: text) (hstarts' : entry'.1.toList <+: text) :
    entry = entry' := by
  rcases List.prefix_or_prefix_of_prefix hstarts hstarts' with hp | hp
  · exact keywords_apart _ h _ h' hp
  · exact (keywords_apart _ h' _ h hp).symm

theorem keyword_closed : ∀ entry ∈ keywords, entry.2 ∉ openKinds := by decide

theorem admits_of_keyword {word : String} {k : TokenKind} (h : (word, k) ∈ keywords) :
    k.Admits word.toList := by
  have hk := h
  simp only [keywords, List.mem_cons, Prod.mk.injEq, List.not_mem_nil, or_false] at hk
  rcases hk with ⟨rfl, rfl⟩ | ⟨rfl, rfl⟩ | ⟨rfl, rfl⟩ | ⟨rfl, rfl⟩ | ⟨rfl, rfl⟩ | ⟨rfl, rfl⟩ |
    ⟨rfl, rfl⟩ | ⟨rfl, rfl⟩ <;> exact ⟨_, h, rfl⟩

theorem fits_keyword {word : String} {k : TokenKind} {text : List Char} (h : (word, k) ∈ keywords)
    (htext : word.toList <+: text) : Fits k word.toList text := by
  obtain ⟨after, rfl⟩ := htext
  have hraw := (raw_of_keyword h).1
  refine ⟨admits_of_keyword h, after, by rw [hraw], .of_closed (keyword_closed _ h) ?_⟩
  intro word' l h' hstarts
  rw [hraw] at hstarts
  cases keywords_agree h h' (List.prefix_append word.toList after) hstarts
  exact ⟨rfl, rfl⟩

/-! ## The other tokens, where no keyword starts -/

def NoKeyword (text : List Char) : Prop := ∀ entry ∈ keywords, ¬ entry.1.toList <+: text

theorem noKeyword {text : List Char} (h : keyword? text = none) : NoKeyword text := by
  intro entry hmem hstarts
  have := List.find?_eq_none.1 h entry hmem
  simp [hstarts] at this

section

variable {c : Char} {text rest lexeme after : List Char} {k : TokenKind} {p : Char → Bool}

theorem NoKeyword.keyword (h : NoKeyword text) (word : String) (l : TokenKind)
    (hmem : (word, l) ∈ keywords) (hstarts : word.toList <+: text) :
    k = l ∧ lexeme = word.toList :=
  absurd hstarts (h _ hmem)

theorem of_mem_takeWhile (h : c ∈ text.takeWhile p) : p c = true :=
  List.all_eq_true.1 List.all_takeWhile c h

theorem of_head?_dropWhile (h : (text.dropWhile p).head? = some c) : p c = false := by
  have := List.head?_dropWhile_not p text
  rw [h] at this
  simpa using this

theorem fits_string (hnone : NoKeyword ('"' :: rest)) (h : stringPiece rest = .token k lexeme) :
    Fits k lexeme ('"' :: rest) := by
  obtain ⟨after, hafter⟩ := stringPiece_starts h
  unfold stringPiece at h
  split at h
  · simp only [Piece.token.injEq] at h
    obtain ⟨rfl, rfl⟩ := h
    rw [← hafter] at hnone
    refine ⟨fun hmem => ?_, after, hafter.symm, .of_closed (by decide) hnone.keyword⟩
    simpa using of_mem_takeWhile hmem
  · cases h

/-- The operator at the head of a text: of two characters, or of one that does not start two. -/
theorem operator?_cases (h : operator? text = some lexeme) :
    lexeme ∈ doubleOperators ∨ ∃ c ∈ singleOperators, ∃ rest, lexeme = [c] ∧ text = c :: rest ∧
      ∀ d, rest.head? = some d → [c, d] ∉ doubleOperators := by
  unfold operator? at h
  split at h
  case h_5 c rest h₁ h₂ h₃ h₄ =>
    split at h
    · rename_i hc
      cases h
      refine .inr ⟨c, hc, rest, rfl, rfl, fun d hd hdouble => ?_⟩
      obtain ⟨tail, rfl⟩ := List.head?_eq_some_iff.1 hd
      simp only [doubleOperators, List.mem_cons, List.cons.injEq, and_true, List.not_mem_nil,
        or_false] at hdouble
      rcases hdouble with ⟨rfl, rfl⟩ | ⟨rfl, rfl⟩ | ⟨rfl, rfl⟩ | ⟨rfl, rfl⟩
      · exact h₁ _ rfl rfl
      · exact h₂ _ rfl rfl
      · exact h₃ _ rfl rfl
      · exact h₄ _ rfl rfl
    · cases h
  case h_6 => cases h
  all_goals
    cases h
    exact .inl (by decide)

theorem fits_operator (hnone : NoKeyword text) (h : operator? text = some lexeme) :
    Fits .operator lexeme text := by
  rcases operator?_cases h with hdouble | ⟨c, hc, rest, rfl, rfl, hsingle⟩
  · obtain ⟨after, rfl⟩ := (operator?_starts h).1
    refine ⟨.inl hdouble, after, rfl, hnone.keyword, nofun, by simp, ?_⟩
    intro _ c d h
    subst h
    revert hdouble
    simp [doubleOperators]
  · refine ⟨.inr ⟨c, hc, rfl⟩, rest, rfl, hnone.keyword, nofun, by simp, ?_⟩
    intro _ c' d hc' hd
    cases hc'
    exact hsingle d hd

theorem fits_punctuation (hnone : NoKeyword (c :: rest)) (h : punctuation? c = some k) :
    Fits k [c] (c :: rest) := by
  have hraw := raw_of_punctuation h
  have hkind : k.Admits [c] ∧ k ∉ openKinds := by
    unfold punctuation? at h
    split at h <;> cases h <;> exact ⟨rfl, by decide⟩
  refine ⟨hkind.1, rest, by rw [hraw]; rfl, .of_closed hkind.2 ?_⟩
  rw [hraw]
  exact hnone.keyword

theorem isNumberChar_iff : isNumberChar c = true ↔ c.isDigit = true ∨ c = '.' := by
  simp [isNumberChar]

/-- Where the first digits of a run of digits and dots end, there is a dot. -/
theorem dot_of_dropWhile {run tail : List Char} (hrun : ∀ d ∈ run, isNumberChar d = true)
    (hdrop : run.dropWhile Char.isDigit = c :: tail) :
    c = '.' ∧ run = run.takeWhile Char.isDigit ++ '.' :: tail := by
  have hsplit : run.takeWhile Char.isDigit ++ run.dropWhile Char.isDigit = run :=
    List.takeWhile_append_dropWhile
  rw [hdrop] at hsplit
  have hc : c = '.' := by
    have hdigit : c.isDigit = false := of_head?_dropWhile (by rw [hdrop]; rfl)
    have hmem : c ∈ run := hsplit ▸ List.mem_append_right _ (.head _)
    refine (isNumberChar_iff.1 (hrun c hmem)).resolve_left fun h => ?_
    rw [hdigit] at h
    cases h
  subst hc
  exact ⟨rfl, hsplit.symm⟩

/-- A run of digits and dots that starts with a digit is a number, or a float if it holds a dot. -/
theorem numberPiece_admits (hc : c.isDigit = true)
    (h : numberPiece (c :: rest) = .token k lexeme) :
    k.Admits lexeme ∧ (k = .number ∨ k = .float) := by
  have hrun : ∀ d ∈ (c :: rest).takeWhile isNumberChar, isNumberChar d = true :=
    fun d hd => of_mem_takeWhile hd
  have hhead : (c :: rest).takeWhile isNumberChar = c :: rest.takeWhile isNumberChar :=
    List.takeWhile_cons_of_pos (isNumberChar_iff.2 (.inl hc))
  unfold numberPiece at h
  dsimp only at h
  generalize (c :: rest).takeWhile isNumberChar = run at h hrun hhead
  split at h
  · rename_i hdrop
    obtain ⟨rfl, rfl⟩ := Piece.token.inj h
    have hsplit : run.takeWhile Char.isDigit ++ run.dropWhile Char.isDigit = run :=
      List.takeWhile_append_dropWhile
    rw [hdrop, List.append_nil] at hsplit
    refine ⟨⟨?_, fun d hd => of_mem_takeWhile (by rw [hsplit]; exact hd)⟩, .inl rfl⟩
    rw [hhead]
    exact List.cons_ne_nil _ _
  · rename_i x tail hdrop
    split at h
    · cases h
    · rename_i hdot
      obtain ⟨rfl, rfl⟩ := Piece.token.inj h
      obtain ⟨rfl, hsplit⟩ := dot_of_dropWhile hrun hdrop
      refine ⟨⟨_, tail, ?_, fun d hd => of_mem_takeWhile hd, ?_, hsplit⟩, .inr rfl⟩
      · rw [hhead, List.takeWhile_cons_of_pos hc]
        exact List.cons_ne_nil _ _
      · intro d hd
        have hmem : d ∈ run := hsplit ▸ List.mem_append_right _ (.tail _ hd)
        rcases isNumberChar_iff.1 (hrun d hmem) with hdigit | rfl
        · exact hdigit
        · exact absurd hd hdot

theorem fits_number (hc : c.isDigit = true) (hnone : NoKeyword (c :: rest))
    (h : numberPiece (c :: rest) = .token k lexeme) : Fits k lexeme (c :: rest) := by
  obtain ⟨hadmits, hk⟩ := numberPiece_admits hc h
  obtain ⟨rfl, hraw⟩ := numberPiece_token h
  have hsplit : (c :: rest).takeWhile isNumberChar ++ (c :: rest).dropWhile isNumberChar = c :: rest :=
    List.takeWhile_append_dropWhile
  refine ⟨hadmits, (c :: rest).dropWhile isNumberChar, by rw [hraw, hsplit], ?_, ?_, ?_, ?_⟩
  · rw [hraw, hsplit]
    exact hnone.keyword
  · intro h
    subst h
    simp at hk
  · intro _ d hd
    have hd := of_head?_dropWhile hd
    simpa [isNumberChar] using hd
  · intro h
    subst h
    simp at hk

theorem fits_identifier (hc : isLetter c = true) (hnone : NoKeyword (c :: rest)) :
    Fits .identifier ((c :: rest).takeWhile isWordChar) (c :: rest) := by
  have hsplit : (c :: rest).takeWhile isWordChar ++ (c :: rest).dropWhile isWordChar = c :: rest :=
    List.takeWhile_append_dropWhile
  have hhead : (c :: rest).takeWhile isWordChar = c :: rest.takeWhile isWordChar :=
    List.takeWhile_cons_of_pos (isWordChar_of_isLetter hc)
  refine ⟨⟨⟨c, _, hc, fun d hd => of_mem_takeWhile hd, hhead⟩, fun entry hmem hstarts => ?_⟩,
    (c :: rest).dropWhile isWordChar, hsplit.symm, ?_, fun _ d hd => of_head?_dropWhile hd,
    by simp, nofun⟩
  · exact hnone entry hmem (hstarts.trans (List.takeWhile_prefix _))
  · show ∀ (word : String) l, _ → word.toList <+: (c :: rest).takeWhile isWordChar ++ _ → _
    rw [hsplit]
    exact hnone.keyword

end

/-- The token that is read at the head of a text has the form of its kind and is preferred. -/
theorem piece_fits {c : Char} {rest lexeme : List Char} {k : TokenKind}
    (h : piece c rest = .token k lexeme) : Fits k lexeme (c :: rest) := by
  unfold piece at h
  split at h
  · rename_i hk
    cases h
    exact fits_keyword (keyword?_mem hk) (keyword?_starts hk)
  rename_i hk
  have hnone := noKeyword hk
  split at h
  · rename_i hc
    subst hc
    exact fits_string hnone h
  split at h
  · rename_i ho
    cases h
    exact fits_operator hnone ho
  split at h
  · rename_i hp
    cases h
    exact fits_punctuation hnone hp
  split at h
  · rename_i hd
    exact fits_number hd hnone h
  split at h
  · rename_i hl
    cases h
    exact fits_identifier hl hnone
  · cases h

end MarathiScript
