/-
  MarathiScript.Proofs.Lexical.Choice — a text that starts with a token is read as that token.

  `Fits` says which token stands at the head of a text: its lexeme has the form of its kind,
  and the rest of the text makes it the preferred one. The rules of `piece` are tried one
  after the other, and each looks at the first character: a letter, a digit or a mark
  (`raw_starts`). So no rule before the right one takes the text, and reading finds the token
  that fits (`piece_of_fits`).
-/

import MarathiScript.Proofs.Lexical.Lexeme

namespace MarathiScript

open Text

/-! ## First characters -/

/-- The characters with which strings, operators and punctuation start. -/
def marks : List Char :=
  ['"', '!', '<', '>', '=', '+', '-', '*', '/', '(', ')', '\x7b', '\x7d', ';', ',']

section

variable {c : Char} {text rest lexeme after : List Char} {k : TokenKind} {p : Char → Bool}

theorem marks_no_word : ∀ c ∈ marks, isLetter c = false ∧ c.isDigit = false := by
  have hall : (marks.all fun c => !isLetter c && !c.isDigit) = true := by decide
  intro c hc
  have hmark := List.all_eq_true.1 hall c hc
  simpa using hmark

theorem letter_no_mark (h : isLetter c = true) : c ∉ marks := fun hm => by
  rw [(marks_no_word c hm).1] at h
  cases h

theorem digit_no_mark (h : c.isDigit = true) : c ∉ marks := fun hm => by
  rw [(marks_no_word c hm).2] at h
  cases h

theorem digit_no_letter (h : c.isDigit = true) : isLetter c = false := by
  have hrange : '0'.toNat ≤ c.toNat ∧ c.toNat ≤ '9'.toNat := Char.isDigit_iff_toNat.1 h
  change 48 ≤ c.toNat ∧ c.toNat ≤ 57 at hrange
  have hlow : ∀ d : Char, 58 ≤ d.toNat → ¬ d.val ≤ c.val := by
    intro d hd hle
    have hnat : d.toNat ≤ c.toNat := UInt32.le_iff_toNat_le.1 hle
    omega
  have hupper : c.isUpper = false := decide_eq_false fun hc => hlow 'A' (by decide) hc.1
  have hlower : c.isLower = false := by
    show (decide (c.val ≥ 'a'.val) && _) = false
    rw [decide_eq_false (hlow 'a' (by decide))]
    rfl
  rw [isLetter_ascii (by omega)]
  show (c.isUpper || c.isLower) = false
  rw [hupper, hlower]
  rfl

/-- What a token of this kind starts with. -/
def TokenKind.StartsWith (k : TokenKind) (c : Char) : Prop :=
  match k with
  | number | float => c.isDigit = true
  | string => c = '"'
  | operator => c ∈ '!' :: singleOperators
  | leftParen | rightParen | leftBrace | rightBrace | semicolon | comma => punctuation? c = some k
  | identifier | declare | branch | otherwise | print | whilst | count | define | call =>
    isLetter c = true

/-- The kinds of strings, operators and punctuation. -/
def markKinds : List TokenKind :=
  [.string, .operator, .leftParen, .rightParen, .leftBrace, .rightBrace, .semicolon, .comma]

theorem mark_of_start (hk : k ∈ markKinds) (h : k.StartsWith c) : c ∈ marks := by
  have hpunctuation : ∀ k, punctuation? c = some k → c ∈ marks := by
    intro k h
    unfold punctuation? at h
    split at h <;> cases h <;> decide
  have hoperator : ∀ c ∈ '!' :: singleOperators, c ∈ marks := by simp [singleOperators, marks]
  simp only [markKinds, List.mem_cons, List.not_mem_nil, or_false] at hk
  rcases hk with rfl | rfl | rfl | rfl | rfl | rfl | rfl | rfl
  · cases (h : c = '"')
    decide
  · exact hoperator c h
  all_goals exact hpunctuation _ h

theorem start_cases (h : k.StartsWith c) : c ∈ marks ∨ c.isDigit = true ∨ isLetter c = true := by
  cases k with
  | number | float => exact .inr (.inl h)
  | identifier | declare | branch | otherwise | print | whilst | count | define | call =>
    exact .inr (.inr h)
  | string | operator | leftParen | rightParen | leftBrace | rightBrace | semicolon | comma =>
    exact .inl (mark_of_start (by decide) h)

theorem keywords_start : ∀ entry ∈ keywords, ∃ c rest, entry.1.toList = c :: rest ∧
    isLetter c = true := by
  intro entry h
  simp only [keywords, List.mem_cons, List.not_mem_nil, or_false] at h
  rcases h with rfl | rfl | rfl | rfl | rfl | rfl | rfl | rfl <;> exact ⟨_, _, rfl, by decide⟩

theorem raw_starts (h : k.Admits lexeme) : ∃ c rest, k.raw lexeme = c :: rest ∧ k.StartsWith c := by
  cases k with
  | identifier =>
    obtain ⟨⟨c, rest, hc, -, rfl⟩, -⟩ := h
    exact ⟨c, rest, rfl, hc⟩
  | number =>
    obtain ⟨hne, hdigits⟩ := h
    obtain ⟨c, rest, rfl⟩ := List.exists_cons_of_ne_nil hne
    exact ⟨c, rest, rfl, hdigits c (.head _)⟩
  | float =>
    obtain ⟨whole, part, hne, hdigits, -, rfl⟩ := h
    obtain ⟨c, rest, rfl⟩ := List.exists_cons_of_ne_nil hne
    exact ⟨c, rest ++ '.' :: part, rfl, hdigits c (.head _)⟩
  | string => exact ⟨'"', lexeme ++ ['"'], rfl, rfl⟩
  | operator =>
    rcases h with h | ⟨c, hc, rfl⟩
    · simp only [doubleOperators, List.mem_cons, List.not_mem_nil, or_false] at h
      rcases h with rfl | rfl | rfl | rfl <;>
        exact ⟨_, _, rfl, show _ ∈ '!' :: singleOperators by decide⟩
    · exact ⟨c, [], rfl, .tail _ hc⟩
  | leftParen | rightParen | leftBrace | rightBrace | semicolon | comma =>
    cases h
    exact ⟨_, _, rfl, rfl⟩
  | declare | branch | otherwise | print | whilst | count | define | call =>
    obtain ⟨word, hword, rfl⟩ := h
    exact keywords_start _ hword

/-! ## The rules of reading, where no keyword starts -/

theorem keyword?_eq_none (h : NoKeyword text) : keyword? text = none := by
  refine List.find?_eq_none.2 fun entry hmem hstarts => ?_
  exact h entry hmem (List.isPrefixOf_iff_prefix.1 hstarts)

/-- Where a keyword starts it is the one that is found. -/
theorem keyword?_of_starts {word : String} (h : (word, k) ∈ keywords) (hstarts : word.toList <+: text) :
    keyword? text = some (word, k) := by
  rcases hfound : keyword? text with _ | ⟨word', l⟩
  · exact absurd hstarts (noKeyword hfound _ h)
  · rw [keywords_agree h (keyword?_mem hfound) hstarts (keyword?_starts hfound)]

theorem operator?_eq_none (h : c ∉ marks) : operator? (c :: rest) = none := by
  unfold operator?
  split <;> simp_all [marks]

theorem punctuation?_eq_none (h : c ∉ marks) : punctuation? c = none := by
  unfold punctuation?
  split <;> simp_all [marks]

theorem piece_of_no_mark (hnone : NoKeyword (c :: rest)) (h : c ∉ marks) :
    piece c rest = if c.isDigit then numberPiece (c :: rest)
      else if isLetter c then .token .identifier ((c :: rest).takeWhile isWordChar) else .stray c := by
  have hquote : c ≠ '"' := by
    rintro rfl
    exact h (by decide)
  simp only [piece, keyword?_eq_none hnone, if_neg hquote, operator?_eq_none h, punctuation?_eq_none h]

theorem piece_digit (hnone : NoKeyword (c :: rest)) (h : c.isDigit = true) :
    piece c rest = numberPiece (c :: rest) := by
  rw [piece_of_no_mark hnone (digit_no_mark h), if_pos h]

theorem piece_letter (hnone : NoKeyword (c :: rest)) (h : isLetter c = true) :
    piece c rest = .token .identifier ((c :: rest).takeWhile isWordChar) := by
  have hdigit : ¬ c.isDigit = true := fun hd => by
    rw [digit_no_letter hd] at h
    cases h
  rw [piece_of_no_mark hnone (letter_no_mark h), if_neg hdigit, if_pos h]

theorem piece_quote (hnone : NoKeyword ('"' :: rest)) : piece '"' rest = stringPiece rest := by
  simp only [piece, keyword?_eq_none hnone, if_true]

theorem piece_operator (hnone : NoKeyword (c :: rest)) (hc : c ∈ '!' :: singleOperators)
    (h : operator? (c :: rest) = some lexeme) : piece c rest = .token .operator lexeme := by
  have hquote : c ≠ '"' := by
    rintro rfl
    exact absurd hc (by decide)
  simp only [piece, keyword?_eq_none hnone, if_neg hquote, h]

theorem piece_punctuation (hnone : NoKeyword (c :: rest)) (h : punctuation? c = some k) :
    piece c rest = .token k [c] := by
  have hmark : c ≠ '"' ∧ operator? (c :: rest) = none := by
    unfold punctuation? at h
    split at h <;> cases h <;> exact ⟨by decide, rfl⟩
  simp only [piece, keyword?_eq_none hnone, if_neg hmark.1, hmark.2, h]

/-! ## Lexemes that end where they should -/

theorem takeWhile_stops (h : ∀ c ∈ lexeme, p c = true)
    (hafter : ∀ c, after.head? = some c → p c = false) : (lexeme ++ after).takeWhile p = lexeme := by
  rw [List.takeWhile_append_of_pos h]
  have hstop : after.takeWhile p = [] := by
    cases after with
    | nil => rfl
    | cons c rest => simp [hafter c rfl]
  rw [hstop, List.append_nil]

theorem stringPiece_closed (h : '"' ∉ lexeme) :
    stringPiece (lexeme ++ '"' :: after) = .token .string lexeme := by
  have hrun : (lexeme ++ '"' :: after).takeWhile (· != '"') = lexeme :=
    takeWhile_stops (fun c hc => bne_iff_ne.2 (ne_of_mem_of_not_mem hc h)) (by simp)
  rw [stringPiece, if_pos (by simp), hrun]

theorem numberPiece_number (h : TokenKind.number.Admits lexeme)
    (hrun : text.takeWhile isNumberChar = lexeme) : numberPiece text = .token .number lexeme := by
  have hdrop : lexeme.dropWhile Char.isDigit = [] := by
    rw [← List.append_nil lexeme, List.dropWhile_append_of_pos h.2]
    rfl
  simp only [numberPiece, hrun, hdrop]

theorem numberPiece_float (h : TokenKind.float.Admits lexeme)
    (hrun : text.takeWhile isNumberChar = lexeme) : numberPiece text = .token .float lexeme := by
  obtain ⟨whole, part, -, hwhole, hpart, rfl⟩ := h
  have hdrop : (whole ++ '.' :: part).dropWhile Char.isDigit = '.' :: part := by
    rw [List.dropWhile_append_of_pos hwhole]
    rfl
  have hdot : '.' ∉ part := fun hmem => absurd (hpart _ hmem) (by decide)
  simp only [numberPiece, hrun, hdrop, if_neg hdot]

theorem operator?_of_admits (h : TokenKind.operator.Admits lexeme)
    (hpreferred : ∀ c d, lexeme = [c] → after.head? = some d → [c, d] ∉ doubleOperators) :
    operator? (lexeme ++ after) = some lexeme := by
  rcases h with h | ⟨c, hc, rfl⟩
  · simp only [doubleOperators, List.mem_cons, List.not_mem_nil, or_false] at h
    rcases h with rfl | rfl | rfl | rfl <;> rfl
  · have hsingle : ∀ rest, after = '=' :: rest → [c, '='] ∉ doubleOperators := by
      rintro rest rfl
      exact hpreferred c '=' rfl rfl
    rw [List.singleton_append]
    unfold operator?
    split
    case h_5 heq =>
      cases heq
      exact if_pos hc
    all_goals simp_all [doubleOperators]

/-! ## The token at the head -/

/-- The kinds that no keyword has keep keywords off the head of the text. -/
theorem Preferred.noKeyword (h : Preferred k lexeme after) (hk : ∀ entry ∈ keywords, entry.2 ≠ k) :
    NoKeyword (k.raw lexeme ++ after) := by
  rintro ⟨word, l⟩ hmem hstarts
  exact hk _ hmem (h.keyword word l hmem hstarts).1.symm

theorem run_of_admits (hk : k = .number ∨ k = .float) (h : k.Admits lexeme)
    (hpreferred : Preferred k lexeme after) : (lexeme ++ after).takeWhile isNumberChar = lexeme := by
  refine takeWhile_stops (fun c hc => isNumberChar_iff.2 ?_) fun c hc => ?_
  · rcases hk with rfl | rfl
    · exact .inl (h.2 c hc)
    · obtain ⟨whole, part, -, hwhole, hpart, rfl⟩ := h
      rcases List.mem_append.1 hc with hc | hc
      · exact .inl (hwhole c hc)
      · rcases List.mem_cons.1 hc with rfl | hc
        · exact .inr rfl
        · exact .inl (hpart c hc)
  · obtain ⟨hdigit, hdot⟩ := hpreferred.number hk c hc
    simp [isNumberChar, hdigit, hdot]

theorem isWordChar_of_admits (h : TokenKind.identifier.Admits lexeme) :
    ∀ c ∈ lexeme, isWordChar c = true := by
  obtain ⟨⟨c, rest, hc, hrest, rfl⟩, -⟩ := h
  intro d hd
  rcases List.mem_cons.1 hd with rfl | hd
  · exact isWordChar_of_isLetter hc
  · exact hrest d hd

/-- The token that fits is read. -/
theorem piece_of_fits (h : Fits k lexeme (c :: rest)) : piece c rest = .token k lexeme := by
  obtain ⟨hadmits, after, htext, hpreferred⟩ := h
  obtain ⟨c', rest', hraw, hstart⟩ := raw_starts hadmits
  obtain ⟨rfl, hrest⟩ : c = c' ∧ rest = rest' ++ after := by simpa [hraw] using htext
  -- keywords are tried first, and none starts here unless the token is one
  have hnone : (∀ entry ∈ keywords, entry.2 ≠ k) → NoKeyword (c :: rest) := fun hk =>
    htext ▸ hpreferred.noKeyword hk
  cases k with
  | number =>
    rw [piece_digit (hnone (by decide)) hstart, htext]
    exact numberPiece_number hadmits (run_of_admits (.inl rfl) hadmits hpreferred)
  | float =>
    rw [piece_digit (hnone (by decide)) hstart, htext]
    exact numberPiece_float hadmits (run_of_admits (.inr rfl) hadmits hpreferred)
  | identifier =>
    have hrun := takeWhile_stops (isWordChar_of_admits hadmits) (hpreferred.identifier rfl)
    rw [piece_letter (hnone (by decide)) hstart, htext]
    exact congrArg (Piece.token .identifier) hrun
  | string =>
    cases (hstart : c = '"')
    have hlexeme : lexeme ++ ['"'] = rest' := (List.cons.inj hraw).2
    rw [piece_quote (hnone (by decide)), hrest, ← hlexeme, List.append_assoc]
    exact stringPiece_closed hadmits
  | operator =>
    have hsymbol : operator? (c :: rest) = some lexeme :=
      htext ▸ operator?_of_admits hadmits (hpreferred.operator rfl)
    exact piece_operator (hnone (by decide)) hstart hsymbol
  | leftParen | rightParen | leftBrace | rightBrace | semicolon | comma =>
    have hlexeme : lexeme = [c] := by
      cases hadmits
      rw [(List.cons.inj hraw).1]
    rw [piece_punctuation (hnone (by decide)) hstart, hlexeme]
  | declare | branch | otherwise | print | whilst | count | define | call =>
    obtain ⟨word, hword, rfl⟩ := hadmits
    have hstarts : word.toList <+: c :: rest := by
      rw [htext, (raw_of_keyword hword).1]
      exact List.prefix_append _ _
    simp only [piece, keyword?_of_starts hword hstarts]

end

end MarathiScript
