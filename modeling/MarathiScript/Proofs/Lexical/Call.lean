/-
  MarathiScript.Proofs.Lexical.Call — what one call reads.

  A call passes blanks and looks at what stands behind them. It finds the end of the text, a token
  that fits there, or one of three faults: a character with which no token starts (`Stray`), a
  quote that nothing closes, or a run of digits and dots with a second dot (`TwoDots`). Each of the
  five says what the call returns and which text it passes (`Cursor.Reads`), and there is no
  other outcome (`Cursor.next_taken`).

  A cursor that has passed the text `passed` of a source is `Behind` it: the text, the offset and
  the line of the cursor follow from `passed`. A cursor gets on only by passing the head of the
  text that is left (`Cursor.Behind.advance`), so a call takes a cursor that is behind a text to
  one that is behind a longer text, whatever it returns (`Cursor.Behind.next`).
-/

import MarathiScript.Proofs.Lexical.Spacing

namespace MarathiScript

open Text

/-! ## The faults -/

/-- No token starts with the character where `rest` follows it. -/
structure Stray (c : Char) (rest : List Char) : Prop where
  blank : isBlank c = false
  letter : isLetter c = false
  digit : c.isDigit = false
  mark : c ∈ marks → c = '!'
  bang : c = '!' → rest.head? ≠ some '='

/-- The run is `before`, digits with one dot after the first of them, then a second dot and more. -/
def TwoDots (before run : List Char) : Prop :=
  ∃ whole part more, whole ≠ [] ∧ (∀ c ∈ whole, c.isDigit = true) ∧ (∀ c ∈ part, c.isDigit = true) ∧
    before = whole ++ '.' :: part ∧ run = before ++ '.' :: more

section

variable {c : Char} {rest : List Char}

theorem operator?_none (h : operator? (c :: rest) = none) :
    c ∉ singleOperators ∧ (c = '!' → rest.head? ≠ some '=') := by
  unfold operator? at h
  split at h
  case h_5 _ rest' _ hbang _ _ heq =>
    cases heq
    split at h
    · cases h
    · rename_i hc
      refine ⟨hc, fun hc' hhead => ?_⟩
      obtain ⟨tail, rfl⟩ := List.head?_eq_some_iff.1 hhead
      exact hbang tail hc' rfl
  case h_6 heq => cases heq
  all_goals cases h

theorem punctuation?_none (h : punctuation? c = none) :
    c ∉ ['(', ')', '\x7b', '\x7d', ';', ','] := by
  unfold punctuation? at h
  split at h <;> simp_all

/-- A piece that is no token is found by one of three rules: that of strings, that of numbers, or the
last one. -/
theorem piece_cases (c : Char) (rest : List Char) :
    (∃ k lexeme, piece c rest = .token k lexeme) ∨ (c = '"' ∧ piece c rest = stringPiece rest) ∨
      (c.isDigit = true ∧ piece c rest = numberPiece (c :: rest)) ∨
      (piece c rest = .stray c ∧ c ≠ '"' ∧ operator? (c :: rest) = none ∧ punctuation? c = none ∧
        c.isDigit = false ∧ isLetter c = false) := by
  unfold piece
  split
  · exact .inl ⟨_, _, rfl⟩
  split
  · exact .inr (.inl ⟨‹_›, rfl⟩)
  split
  · exact .inl ⟨_, _, rfl⟩
  split
  · exact .inl ⟨_, _, rfl⟩
  split
  · exact .inr (.inr (.inl ⟨‹_›, rfl⟩))
  split
  · exact .inl ⟨_, _, rfl⟩
  · exact .inr (.inr (.inr ⟨rfl, ‹_›, ‹_›, ‹_›, by simpa using ‹¬ c.isDigit = true›,
      by simpa using ‹¬ isLetter c = true›⟩))

/-- A string that is no token is not closed. -/
theorem stringPiece_cases (rest : List Char) :
    (∃ k lexeme, stringPiece rest = .token k lexeme) ∨
      (stringPiece rest = .unclosed ∧ '"' ∉ rest) := by
  unfold stringPiece
  split
  · exact .inl ⟨_, _, rfl⟩
  · exact .inr ⟨rfl, ‹_›⟩

/-- A number that is no token has two dots. -/
theorem numberPiece_cases (hc : c.isDigit = true) :
    (∃ k lexeme, numberPiece (c :: rest) = .token k lexeme) ∨
      ∃ before run, numberPiece (c :: rest) = .dotted run before ∧
        run = (c :: rest).takeWhile isNumberChar ∧ TwoDots before run := by
  have hrun : ∀ d ∈ (c :: rest).takeWhile isNumberChar, isNumberChar d = true :=
    fun d hd => of_mem_takeWhile hd
  have hhead : (c :: rest).takeWhile isNumberChar = c :: rest.takeWhile isNumberChar :=
    List.takeWhile_cons_of_pos (isNumberChar_iff.2 (.inl hc))
  unfold numberPiece
  dsimp only
  generalize (c :: rest).takeWhile isNumberChar = run at hrun hhead
  split
  · exact .inl ⟨_, _, rfl⟩
  rename_i x tail hdrop
  split
  · rename_i hdot
    obtain ⟨rfl, hsplit⟩ := dot_of_dropWhile hrun hdrop
    have htail : ∀ d ∈ tail, isNumberChar d = true := fun d hd =>
      hrun d (hsplit ▸ List.mem_append_right _ (.tail _ hd))
    -- behind the digits after the first dot comes the second one
    rcases hmore : tail.dropWhile Char.isDigit with _ | ⟨y, more⟩
    · have hdigits : tail.takeWhile Char.isDigit = tail := by
        simpa [hmore] using tail.takeWhile_append_dropWhile (p := Char.isDigit)
      have hdigit : Char.isDigit '.' = true := of_mem_takeWhile (hdigits.symm ▸ hdot)
      cases hdigit
    · obtain ⟨rfl, hsplit'⟩ := dot_of_dropWhile htail hmore
      refine .inr ⟨_, run, rfl, rfl, run.takeWhile Char.isDigit, tail.takeWhile Char.isDigit, more, ?_,
        fun d hd => of_mem_takeWhile hd, fun d hd => of_mem_takeWhile hd, rfl, ?_⟩
      · rw [hhead, List.takeWhile_cons_of_pos hc]
        exact List.cons_ne_nil _ _
      · rw [List.append_assoc, List.cons_append, ← hsplit']
        exact hsplit
  · exact .inl ⟨_, _, rfl⟩

theorem stray_of_piece (hblank : isBlank c = false) (hquote : c ≠ '"') (ho : operator? (c :: rest) = none)
    (hp : punctuation? c = none) (hdigit : c.isDigit = false) (hletter : isLetter c = false) :
    Stray c rest where
  blank := hblank
  letter := hletter
  digit := hdigit
  mark := by
    intro hmark
    have hcases : c = '"' ∨ c = '!' ∨ c ∈ singleOperators ∨ c ∈ ['(', ')', '\x7b', '\x7d', ';', ','] := by
      simpa only [marks, singleOperators, List.mem_cons, List.not_mem_nil, or_false, or_assoc] using hmark
    rcases hcases with h | h | h | h
    · exact absurd h hquote
    · exact h
    · exact absurd h (operator?_none ho).1
    · exact absurd h (punctuation?_none hp)
  bang := (operator?_none ho).2

end

/-! ## One call -/

/-- What a call returns that finds the cursor behind the blanks, and the text that it passes. -/
inductive Cursor.Reads (c : Cursor) : List Char → Except ScanError (Option Token) → Prop
  | finish : c.rest = [] → Reads c [] (.ok none)
  | token {t : Token} : Fits t.kind t.lexeme.toList c.rest → t.offset = c.offset →
      Reads c t.raw (.ok (some t))
  | stray {ch : Char} {rest : List Char} : c.rest = ch :: rest → Stray ch rest →
      Reads c [] (.error (.unexpectedCharacter ch c.offset c.line))
  | unclosed {rest : List Char} : c.rest = '"' :: rest → '"' ∉ rest →
      Reads c c.rest (.error (.unterminatedString c.offset c.line))
  | dotted {before : List Char} {run : String} : run.toList = c.rest.takeWhile isNumberChar →
      TwoDots before run.toList →
        Reads c run.toList (.error (.malformedNumber run (c.offset + byteLength before) c.line))

namespace Cursor

variable {c : Cursor} {ch : Char} {rest : List Char}

theorem advance_nil (c : Cursor) : c.advance [] = c := by simp [advance]

theorem skipBlanks_head (h : c.skipBlanks.rest = ch :: rest) : isBlank ch = false := by
  have hdrop : c.skipBlanks.rest = c.rest.dropWhile isBlank := by
    have hsplit : c.rest = c.rest.takeWhile isBlank ++ c.rest.dropWhile isBlank :=
      List.takeWhile_append_dropWhile.symm
    exact (advance_of_rest hsplit).1
  exact of_head?_dropWhile (by rw [← hdrop, h]; rfl)

/-- What is taken is read, and passed, at the head of the text. -/
def Taken (c : Cursor) (outcome : Except ScanError (Option Token) × Cursor) : Prop :=
  ∃ passed, c.Reads passed outcome.1 ∧ outcome.2 = c.advance passed ∧ passed <+: c.rest

theorem take_token {k : TokenKind} {lexeme : List Char} (h : Fits k lexeme c.rest) :
    c.Taken (c.take (.token k lexeme)) := by
  have hlist : (String.ofList lexeme).toList = lexeme := String.toList_ofList
  let t : Token := ⟨k, String.ofList lexeme, c.offset⟩
  have hraw : t.raw = k.raw lexeme := congrArg k.raw hlist
  have hfits : Fits t.kind t.lexeme.toList c.rest := hlist.symm ▸ h
  obtain ⟨-, after, hafter, -⟩ := h
  refine ⟨t.raw, .token hfits rfl, congrArg c.advance hraw.symm, after, ?_⟩
  rw [hraw, hafter]

theorem take_dotted {before : List Char}
    (h : TwoDots before (c.rest.takeWhile isNumberChar)) :
    c.Taken (c.take (.dotted (c.rest.takeWhile isNumberChar) before)) := by
  have hlist : (String.ofList (c.rest.takeWhile isNumberChar)).toList = c.rest.takeWhile isNumberChar :=
    String.toList_ofList
  refine ⟨_, .dotted hlist (hlist.symm ▸ h), congrArg c.advance hlist.symm, ?_⟩
  rw [hlist]
  exact List.takeWhile_prefix _

/-- What stands at the head of a text behind blanks is taken, as a token or as a fault. -/
theorem take_piece (hrest : c.rest = ch :: rest) (hblank : isBlank ch = false) :
    c.Taken (c.take (piece ch rest)) := by
  by_cases htoken : ∃ k lexeme, piece ch rest = .token k lexeme
  · obtain ⟨k, lexeme, hpiece⟩ := htoken
    rw [hpiece]
    exact take_token (hrest ▸ piece_fits hpiece)
  rcases piece_cases ch rest with h | ⟨rfl, hpiece⟩ | ⟨hdigit, hpiece⟩ |
    ⟨hpiece, hquote, hoperator, hpunctuation, hdigit, hletter⟩
  · exact absurd h htoken
  · rw [hpiece] at htoken ⊢
    obtain ⟨hunclosed, hquote⟩ := (stringPiece_cases rest).resolve_left htoken
    rw [hunclosed]
    exact ⟨c.rest, .unclosed hrest hquote, rfl, List.prefix_rfl⟩
  · rw [hpiece] at htoken ⊢
    obtain ⟨before, run, hdotted, rfl, hdots⟩ := (numberPiece_cases hdigit).resolve_left htoken
    rw [hdotted, ← hrest]
    exact take_dotted (hrest ▸ hdots)
  · rw [hpiece]
    refine ⟨[], .stray hrest ?_, (advance_nil _).symm, List.nil_prefix⟩
    exact stray_of_piece hblank hquote hoperator hpunctuation hdigit hletter

/-- A call passes the blanks and takes what stands behind them. -/
theorem next_taken (c : Cursor) : c.skipBlanks.Taken c.next := by
  unfold next
  split
  · exact ⟨[], .finish ‹_›, (advance_nil _).symm, List.nil_prefix⟩
  · exact take_piece ‹_› (skipBlanks_head ‹_›)

end Cursor

/-! ## The text that is passed -/

/-- The cursor is behind the text `passed` of the source. -/
structure Cursor.Behind (source passed : List Char) (c : Cursor) : Prop where
  text : source = passed ++ c.rest
  offset : c.offset = byteLength passed
  line : c.line = 1 + passed.count '\n'

namespace Cursor.Behind

variable {source passed text : List Char} {c : Cursor}

theorem start (source : String) : Behind source.toList [] (.ofText source) := ⟨rfl, rfl, rfl⟩

theorem advance (h : c.Behind source passed) (htext : text <+: c.rest) :
    (c.advance text).Behind source (passed ++ text) := by
  obtain ⟨after, hafter⟩ := htext
  obtain ⟨hrest, hoffset⟩ := advance_of_rest hafter.symm
  refine ⟨?_, ?_, ?_⟩
  · rw [hrest, h.text, ← hafter, List.append_assoc]
  · rw [hoffset, h.offset, byteLength_append]
  · show c.line + text.count '\n' = _
    rw [h.line, List.count_append]
    omega

theorem skipBlanks (h : c.Behind source passed) :
    ∃ blanks, Blank blanks ∧ c.skipBlanks.Behind source (passed ++ blanks) :=
  ⟨_, blank_takeWhile _, h.advance (List.takeWhile_prefix _)⟩

/-- After a call the cursor is behind what it was behind, the blanks and what was read. -/
theorem next (h : c.Behind source passed) :
    ∃ blanks text, Blank blanks ∧ c.skipBlanks.Behind source (passed ++ blanks) ∧
      c.skipBlanks.Reads text c.next.1 ∧ c.next.2.Behind source (passed ++ blanks ++ text) := by
  obtain ⟨blanks, hblank, hskip⟩ := h.skipBlanks
  obtain ⟨text, hreads, hnext, htext⟩ := c.next_taken
  refine ⟨blanks, text, hblank, hskip, hreads, ?_⟩
  rw [hnext]
  exact hskip.advance htext

end Cursor.Behind

end MarathiScript
