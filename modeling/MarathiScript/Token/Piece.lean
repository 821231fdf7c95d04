/-
  MarathiScript.Token.Piece — what stands at the head of a text.

  `piece c rest` looks at a text that starts with the character `c`, which is no blank. It
  is a token, or one of the three faults a source can have. The rules, in order:
  - A keyword that the text starts with, whatever follows it.
  - A quote opens a string that runs to the next quote; there are no escapes.
  - An operator, two characters long where that is possible, or a punctuation mark.
  - A number is the whole run of digits and dots; two dots in it are a fault.
  - An identifier is a letter and the word characters after it.
  A token takes up the head of the text that it was found in, and at least one character
  of it (`piece_token`).
-/

import MarathiScript.Token
import MarathiScript.Text.Letters

namespace MarathiScript

open Text

inductive Piece where
  | token (kind : TokenKind) (lexeme : List Char)
  /-- A character with which no token starts. -/
  | stray (c : Char)
  /-- A quote that nothing closes. -/
  | unclosed
  /-- A run of digits and dots, and the part of it before its second dot. -/
  | dotted (run before : List Char)
  deriving DecidableEq, Repr

/-- The blanks that may stand between tokens. -/
def isBlank (c : Char) : Bool := c == ' ' || c == '\t' || c == '\n' || c == '\r'

def isNumberChar (c : Char) : Bool := c.isDigit || c == '.'

def keyword? (text : List Char) : Option (String × TokenKind) :=
  keywords.find? fun entry => entry.1.toList.isPrefixOf text

/-- The operator that a text starts with, the longer one first. -/
def operator? : List Char → Option (List Char)
  | '=' :: '=' :: _ => some ['=', '=']
  | '!' :: '=' :: _ => some ['!', '=']
  | '<' :: '=' :: _ => some ['<', '=']
  | '>' :: '=' :: _ => some ['>', '=']
  | c :: _ => if c ∈ ['<', '>', '=', '+', '-', '*', '/'] then some [c] else none
  | [] => none

def punctuation? : Char → Option TokenKind
  | '(' => some .leftParen
  | ')' => some .rightParen
  | '\x7b' => some .leftBrace
  | '\x7d' => some .rightBrace
  | ';' => some .semicolon
  | ',' => some .comma
  | _ => none

/-- The string that an opening quote before `rest` starts. -/
def stringPiece (rest : List Char) : Piece :=
  if '"' ∈ rest then .token .string (rest.takeWhile (· != '"')) else .unclosed

/-- The number that starts `text`. -/
def numberPiece (text : List Char) : Piece :=
  let run := text.takeWhile isNumberChar
  let whole := run.takeWhile Char.isDigit
  match run.dropWhile Char.isDigit with
  | [] => .token .number run
  | _ :: tail =>
    if '.' ∈ tail then .dotted run (whole ++ '.' :: tail.takeWhile Char.isDigit)
    else .token .float run

/-- The token or the fault at the head of the text `c :: rest`. -/
def piece (c : Char) (rest : List Char) : Piece :=
  match keyword? (c :: rest) with
  | some (word, kind) => .token kind word.toList
  | none =>
    if c = '"' then stringPiece rest else
    match operator? (c :: rest) with
    | some symbol => .token .operator symbol
    | none =>
      match punctuation? c with
      | some kind => .token kind [c]
      | none =>
        if c.isDigit then numberPiece (c :: rest)
        else if isLetter c then .token .identifier ((c :: rest).takeWhile isWordChar)
        else .stray c

/-! ## What a piece takes up -/

theorem keyword?_mem {text : List Char} {word : String} {kind : TokenKind}
    (h : keyword? text = some (word, kind)) : (word, kind) ∈ keywords :=
  List.mem_of_find?_eq_some h

theorem keyword?_starts {text : List Char} {word : String} {kind : TokenKind}
    (h : keyword? text = some (word, kind)) : word.toList <+: text := by
  simpa using List.find?_some h

theorem raw_of_keyword {word : String} {kind : TokenKind} (h : (word, kind) ∈ keywords) :
    kind.raw word.toList = word.toList ∧ word.toList ≠ [] := by
  simp only [keywords, List.mem_cons, Prod.mk.injEq, List.not_mem_nil, or_false] at h
  rcases h with ⟨rfl, rfl⟩ | ⟨rfl, rfl⟩ | ⟨rfl, rfl⟩ | ⟨rfl, rfl⟩ | ⟨rfl, rfl⟩ | ⟨rfl, rfl⟩ |
    ⟨rfl, rfl⟩ | ⟨rfl, rfl⟩ <;> exact ⟨rfl, by decide⟩

theorem operator?_starts {text symbol : List Char} (h : operator? text = some symbol) :
    symbol <+: text ∧ symbol ≠ [] := by
  unfold operator? at h
  split at h <;> simp_all [List.prefix_cons_iff] <;> grind

theorem raw_of_punctuation {c : Char} {kind : TokenKind} (h : punctuation? c = some kind) :
    kind.raw [c] = [c] := by
  unfold punctuation? at h
  split at h <;> simp_all <;> subst h <;> rfl

theorem takeWhile_append_of_mem {p : Char → Bool} {c : Char} {text : List Char} (hc : c ∈ text)
    (hp : ∀ d, p d = false ↔ d = c) : text.takeWhile p ++ [c] <+: text := by
  induction text with
  | nil => cases hc
  | cons d rest ih =>
    by_cases h : p d = true
    · have : c ≠ d := by rintro rfl; simp [(hp _).2 rfl] at h
      have := ih (by simpa [this] using hc)
      simpa [List.takeWhile_cons, h] using this
    · have := (hp d).1 (by simpa using h)
      subst this
      simp [h]

theorem stringPiece_starts {rest lexeme : List Char} {kind : TokenKind}
    (h : stringPiece rest = .token kind lexeme) : kind.raw lexeme <+: '"' :: rest := by
  unfold stringPiece at h
  split at h
  · rename_i hq
    simp only [Piece.token.injEq] at h
    obtain ⟨rfl, rfl⟩ := h
    simpa [TokenKind.raw] using takeWhile_append_of_mem (p := (· != '"')) hq (by simp)
  · cases h

theorem numberPiece_token {text lexeme : List Char} {kind : TokenKind}
    (h : numberPiece text = .token kind lexeme) :
    lexeme = text.takeWhile isNumberChar ∧ kind.raw lexeme = lexeme := by
  unfold numberPiece at h
  simp only at h
  split at h
  · simp only [Piece.token.injEq] at h; obtain ⟨rfl, rfl⟩ := h; exact ⟨rfl, rfl⟩
  · split at h
    · cases h
    · simp only [Piece.token.injEq] at h; obtain ⟨rfl, rfl⟩ := h; exact ⟨rfl, rfl⟩

/-- A token takes up the head of the text that it was found in, and at least one character of it. -/
theorem piece_token {c : Char} {rest lexeme : List Char} {kind : TokenKind}
    (h : piece c rest = .token kind lexeme) :
    kind.raw lexeme <+: c :: rest ∧ kind.raw lexeme ≠ [] := by
  unfold piece at h
  split at h
  · rename_i hk
    simp only [Piece.token.injEq] at h
    obtain ⟨rfl, rfl⟩ := h
    rw [(raw_of_keyword (keyword?_mem hk)).1]
    exact ⟨keyword?_starts hk, (raw_of_keyword (keyword?_mem hk)).2⟩
  · split at h
    · rename_i hq
      subst hq
      refine ⟨stringPiece_starts h, ?_⟩
      unfold stringPiece at h
      split at h <;> simp_all
      obtain ⟨rfl, rfl⟩ := h
      simp [TokenKind.raw]
    · split at h
      · rename_i ho
        simp only [Piece.token.injEq] at h
        obtain ⟨rfl, rfl⟩ := h
        exact operator?_starts ho
      · split at h
        · rename_i hp
          simp only [Piece.token.injEq] at h
          obtain ⟨rfl, rfl⟩ := h
          simp [raw_of_punctuation hp]
        · split at h
          · rename_i hd
            obtain ⟨rfl, hr⟩ := numberPiece_token h
            rw [hr]
            refine ⟨List.takeWhile_prefix _, ?_⟩
            simp [isNumberChar, hd]
          · split at h
            · rename_i hl
              simp only [Piece.token.injEq] at h
              obtain ⟨rfl, rfl⟩ := h
              refine ⟨List.takeWhile_prefix _, ?_⟩
              simp [TokenKind.raw, isWordChar_of_isLetter hl]
            · cases h

end MarathiScript
