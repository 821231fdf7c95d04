/-
  MarathiScript.Proofs.Lexical.Spacing — reading undoes writing, whatever the blanks are.

  A `Word` is a kind with a lexeme of its form. Words are written one after the other with
  blanks after each, at least one before the next word (`Spaced`). Blanks end names, numbers and
  operators, and seven of the keywords hold no blank, so nothing that is read goes on into the
  next word. The eighth is two words with one space between them: a name `He` and a name
  that begins with `aahe` must not stand so (`Joined`).

  Proved: such a text is read as its words, each at the byte at which it was written
  (`scan_spaced`). Every word fits where it stands (`Spaced.preferred`), what fits is read
  (`piece_of_fits`), and the rest is an induction over the words.
-/

import MarathiScript.Proofs.Lexical.Choice
import MarathiScript.Proofs.Lexical.Scan

namespace MarathiScript

open Text

/-- A kind with a lexeme of its form. -/
structure Word where
  kind : TokenKind
  lexeme : String
  admitted : kind.Admits lexeme.toList

namespace Word

def raw (w : Word) : List Char := w.kind.raw w.lexeme.toList

/-- Two names that are read as one keyword when these blanks stand between them. -/
structure Joined (w : Word) (blanks : List Char) (next : Word) : Prop where
  kind : w.kind = .identifier
  lexeme : w.lexeme = "He"
  blanks : blanks = [' ']
  nextKind : next.kind = .identifier
  nextLexeme : "aahe".toList <+: next.lexeme.toList

end Word

/-- Words in the order in which they are written, each with the blanks after it. -/
abbrev Line := List (Word × List Char)

namespace Line

def text (line : Line) : List Char := line.flatMap fun (w, blanks) => w.raw ++ blanks

/-- The words as tokens, when the line is written after `before`. -/
def tokens (before : List Char) : Line → List Token
  | [] => []
  | (w, blanks) :: line =>
    ⟨w.kind, w.lexeme, byteLength before⟩ :: tokens (before ++ (w.raw ++ blanks)) line

/-- Blanks stand between any two words, and no two names join. -/
inductive Spaced : Line → Prop
  | nil : Spaced []
  | last {w : Word} {blanks : List Char} : Blank blanks → Spaced [(w, blanks)]
  | cons {w v : Word} {blanks more : List Char} {line : Line} : Blank blanks → blanks ≠ [] →
      ¬ w.Joined blanks v → Spaced ((v, more) :: line) → Spaced ((w, blanks) :: (v, more) :: line)

end Line

/-! ## Blanks end what is read -/

section

variable {c : Char} {text rest lexeme after : List Char} {k : TokenKind}

theorem declare_mem : ("He aahe", .declare) ∈ keywords := .head _

theorem isBlank_cases (h : isBlank c = true) : c = ' ' ∨ c = '\t' ∨ c = '\n' ∨ c = '\r' := by
  simpa [isBlank, or_assoc] using h

/-- A blank belongs to no name, number or operator. -/
theorem blank_apart (h : isBlank c = true) :
    isWordChar c = false ∧ c.isDigit = false ∧ c ≠ '.' ∧ c ≠ '=' := by
  rcases isBlank_cases h with rfl | rfl | rfl | rfl <;> decide

theorem nonblank_of_start (h : k.StartsWith c) : isBlank c = false := by
  by_cases hc : isBlank c = true
  · have hapart : c ∉ marks ∧ c.isDigit = false ∧ isLetter c = false := by
      rcases isBlank_cases hc with rfl | rfl | rfl | rfl <;> decide
    obtain ⟨hmark, hdigit, hletter⟩ := hapart
    rcases start_cases h with h | h | h
    · exact absurd h hmark
    · rw [hdigit] at h
      cases h
    · rw [hletter] at h
      cases h
  · simpa using hc

/-- The text is at its end or goes on with a blank. -/
def Breaks (text : List Char) : Prop := ∀ c, text.head? = some c → isBlank c = true

/-- What holds no blank and starts a text does not reach beyond the first blank. -/
theorem prefix_of_breaks {word : List Char} (hword : ∀ c ∈ word, isBlank c = false)
    (hafter : Breaks after) (h : word <+: text ++ after) : word <+: text := by
  rcases List.prefix_or_prefix_of_prefix h (List.prefix_append text after) with hp | ⟨tail, rfl⟩
  · exact hp
  · cases tail with
    | nil => simp
    | cons c tail =>
      obtain ⟨more, rfl⟩ := (List.prefix_append_right_inj text).1 h
      have hc : isBlank c = true := hafter c rfl
      rw [hword c (by simp)] at hc
      cases hc

/-- Only names and keywords start with a letter. -/
theorem name_or_keyword (h : k.Admits lexeme) (hraw : k.raw lexeme = c :: rest) (hc : isLetter c = true) :
    k.raw lexeme = lexeme ∧ (k = .identifier ∨ ∃ word, (word, k) ∈ keywords ∧ lexeme = word.toList) := by
  obtain ⟨d, _, hd, hstart⟩ := raw_starts h
  obtain ⟨rfl, -⟩ := List.cons.inj (hraw.symm.trans hd)
  cases k with
  | identifier => exact ⟨rfl, .inl rfl⟩
  | declare | branch | otherwise | print | whilst | count | define | call => exact ⟨rfl, .inr h⟩
  | number | float =>
    rw [digit_no_letter hstart] at hc
    cases hc
  | string | operator | leftParen | rightParen | leftBrace | rightBrace | semicolon | comma =>
    exact absurd (mark_of_start (by decide) hstart) (letter_no_mark hc)

/-- A token starts with a keyword only if it is that keyword. -/
theorem keyword_of_raw {word : String} {l : TokenKind} (h : k.Admits lexeme)
    (hword : (word, l) ∈ keywords) (hstarts : word.toList <+: k.raw lexeme) :
    k = l ∧ lexeme = word.toList := by
  obtain ⟨c, tail, hc, hletter⟩ := keywords_start _ hword
  obtain ⟨rest, hraw⟩ := hstarts
  rw [hc, List.cons_append] at hraw
  obtain ⟨hself, rfl | ⟨word', hword', rfl⟩⟩ := name_or_keyword h hraw.symm hletter
  · rw [hself, ← List.cons_append, ← hc] at hraw
    exact absurd ⟨rest, hraw⟩ (h.2 _ hword)
  · rw [hself, ← List.cons_append, ← hc] at hraw
    cases keywords_apart _ hword _ hword' ⟨rest, hraw⟩
    exact ⟨rfl, rfl⟩

/-- A keyword that holds no blank does not go on from one token into the next. -/
theorem keyword_of_breaks {word : String} {l : TokenKind} (h : k.Admits lexeme)
    (hword : (word, l) ∈ keywords) (hl : l ≠ .declare) (hafter : Breaks after)
    (hstarts : word.toList <+: k.raw lexeme ++ after) : k = l ∧ lexeme = word.toList := by
  have hall : ∀ entry ∈ keywords, entry.2 ≠ .declare →
      (entry.1.toList.all fun c => !isBlank c) = true := by decide
  have hblank : ∀ c ∈ word.toList, isBlank c = false := by
    intro c hc
    have hnone := List.all_eq_true.1 (hall _ hword hl) c hc
    simpa using hnone
  exact keyword_of_raw h hword (prefix_of_breaks hblank hafter hstarts)

/-- Where a text breaks off after a token the token is preferred, if no declaration starts there. -/
theorem Preferred.of_breaks (h : k.Admits lexeme) (hafter : Breaks after)
    (hdeclare : "He aahe".toList <+: k.raw lexeme ++ after → k = .declare ∧ lexeme = "He aahe".toList) :
    Preferred k lexeme after where
  keyword := by
    intro word l hword hstarts
    by_cases hl : l = .declare
    · subst hl
      have hname : ∀ entry ∈ keywords, entry.2 = .declare → entry.1 = "He aahe" := by decide
      cases hname _ hword rfl
      exact hdeclare hstarts
    · exact keyword_of_breaks h hword hl hafter hstarts
  identifier := fun _ c hc => (blank_apart (hafter c hc)).1
  number := fun _ c hc => ⟨(blank_apart (hafter c hc)).2.1, (blank_apart (hafter c hc)).2.2.1⟩
  operator := by
    intro _ c d _ hd hdouble
    have hequals : ∀ symbol ∈ doubleOperators, symbol.getLast? = some '=' := by decide
    exact (blank_apart (hafter d hd)).2.2.2 (by simpa using hequals _ hdouble)

end

/-! ## Words in a line -/

section

variable {w v : Word} {blanks more after before : List Char} {line : Line}

theorem Blank.breaks (h : Blank blanks) (hne : blanks ≠ []) : Breaks (blanks ++ after) := by
  obtain ⟨c, rest, rfl⟩ := List.exists_cons_of_ne_nil hne
  rintro d hd
  cases hd
  exact h c (.head _)

theorem Breaks.of_blank (h : Blank blanks) : Breaks blanks := fun c hc => h c (List.mem_of_head? hc)

namespace Line

theorem text_cons : text ((w, blanks) :: line) = w.raw ++ (blanks ++ line.text) := by
  simp [text]

namespace Spaced

theorem tail (h : Spaced ((w, blanks) :: line)) : Blank blanks ∧ Spaced line := by
  cases h with
  | last hblank => exact ⟨hblank, .nil⟩
  | cons hblank _ _ hline => exact ⟨hblank, hline⟩

theorem breaks (h : Spaced ((w, blanks) :: line)) : Breaks (blanks ++ line.text) := by
  cases h with
  | last hblank => simpa [text] using Breaks.of_blank hblank
  | cons hblank hne _ _ => exact hblank.breaks hne

/-- A name that stands before `aahe`, with what is between them, does not spell the keyword. -/
theorem name_no_declare (h : Spaced ((w, blanks) :: line)) (hkind : w.kind = .identifier)
    (hlexeme : w.lexeme.toList = ['H', 'e'])
    (hafter : [' ', 'a', 'a', 'h', 'e'] <+: blanks ++ line.text) : False := by
  have hbreak : isBlank 'a' = false := by decide
  cases h with
  | last hblank =>
    have hmem : 'a' ∈ blanks := by
      rw [show text [] = [] from rfl, List.append_nil] at hafter
      exact hafter.subset (by decide)
    rw [hblank _ hmem] at hbreak
    cases hbreak
  | @cons _ v _ more line hblank hne hapart hline =>
    obtain ⟨b, bs, rfl⟩ := List.exists_cons_of_ne_nil hne
    obtain ⟨rfl, hrest⟩ := List.cons_prefix_cons.1 hafter
    -- the first blank is the space of the keyword; a second one would stand for its `a`
    cases bs with
    | cons b bs =>
      obtain ⟨rfl, -⟩ := List.cons_prefix_cons.1 hrest
      rw [hblank 'a' (by simp)] at hbreak
      cases hbreak
    | nil =>
      have hnext : ['a', 'a', 'h', 'e'] <+: text ((v, more) :: line) := hrest
      rw [text_cons] at hnext
      obtain ⟨rest, hraw⟩ := prefix_of_breaks (by simp [isBlank]) hline.breaks hnext
      obtain ⟨hself, hname | ⟨word, hmem, heq⟩⟩ := name_or_keyword v.admitted hraw.symm (by decide)
      · refine hapart ⟨hkind, String.toList_inj.1 hlexeme, rfl, hname, ?_⟩
        exact ⟨rest, hraw.trans hself⟩
      · have hnone : ∀ entry ∈ keywords, ¬ ['a', 'a', 'h', 'e'] <+: entry.1.toList := by decide
        exact hnone _ hmem ⟨rest, hraw.trans (hself.trans heq)⟩

/-- The keyword of two words is not read across two words of a line. -/
theorem no_declare (h : Spaced ((w, blanks) :: line))
    (hstarts : "He aahe".toList <+: w.raw ++ (blanks ++ line.text)) :
    w.kind = .declare ∧ w.lexeme.toList = "He aahe".toList := by
  have hhe : ['H', 'e'] <+: w.raw :=
    prefix_of_breaks (by simp [isBlank]) h.breaks (List.IsPrefix.trans (by decide) hstarts)
  obtain ⟨rest, hraw⟩ := hhe
  obtain ⟨hself, hname | ⟨word, hmem, heq⟩⟩ := name_or_keyword w.admitted hraw.symm (by decide)
  · exfalso
    rw [← hraw] at hstarts
    have hafter : [' ', 'a', 'a', 'h', 'e'] <+: rest ++ (blanks ++ line.text) := by
      simpa using hstarts
    -- a longer name than `He` would have to go on with the space of the keyword
    cases rest with
    | nil => exact h.name_no_declare hname (hself.symm.trans hraw.symm) hafter
    | cons d rest =>
      obtain ⟨rfl, -⟩ := List.cons_prefix_cons.1 hafter
      have hadmits := w.admitted
      rw [hname, ← hself, ← Word.raw, ← hraw] at hadmits
      obtain ⟨⟨c, tail, -, htail, htext⟩, -⟩ := hadmits
      cases htext
      exact absurd (htail ' ' (by simp)) (by decide)
  · have hword : word.toList <+: w.raw ++ (blanks ++ line.text) := by
      rw [← heq, ← hself]
      exact List.prefix_append _ _
    obtain ⟨rfl, hkind⟩ := Prod.mk.inj (keywords_agree hmem declare_mem hword hstarts)
    exact ⟨hkind, heq⟩

theorem preferred (h : Spaced ((w, blanks) :: line)) :
    Preferred w.kind w.lexeme.toList (blanks ++ line.text) :=
  .of_breaks w.admitted h.breaks h.no_declare

end Spaced

end Line

/-- Two names that join start the keyword, whatever follows, so the exception is needed. -/
theorem Word.Joined.keyword (h : w.Joined blanks v) (after : List Char) :
    keyword? (w.raw ++ (blanks ++ (v.raw ++ after))) = some ("He aahe", .declare) := by
  have hraw : ∀ u : Word, u.kind = .identifier → u.raw = u.lexeme.toList := by
    intro u hu
    rw [Word.raw, hu]
    rfl
  obtain ⟨more, hmore⟩ := h.nextLexeme
  refine keyword?_of_starts declare_mem ⟨more ++ after, ?_⟩
  rw [hraw w h.kind, hraw v h.nextKind, h.lexeme, h.blanks, ← hmore]
  simp

end

/-! ## Reading a line -/

namespace Cursor

variable {c : Cursor} {blanks rest : List Char} {k : TokenKind} {lexeme : String}

theorem skipBlanks_blank (hblank : Blank blanks) (hrest : c.rest = blanks ++ rest)
    (hstop : ∀ d, rest.head? = some d → isBlank d = false) :
    c.skipBlanks.rest = rest ∧ c.skipBlanks.offset = c.offset + byteLength blanks := by
  rw [skipBlanks, hrest, takeWhile_stops hblank hstop]
  exact advance_of_rest hrest

theorem next_blank (h : Blank c.rest) : ∃ c', c.next = (.ok none, c') := by
  obtain ⟨hrest, -⟩ := skipBlanks_blank h (List.append_nil c.rest).symm nofun
  exact ⟨c.skipBlanks, by simp only [next, hrest]⟩

/-- A token that fits after blanks is read, at the byte at which it stands. -/
theorem next_fits (hblank : Blank blanks) (hrest : c.rest = blanks ++ (k.raw lexeme.toList ++ rest))
    (hadmits : k.Admits lexeme.toList) (hpreferred : Preferred k lexeme.toList rest) :
    ∃ c', c.next = (.ok (some ⟨k, lexeme, c.offset + byteLength blanks⟩), c') ∧ c'.rest = rest ∧
      c'.offset = c.offset + byteLength blanks + byteLength (k.raw lexeme.toList) := by
  obtain ⟨d, tail, hraw, hstart⟩ := raw_starts hadmits
  have hstop : ∀ e, (k.raw lexeme.toList ++ rest).head? = some e → isBlank e = false := by
    rw [hraw]
    rintro e he
    cases he
    exact nonblank_of_start hstart
  obtain ⟨hskip, hoffset⟩ := skipBlanks_blank hblank hrest hstop
  have hfits : Fits k lexeme.toList (d :: (tail ++ rest)) := ⟨hadmits, rest, by rw [hraw]; rfl, hpreferred⟩
  have hnext : c.next = c.skipBlanks.take (.token k lexeme.toList) := by
    rw [next, hskip, hraw, List.cons_append]
    simp only [piece_of_fits hfits]
  obtain ⟨hleft, hmoved⟩ := advance_of_rest hskip
  refine ⟨_, by rw [hnext, take, hoffset, String.ofList_toList], hleft, ?_⟩
  rw [hmoved, hoffset]

/-- A line is read to its end, whatever was read before it. -/
theorem readAll_spaced {line : Line} (h : line.Spaced) (before : List Char) (hblank : Blank blanks)
    (hrest : c.rest = blanks ++ line.text) (hbefore : c.offset + byteLength blanks = byteLength before)
    (seen : List Token) : c.readAll seen = (seen.reverse ++ line.tokens before, none) := by
  induction line generalizing c blanks before seen with
  | nil =>
    have hend : Blank c.rest := by
      rw [hrest, show Line.text [] = [] from rfl, List.append_nil]
      exact hblank
    obtain ⟨c', hnext⟩ := next_blank hend
    rw [readAll_end hnext, Line.tokens, List.append_nil]
  | cons entry line ih =>
    obtain ⟨w, more⟩ := entry
    obtain ⟨hmore, hline⟩ := h.tail
    rw [Line.text_cons] at hrest
    obtain ⟨c', hnext, hleft, hmoved⟩ := next_fits hblank hrest w.admitted h.preferred
    have hoffset : c'.offset + byteLength more = byteLength (before ++ (w.raw ++ more)) := by
      rw [hmoved, hbefore, Word.raw]
      simp only [byteLength_append]
      omega
    rw [readAll_token hnext, ih hline _ hmore hleft hoffset, Line.tokens, hbefore]
    simp

end Cursor

theorem Line.tokens_words (line : Line) (before : List Char) :
    (line.tokens before).map (fun t => (t.kind, t.lexeme)) = line.map fun (w, _) => (w.kind, w.lexeme) := by
  induction line generalizing before with
  | nil => rfl
  | cons entry line ih => simp [Line.tokens, ih]

/-- Words with blanks between them are read as they are, each at the byte where it was written. -/
theorem scan_spaced {first : List Char} {line : Line} (hfirst : Blank first) (hline : line.Spaced) :
    scan (String.ofList (first ++ line.text)) = .ok (line.tokens first) ∧
      (line.tokens first).map (fun t => (t.kind, t.lexeme)) =
        line.map fun (w, _) => (w.kind, w.lexeme) := by
  refine ⟨?_, line.tokens_words first⟩
  have hrest : (Cursor.ofText (String.ofList (first ++ line.text))).rest = first ++ line.text :=
    String.toList_ofList
  have hread := Cursor.readAll_spaced hline first hfirst hrest (Nat.zero_add _) []
  simp only [scan, Scan.result, Scan.ofText, hread, List.reverse_nil, List.nil_append]

/-- The two names of the exception kept apart by two blanks, and a string of three bytes before the
keyword that they would join to. -/
theorem scan_spaced_names :
    ∃ line : Line, line.map (fun (w, blanks) => (w.kind, w.lexeme, blanks)) =
        [(.identifier, "He", [' ', ' ']), (.identifier, "aahe2", ['\t']), (.string, "é", [' ']),
          (.declare, "He aahe", ['\n'])] ∧
      Blank ['\r', '\n'] ∧ line.Spaced ∧ scan "\r\nHe  aahe2\t\"é\" He aahe\n" = .ok
        [⟨.identifier, "He", 2⟩, ⟨.identifier, "aahe2", 6⟩, ⟨.string, "é", 12⟩,
          ⟨.declare, "He aahe", 17⟩] := by
  let he : Word := ⟨.identifier, "He",
    ⟨'H', ['e'], by decide, List.all_eq_true.1 (by decide), rfl⟩, by decide⟩
  let aahe : Word := ⟨.identifier, "aahe2",
    ⟨'a', ['a', 'h', 'e', '2'], by decide, List.all_eq_true.1 (by decide), rfl⟩, by decide⟩
  let quoted : Word := ⟨.string, "é", show '"' ∉ ['é'] by decide⟩
  let declare : Word := ⟨.declare, "He aahe", "He aahe", declare_mem, rfl⟩
  let line : Line := [(he, [' ', ' ']), (aahe, ['\t']), (quoted, [' ']), (declare, ['\n'])]
  have hfirst : Blank ['\r', '\n'] := by simp [Blank, isBlank]
  have hline : line.Spaced := by
    refine .cons ?_ (by decide) (fun h => absurd h.blanks (by decide)) <|
      .cons ?_ (by decide) (fun h => absurd h.lexeme (by decide)) <|
      .cons ?_ (by decide) (fun h => absurd h.kind (by decide)) <| .last ?_ <;> simp [Blank, isBlank]
  have hscan := (scan_spaced hfirst hline).1
  have htext : String.ofList (['\r', '\n'] ++ line.text) = "\r\nHe  aahe2\t\"é\" He aahe\n" := by
    decide +kernel
  have htokens : line.tokens ['\r', '\n'] =
      [⟨.identifier, "He", 2⟩, ⟨.identifier, "aahe2", 6⟩, ⟨.string, "é", 12⟩, ⟨.declare, "He aahe", 17⟩] := by
    decide +kernel
  rw [htext, htokens] at hscan
  exact ⟨line, rfl, hfirst, hline, hscan⟩

end MarathiScript
