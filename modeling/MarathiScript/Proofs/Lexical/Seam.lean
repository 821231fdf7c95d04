/-
  MarathiScript.Proofs.Lexical.Seam — reading two texts as one.

  A layout is all there is to reading: the tokens laid out in a text are the tokens that are
  read (`scan_iff_layout`). So two texts read as one if their layouts join. Behind the seam the
  tokens only move by the length of the first text (`Layout.moved`). Before it a token has
  more text after it, and must still be the preferred one there. It is, if the first text ends
  with a semicolon or a closing brace (`Token.Ends`): no keyword holds one of these, so none
  reaches over the seam, and a name, a number or an operator has text after it already
  (`Preferred.extended`).

  Proved: if the last token of a source is such a mark, or if it has none, then it reads with
  any other source after it as the tokens of both (`scan_append`).
-/

import MarathiScript.Proofs.Lexical.Spacing

namespace MarathiScript

/-! ## Layouts and reading -/

namespace Layout

variable {start : Nat} {text first blanks : List Char} {t : Token}
  {placed : List (Token × List Char)}

/-- The first token of a layout, and the layout of the text after it. -/
theorem uncons (h : Layout start text first ((t, blanks) :: placed)) :
    ∃ rest, text = first ++ (t.raw ++ rest) ∧ t.offset = start + byteLength first ∧
      t.kind.Admits t.lexeme.toList ∧ Preferred t.kind t.lexeme.toList rest ∧
      Layout (t.offset + byteLength t.raw) rest blanks placed := by
  obtain ⟨hoffset, hadmits, hpreferred⟩ := h.token [] t blanks placed rfl
  have hfirst : t.offset = start + byteLength first := by simpa [laidOut] using hoffset
  refine ⟨laidOut blanks placed, ?_, hfirst, hadmits, hpreferred, ?_⟩
  · rw [h.text_eq]
    simp [laidOut]
  · refine ⟨rfl, h.blank_after t blanks (.head _), fun u gap hu => h.blank_after u gap (.tail _ hu), ?_⟩
    intro before u gap after hplaced
    obtain ⟨hu, hrest⟩ := h.token ((t, blanks) :: before) u gap after (by rw [hplaced]; rfl)
    refine ⟨?_, hrest⟩
    rw [hu, hfirst]
    simp only [laidOut, List.flatMap_cons, byteLength_append]
    omega

end Layout

/-- A text is read as the tokens that are laid out in it. -/
theorem Cursor.readAll_of_layout {c : Cursor} {first : List Char} {placed : List (Token × List Char)}
    (h : Layout c.offset c.rest first placed) (seen : List Token) :
    c.readAll seen = (seen.reverse ++ placed.map (·.1), none) := by
  induction placed generalizing c first seen with
  | nil =>
    have hblank : Blank c.rest := by
      rw [h.text_eq, laidOut, List.flatMap_nil, List.append_nil]
      exact h.blank_first
    obtain ⟨c', hnext⟩ := next_blank hblank
    rw [readAll_end hnext, List.map_nil, List.append_nil]
  | cons entry placed ih =>
    obtain ⟨t, blanks⟩ := entry
    obtain ⟨rest, hrest, hoffset, hadmits, hpreferred, hlayout⟩ := h.uncons
    obtain ⟨c', hnext, hleft, hmoved⟩ := next_fits h.blank_first hrest hadmits hpreferred
    rw [← hoffset] at hnext hmoved
    have hafter : Layout c'.offset c'.rest blanks placed := by
      rw [hmoved, hleft]
      exact hlayout
    rw [readAll_token hnext, ih hafter]
    simp

theorem scan_ok_iff {source : String} {ts : List Token} :
    scan source = .ok ts ↔ (Cursor.ofText source).readAll [] = (ts, none) := by
  unfold scan Scan.result Scan.ofText
  rcases (Cursor.ofText source).readAll [] with ⟨us, _ | fault⟩ <;> simp

/-- The tokens of a source without faults are those laid out in it, and there is one such layout. -/
theorem scan_iff_layout {source : String} {ts : List Token} :
    scan source = .ok ts ↔
      ∃ first placed, placed.map (·.1) = ts ∧ Layout 0 source.toList first placed := by
  rw [scan_ok_iff]
  constructor
  · intro h
    obtain ⟨first, placed, htokens, hlayout⟩ := Cursor.readAll_layout _ [] (congrArg Prod.snd h)
    rw [h] at htokens
    exact ⟨first, placed, htokens.symm, hlayout⟩
  · intro h
    obtain ⟨first, placed, rfl, hlayout⟩ := h
    exact Cursor.readAll_of_layout (c := .ofText source) hlayout []

/-! ## Tokens further on in a text -/

/-- The token, `n` bytes further on. -/
def Token.moved (n : Nat) (t : Token) : Token := { t with offset := n + t.offset }

theorem Layout.moved {start : Nat} {text first : List Char} {placed : List (Token × List Char)}
    (n : Nat) (h : Layout start text first placed) :
    Layout (n + start) text first (placed.map fun entry => (entry.1.moved n, entry.2)) := by
  induction placed generalizing start text first with
  | nil =>
    have htext : text = first := by simpa [laidOut] using h.text_eq
    rw [htext]
    exact .nil h.blank_first
  | cons entry placed ih =>
    obtain ⟨t, blanks⟩ := entry
    obtain ⟨rest, rfl, hoffset, hadmits, hpreferred, hlayout⟩ := h.uncons
    have hmoved : (t.moved n).offset = n + start + byteLength first := by
      show n + t.offset = _
      omega
    have hrest := ih hlayout
    rw [← Nat.add_assoc] at hrest
    exact .cons hrest h.blank_first hmoved hadmits hpreferred

/-! ## Tokens with more text after them -/

/-- The characters that end a program. -/
def endMarks : List Char := [';', '\x7d']

def Token.Ends (t : Token) : Prop := t.kind = .semicolon ∨ t.kind = .rightBrace

section

variable {k : TokenKind} {lexeme after more text first : List Char} {t : Token} {start : Nat}
  {placed : List (Token × List Char)}

theorem keywords_no_endMark : ∀ entry ∈ keywords, ∀ m ∈ endMarks, m ∉ entry.1.toList := by
  have hall : ∀ entry ∈ keywords, (entry.1.toList.all fun c => !endMarks.contains c) = true := by decide
  intro entry hentry m hm hmem
  have hnot := List.all_eq_true.1 (hall entry hentry) m hmem
  rw [List.contains_iff_mem.2 hm] at hnot
  cases hnot

/-- A token stays preferred when text is added behind a mark that stands in it or after it, unless
the token could go on and there was nothing after it. -/
theorem Preferred.extended (h : Preferred k lexeme after) (hmark : ∃ m ∈ endMarks, m ∈ k.raw lexeme ++ after)
    (hopen : after = [] → k ∉ openKinds) : Preferred k lexeme (after ++ more) := by
  -- of a token that could go on, what it is followed by is there already
  have hhead : k ∈ openKinds → ∀ c, (after ++ more).head? = some c → after.head? = some c := by
    intro hk c hc
    cases after with
    | nil => exact absurd hk (hopen rfl)
    | cons d rest => exact hc
  refine ⟨?_, ?_, ?_, ?_⟩
  · intro word l hword hstarts
    rw [← List.append_assoc] at hstarts
    rcases List.prefix_or_prefix_of_prefix hstarts (List.prefix_append _ more) with hp | hp
    · exact h.keyword word l hword hp
    · obtain ⟨m, hm, hmem⟩ := hmark
      exact absurd (hp.subset hmem) (keywords_no_endMark _ hword m hm)
  · intro hk c hc
    exact h.identifier hk c (hhead (by simp [hk, openKinds]) c hc)
  · intro hk c hc
    refine h.number hk c (hhead ?_ c hc)
    rcases hk with rfl | rfl <;> decide
  · intro hk c d hlexeme hd
    exact h.operator hk c d hlexeme (hhead (by simp [hk, openKinds]) d hd)

theorem Token.Ends.mark (h : t.Ends) (hadmits : t.kind.Admits t.lexeme.toList) :
    (∃ m ∈ endMarks, m ∈ t.raw) ∧ t.kind ∉ openKinds := by
  rcases h with hk | hk
  · rw [hk] at hadmits
    have hraw : t.raw = [';'] := by rw [Token.raw, hk]; exact hadmits
    exact ⟨⟨';', by decide, by simp [hraw]⟩, by simp [hk, openKinds]⟩
  · rw [hk] at hadmits
    have hraw : t.raw = ['\x7d'] := by rw [Token.raw, hk]; exact hadmits
    exact ⟨⟨'\x7d', by decide, by simp [hraw]⟩, by simp [hk, openKinds]⟩

/-- The last token, if there is one, ends a program. -/
def Closed (ts : List Token) : Prop := ∀ t, ts.getLast? = some t → t.Ends

theorem Closed.tail {ts : List Token} (h : Closed (t :: ts)) : Closed ts := by
  intro u hu
  exact h u (by simp [List.getLast?_cons, hu])

theorem Layout.endMark (h : Layout start text first placed) (hclosed : Closed (placed.map (·.1)))
    (hne : placed ≠ []) : ∃ m ∈ endMarks, m ∈ text := by
  induction placed generalizing start text first with
  | nil => exact absurd rfl hne
  | cons entry placed ih =>
    obtain ⟨t, blanks⟩ := entry
    obtain ⟨rest, rfl, -, hadmits, -, hlayout⟩ := h.uncons
    by_cases hlast : placed = []
    · subst hlast
      obtain ⟨⟨m, hm, hmem⟩, -⟩ := (hclosed t rfl).mark hadmits
      exact ⟨m, hm, by simp [hmem]⟩
    · obtain ⟨m, hm, hmem⟩ := ih hlayout hclosed.tail hlast
      exact ⟨m, hm, by simp [hmem]⟩

end

/-! ## One text after the other -/

theorem Blank.append {blanks more : List Char} (h : Blank blanks) (h' : Blank more) :
    Blank (blanks ++ more) := fun c hc => (List.mem_append.1 hc).elim (h c) (h' c)

/-- No mark is a blank. -/
theorem Blank.no_endMark {blanks : List Char} (h : Blank blanks) {m : Char} (hm : m ∈ endMarks) :
    m ∉ blanks := by
  have hall : (endMarks.all fun m => !isBlank m) = true := by decide
  intro hmem
  have hnot := List.all_eq_true.1 hall m hm
  rw [h m hmem] at hnot
  cases hnot

namespace Layout

variable {start : Nat} {text text' first first' blanks : List Char}
  {placed placed' : List (Token × List Char)}

theorem after_blanks (hblank : Blank blanks)
    (h : Layout (start + byteLength blanks) text first placed) :
    Layout start (blanks ++ text) (blanks ++ first) placed where
  text_eq := by simp [laidOut, h.text_eq]
  blank_first := hblank.append h.blank_first
  blank_after := h.blank_after
  token := by
    intro before t gap after hplaced
    obtain ⟨hoffset, hrest⟩ := h.token before t gap after hplaced
    refine ⟨?_, hrest⟩
    rw [hoffset]
    simp only [laidOut, byteLength_append]
    omega

/-- A layout that is closed goes on into any layout of the text after it. -/
theorem append (h : Layout start text first placed) (hclosed : Closed (placed.map (·.1)))
    (h' : Layout (start + byteLength text) text' first' placed') :
    ∃ first'' placed'', placed''.map (·.1) = placed.map (·.1) ++ placed'.map (·.1) ∧
      Layout start (text ++ text') first'' placed'' := by
  induction placed generalizing start text first with
  | nil =>
    have htext : text = first := by simpa [laidOut] using h.text_eq
    rw [htext] at h' ⊢
    exact ⟨first ++ first', placed', rfl, after_blanks h.blank_first h'⟩
  | cons entry placed ih =>
    obtain ⟨t, blanks⟩ := entry
    obtain ⟨m, hm, hmem⟩ := h.endMark hclosed (List.cons_ne_nil _ _)
    obtain ⟨rest, rfl, hoffset, hadmits, hpreferred, hlayout⟩ := h.uncons
    have hmark : m ∈ t.raw ++ rest :=
      (List.mem_append.1 hmem).resolve_left (h.blank_first.no_endMark hm)
    -- where nothing follows, the token itself is the mark
    have hopen : rest = [] → t.kind ∉ openKinds := by
      intro hrest
      by_cases hlast : placed = []
      · subst hlast
        exact ((hclosed t rfl).mark hadmits).2
      · obtain ⟨n, -, hn⟩ := hlayout.endMark hclosed.tail hlast
        rw [hrest] at hn
        cases hn
    have hstart : start + byteLength (first ++ (t.raw ++ rest)) =
        t.offset + byteLength t.raw + byteLength rest := by
      simp only [byteLength_append]
      omega
    rw [hstart] at h'
    obtain ⟨next, more, htokens, hjoined⟩ := ih hlayout hclosed.tail h'
    refine ⟨first, (t, next) :: more, by simp [htokens], ?_⟩
    rw [List.append_assoc, List.append_assoc]
    exact .cons hjoined h.blank_first hoffset hadmits (hpreferred.extended ⟨m, hm, hmark⟩ hopen)

end Layout

/-- A closed source with another one after it is read as the tokens of the two, those of the
second further on by the length of the first. -/
theorem scan_append {source source' : String} {ts us : List Token} (h : scan source = .ok ts)
    (hclosed : Closed ts) (h' : scan source' = .ok us) :
    scan (source ++ source') = .ok (ts ++ us.map (·.moved (byteLength source.toList))) := by
  obtain ⟨first, placed, rfl, hlayout⟩ := scan_iff_layout.1 h
  obtain ⟨first', placed', rfl, hlayout'⟩ := scan_iff_layout.1 h'
  have hmoved := hlayout'.moved (0 + byteLength source.toList)
  obtain ⟨next, more, htokens, hjoined⟩ := hlayout.append hclosed hmoved
  refine scan_iff_layout.2 ⟨next, more, ?_, ?_⟩
  · rw [htokens, Nat.zero_add]
    simp
  · rw [String.toList_append]
    exact hjoined

end MarathiScript
