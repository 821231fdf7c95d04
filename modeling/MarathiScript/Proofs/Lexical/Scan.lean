/-
  MarathiScript.Proofs.Lexical.Scan — the text of a source is the text of its tokens.

  A `Layout` lays tokens out in a text: blanks, and then each token with the blanks after it.
  Every token stands at its offset, has the form of its kind and is the one to read there.
  Reading one token splits the text at its end (`Cursor.next_token`), so reading a whole source
  without a fault lays its tokens out in it (`scan_layout`), with nothing lost in between.
-/

import MarathiScript.Token.Cursor
import MarathiScript.Proofs.Lexical.Lexeme

namespace MarathiScript

def Blank (text : List Char) : Prop := ∀ c ∈ text, isBlank c = true

/-- The text of tokens, each with the blanks after it, that begins with the blanks `first`. -/
def laidOut (first : List Char) (placed : List (Token × List Char)) : List Char :=
  first ++ placed.flatMap fun (t, blanks) => t.raw ++ blanks

/-- The length that a text has as a string. -/
theorem byteLength_eq (text : List Char) : byteLength text = (String.ofList text).utf8ByteSize := by
  induction text with
  | nil => rfl
  | cons c text ih =>
    have hsplit : String.ofList (c :: text) = String.singleton c ++ String.ofList text := by
      rw [String.singleton_eq_ofList, ← String.ofList_append]
      rfl
    rw [byteLength_cons, ih, hsplit, String.utf8ByteSize_append, String.utf8ByteSize_singleton]

/-- A text, from the byte at `start` on, as tokens with blanks between them. -/
structure Layout (start : Nat) (text first : List Char) (placed : List (Token × List Char)) :
    Prop where
  text_eq : text = laidOut first placed
  blank_first : Blank first
  blank_after : ∀ t blanks, (t, blanks) ∈ placed → Blank blanks
  /-- What holds of each token where it stands. -/
  token : ∀ before t blanks after, placed = before ++ (t, blanks) :: after →
    t.offset = start + byteLength (laidOut first before) ∧
      t.kind.Admits t.lexeme.toList ∧ Preferred t.kind t.lexeme.toList (laidOut blanks after)

namespace Layout

variable {start : Nat} {text first : List Char} {placed : List (Token × List Char)}

theorem nil (h : Blank first) : Layout start first first [] where
  text_eq := (List.append_nil first).symm
  blank_first := h
  blank_after := nofun
  token := by
    intro before t blanks after h
    cases before <;> cases h

/-- One token more in front. -/
theorem cons {t : Token} {blanks : List Char}
    (h : Layout (t.offset + byteLength t.raw) text first placed)
    (hblank : Blank blanks) (hoffset : t.offset = start + byteLength blanks)
    (hadmits : t.kind.Admits t.lexeme.toList) (hpreferred : Preferred t.kind t.lexeme.toList text) :
    Layout start (blanks ++ (t.raw ++ text)) blanks ((t, first) :: placed) where
  text_eq := by simp [laidOut, h.text_eq]
  blank_first := hblank
  blank_after := by
    intro u gap hmem
    rcases List.mem_cons.1 hmem with hu | hu
    · cases hu
      exact h.blank_first
    · exact h.blank_after u gap hu
  token := by
    intro before u gap after hplaced
    rcases before with _ | ⟨p, before⟩
    · cases hplaced
      refine ⟨by simpa [laidOut] using hoffset, hadmits, ?_⟩
      rw [← h.text_eq]
      exact hpreferred
    · obtain ⟨rfl, rfl⟩ := List.cons.inj hplaced
      obtain ⟨hu, hrest⟩ := h.token before u gap after rfl
      refine ⟨?_, hrest⟩
      rw [hu, hoffset]
      simp only [laidOut, List.flatMap_cons, byteLength_append]
      omega

end Layout

namespace Cursor

variable {c c' : Cursor} {t : Token}

theorem blank_takeWhile (text : List Char) : Blank (text.takeWhile isBlank) :=
  fun _ h => of_mem_takeWhile h

/-- Passing the beginning of the rest leaves what comes after it. -/
theorem advance_of_rest {text after : List Char} (h : c.rest = text ++ after) :
    (c.advance text).rest = after ∧ (c.advance text).offset = c.offset + byteLength text := by
  refine ⟨?_, rfl⟩
  rw [advance_rest, h, List.drop_left]

theorem skipBlanks_split (c : Cursor) :
    ∃ blanks, Blank blanks ∧ c.rest = blanks ++ c.skipBlanks.rest ∧
      c.skipBlanks.offset = c.offset + byteLength blanks := by
  have hsplit : c.rest = c.rest.takeWhile isBlank ++ c.rest.dropWhile isBlank :=
    List.takeWhile_append_dropWhile.symm
  obtain ⟨hrest, hoffset⟩ := advance_of_rest hsplit
  refine ⟨c.rest.takeWhile isBlank, blank_takeWhile _, ?_, hoffset⟩
  rw [skipBlanks, hrest]
  exact hsplit

/-- At the end of the tokens only blanks are left. -/
theorem next_end (h : c.next = (.ok none, c')) : Blank c.rest := by
  obtain ⟨blanks, hblank, hrest, -⟩ := c.skipBlanks_split
  unfold next at h
  split at h
  · rename_i hnil
    rw [hrest, hnil, List.append_nil]
    exact hblank
  · unfold take at h
    split at h <;> cases h

/-- A token that is read stands after the blanks, in the form of its kind, and is preferred by
what is left. -/
theorem next_token (h : c.next = (.ok (some t), c')) :
    ∃ blanks, Blank blanks ∧ c.rest = blanks ++ (t.raw ++ c'.rest) ∧
      t.offset = c.offset + byteLength blanks ∧ c'.offset = t.offset + byteLength t.raw ∧
      t.kind.Admits t.lexeme.toList ∧ Preferred t.kind t.lexeme.toList c'.rest := by
  obtain ⟨blanks, hblank, hrest, hoffset⟩ := c.skipBlanks_split
  unfold next at h
  split at h
  · cases h
  rename_i ch rest hcons
  unfold take at h
  split at h <;> cases h
  rename_i k lexeme hpiece
  obtain ⟨hadmits, after, hafter, hpreferred⟩ := piece_fits hpiece
  obtain ⟨hleft, hmoved⟩ := advance_of_rest (hcons.trans hafter)
  have hlist : (String.ofList lexeme).toList = lexeme := String.toList_ofList
  refine ⟨blanks, hblank, ?_, hoffset, ?_, ?_, ?_⟩
  · rw [Token.raw, hlist, hleft, ← hafter, ← hcons]
    exact hrest
  · rw [Token.raw, hlist]
    exact hmoved
  · rw [hlist]
    exact hadmits
  · rw [hlist, hleft]
    exact hpreferred

/-- Reading all tokens lays them out in the text that was left. -/
theorem readAll_layout (c : Cursor) (seen : List Token) (h : (c.readAll seen).2 = none) :
    ∃ first placed, (c.readAll seen).1 = seen.reverse ++ placed.map (·.1) ∧
      Layout c.offset c.rest first placed := by
  fun_induction readAll c seen with
  | case1 c seen t c' hnext ih =>
    obtain ⟨first, placed, htokens, hlayout⟩ := ih h
    obtain ⟨blanks, hblank, hrest, hoffset, hmoved, hadmits, hpreferred⟩ := next_token hnext
    rw [hmoved] at hlayout
    refine ⟨blanks, (t, first) :: placed, by simpa using htokens, ?_⟩
    rw [hrest]
    exact hlayout.cons hblank hoffset hadmits hpreferred
  | case2 c seen c' hnext => exact ⟨c.rest, [], by simp, .nil (next_end hnext)⟩
  | case3 c seen fault c' hnext => cases h

end Cursor

/-- A source without faults is its tokens with blanks between them: each token at its offset, in
the form of its kind, and the one to read where it stands. -/
theorem scan_layout {source : String} {ts : List Token} (h : scan source = .ok ts) :
    ∃ first placed, placed.map (·.1) = ts ∧ Layout 0 source.toList first placed := by
  unfold scan Scan.result Scan.ofText at h
  dsimp only at h
  split at h
  · rename_i hfault
    cases h
    obtain ⟨first, placed, htokens, hlayout⟩ := Cursor.readAll_layout _ [] hfault
    exact ⟨first, placed, htokens.symm, hlayout⟩
  · cases h

/-- A keyword right after a number, whose offset counts the bytes of the string before it. -/
theorem scan_layout_adjacent :
    ∃ first placed, placed.map (·.1) = [⟨.string, "é", 0⟩, ⟨.number, "5", 4⟩, ⟨.branch, "Jar", 5⟩] ∧
      Layout 0 "\"é\"5Jar".toList first placed := by
  have hstring : (Cursor.ofText "\"é\"5Jar").next =
      (.ok (some ⟨.string, "é", 0⟩), ⟨['5', 'J', 'a', 'r'], 4, 1⟩) := by rfl
  have hnumber : (Cursor.mk ['5', 'J', 'a', 'r'] 4 1).next =
      (.ok (some ⟨.number, "5", 4⟩), ⟨['J', 'a', 'r'], 5, 1⟩) := by rfl
  have hbranch : (Cursor.mk ['J', 'a', 'r'] 5 1).next =
      (.ok (some ⟨.branch, "Jar", 5⟩), ⟨[], 8, 1⟩) := by rfl
  have hend : (Cursor.mk [] 8 1).next = (.ok none, ⟨[], 8, 1⟩) := by rfl
  have hscan : scan "\"é\"5Jar" =
      .ok [⟨.string, "é", 0⟩, ⟨.number, "5", 4⟩, ⟨.branch, "Jar", 5⟩] := by
    simp [scan, Scan.result, Scan.ofText, Cursor.readAll_token hstring,
      Cursor.readAll_token hnumber, Cursor.readAll_token hbranch, Cursor.readAll_end hend]
  exact scan_layout hscan

end MarathiScript
