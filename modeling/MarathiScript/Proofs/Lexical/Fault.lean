/-
  MarathiScript.Proofs.Lexical.Fault — where a source without tokens is at fault.

  A fault divides the source at the start of the faulty lexeme. The text before it holds the tokens
  that were read, laid out as in any source: a token that is preferred with more text after it is
  preferred where the text is cut off (`Preferred.cut`). So that text alone has these tokens and
  no others (`Cursor.Behind.readAll_fault`). The text from there on is at fault as its error says
  (`ScanError.Describes`).

  Proved: a source that does not scan divides so, and the error points to a character of it, on
  the line on which that character stands (`scan_fault_located`).
-/

import MarathiScript.Proofs.Lexical.Call
import MarathiScript.Proofs.Lexical.Seam

namespace MarathiScript

namespace ScanError

/-- The byte that the error points to. -/
def offset : ScanError → Nat
  | .unexpectedCharacter _ offset _ | .unterminatedString offset _ | .malformedNumber _ offset _ => offset

/-- The line that the error points to. -/
def line : ScanError → Nat
  | .unexpectedCharacter _ _ line | .unterminatedString _ line | .malformedNumber _ _ line => line

/-- The error says what is wrong with `rest`, the text of a source behind `before`. -/
def Describes (before rest : List Char) : ScanError → Prop
  | .unexpectedCharacter ch offset _ =>
    offset = byteLength before ∧ ∃ after, rest = ch :: after ∧ Stray ch after
  | .unterminatedString offset _ =>
    offset = byteLength before ∧ ∃ after, rest = '"' :: after ∧ '"' ∉ after
  | .malformedNumber lexeme offset _ =>
    lexeme.toList = rest.takeWhile isNumberChar ∧
      ∃ digits, TwoDots digits lexeme.toList ∧ offset = byteLength (before ++ digits)

/-- The error points to the character of the source behind `upTo`. -/
structure Points (source upTo : List Char) (e : ScanError) : Prop where
  inside : ∃ ch rest, source = upTo ++ ch :: rest
  offset : e.offset = byteLength upTo
  line : e.line = 1 + upTo.count '\n'

end ScanError

/-! ## A text that is cut off -/

theorem Preferred.cut {k : TokenKind} {lexeme after more : List Char}
    (h : Preferred k lexeme (after ++ more)) : Preferred k lexeme after := by
  have hhead : ∀ c, after.head? = some c → (after ++ more).head? = some c := by
    intro c hc
    rw [List.head?_append, hc, Option.some_or]
  refine ⟨?_, ?_, ?_, ?_⟩
  · intro word l hword hstarts
    refine h.keyword word l hword (hstarts.trans ?_)
    rw [← List.append_assoc]
    exact List.prefix_append _ _
  · intro hk c hc
    exact h.identifier hk c (hhead c hc)
  · intro hk c hc
    exact h.number hk c (hhead c hc)
  · intro hk c d hlexeme hd
    exact h.operator hk c d hlexeme (hhead d hd)

/-! ## The start of the faulty lexeme -/

namespace Cursor

variable {c : Cursor} {source before passed : List Char} {e : ScanError}

/-- Up to a fault the tokens that are read are laid out in a text, and the fault is read behind it. -/
theorem Behind.readAll_fault (h : c.Behind source before) (seen : List Token)
    (hfault : (c.readAll seen).2 = some e) :
    ∃ first placed text d passed, (c.readAll seen).1 = seen.reverse ++ placed.map (·.1) ∧
      Layout c.offset text first placed ∧ Behind source (before ++ text) d ∧
      d.Reads passed (.error e) := by
  fun_induction readAll c seen generalizing before with
  | case1 c seen t c' hcall ih =>
    obtain ⟨blanks, _, hblank, hskip, hreads, hafter⟩ := h.next
    rw [hcall] at hreads hafter
    cases hreads with
    | token hfits hoffset =>
      obtain ⟨hadmits, after, htext, hpreferred⟩ := hfits
      obtain ⟨first, placed, text, d, passed, htokens, hlayout, hd, hdreads⟩ := ih hafter hfault
      -- the token is preferred by all that follows it, and so by what comes before the fault
      have hcut : after = text ++ d.rest := by
        have hsource := hskip.text.symm.trans hd.text
        rw [htext] at hsource
        simpa [Token.raw] using hsource
      have hstart : t.offset = c.offset + byteLength blanks := by
        rw [hoffset, hskip.offset, h.offset, byteLength_append]
      have hend : c'.offset = t.offset + byteLength t.raw := by
        rw [hafter.offset, hoffset, hskip.offset, byteLength_append]
      rw [hend] at hlayout
      refine ⟨blanks, (t, first) :: placed, blanks ++ (t.raw ++ text), d, passed,
        by simpa using htokens, ?_, by simpa using hd, hdreads⟩
      exact hlayout.cons hblank hstart hadmits (hcut ▸ hpreferred).cut
  | case2 c seen c' hcall => cases hfault
  | case3 c seen fault c' hcall =>
    cases hfault
    obtain ⟨blanks, passed, hblank, hskip, hreads, -⟩ := h.next
    rw [hcall] at hreads
    exact ⟨blanks, [], blanks, c.skipBlanks, passed, by simp, .nil hblank, hskip, hreads⟩

/-- The error of a call describes the text at the cursor. -/
theorem Reads.describes (h : c.Reads passed (.error e)) (hc : c.Behind source before) :
    e.Describes before c.rest := by
  cases h with
  | stray hrest hstray => exact ⟨hc.offset, _, hrest, hstray⟩
  | unclosed hrest hquote => exact ⟨hc.offset, _, hrest, hquote⟩
  | dotted hrun hdots => exact ⟨hrun, _, hdots, by rw [hc.offset, byteLength_append]⟩

/-- The error of a call points into the source. No line ends inside a number. -/
theorem Reads.points (h : c.Reads passed (.error e)) (hc : c.Behind source before) :
    ∃ upTo, e.Points source upTo := by
  cases h with
  | stray hrest _ => exact ⟨before, ⟨_, _, hrest ▸ hc.text⟩, hc.offset, hc.line⟩
  | unclosed hrest _ => exact ⟨before, ⟨_, _, hrest ▸ hc.text⟩, hc.offset, hc.line⟩
  | @dotted digits run hrun hdots =>
    obtain ⟨whole, part, more, -, -, -, -, hsecond⟩ := hdots
    obtain ⟨after, hafter⟩ := c.rest.takeWhile_prefix isNumberChar
    rw [← hrun, hsecond] at hafter
    have hlines : digits.count '\n' = 0 := by
      refine List.count_eq_zero.2 fun hmem => ?_
      have hmember : '\n' ∈ c.rest.takeWhile isNumberChar := by
        rw [← hrun, hsecond]
        exact List.mem_append_left _ hmem
      have hnumber : isNumberChar '\n' = true := of_mem_takeWhile hmember
      revert hnumber
      decide
    refine ⟨before ++ digits, ⟨'.', more ++ after, ?_⟩, ?_, ?_⟩
    · rw [hc.text, ← hafter]
      simp
    · show c.offset + byteLength digits = _
      rw [hc.offset, byteLength_append]
    · show c.line = _
      rw [hc.line, List.count_append, hlines, Nat.add_zero]

end Cursor

theorem scan_error_iff {source : String} {e : ScanError} :
    scan source = .error e ↔ ((Cursor.ofText source).readAll []).2 = some e := by
  unfold scan Scan.result Scan.ofText
  rcases (Cursor.ofText source).readAll [] with ⟨us, _ | fault⟩ <;> simp

/-- The text before the faulty lexeme of a source has the tokens that were read, the text from there
on is at fault as the error says, and the error points to a character and its line. -/
theorem scan_fault_located {source : String} {e : ScanError} (h : scan source = .error e) :
    ∃ before rest upTo, source.toList = before ++ rest ∧
      scan (String.ofList before) = .ok (Scan.ofText source).tokens ∧ e.Describes before rest ∧
      e.Points source.toList upTo := by
  obtain ⟨first, placed, text, d, passed, htokens, hlayout, hd, hreads⟩ :=
    (Cursor.Behind.start source).readAll_fault [] (scan_error_iff.1 h)
  rw [List.nil_append] at hd
  obtain ⟨upTo, hpoints⟩ := hreads.points hd
  refine ⟨text, d.rest, upTo, hd.text, ?_, hreads.describes hd, hpoints⟩
  have htext : (String.ofList text).toList = text := String.toList_ofList
  refine scan_iff_layout.2 ⟨first, placed, htokens.symm, ?_⟩
  rw [htext]
  exact hlayout

/-- A number after a string with a line end and a character of two bytes in it. -/
theorem scan_fault_located_second_line :
    scan "\"é\n\" 12.3.4;" = .error (.malformedNumber "12.3.4" 10 2) ∧
      ∃ before rest upTo, "\"é\n\" 12.3.4;".toList = before ++ rest ∧
        scan (String.ofList before) = .ok [⟨.string, "é\n", 0⟩] ∧
        (ScanError.malformedNumber "12.3.4" 10 2).Describes before rest ∧
        (ScanError.malformedNumber "12.3.4" 10 2).Points "\"é\n\" 12.3.4;".toList upTo := by
  have hscan : scan "\"é\n\" 12.3.4;" = .error (.malformedNumber "12.3.4" 10 2) :=
    scan_error_iff.2 (by decide +kernel)
  have htokens : (Scan.ofText "\"é\n\" 12.3.4;").tokens = [⟨.string, "é\n", 0⟩] := by decide +kernel
  exact ⟨hscan, htokens ▸ scan_fault_located hscan⟩

end MarathiScript
