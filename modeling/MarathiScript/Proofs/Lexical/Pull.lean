/-
  MarathiScript.Proofs.Lexical.Pull — any number of calls on one cursor, past faults and past the end.

  A reader may go on calling after a fault and after the end of the text. `Cursor.after c n` is
  where `n` calls leave the cursor `c`, and `Cursor.answer c n` is what the next one returns. By
  induction over the calls the cursor stays behind a text of the source, one that only grows
  (`Cursor.Behind.after`); the five outcomes of a call then give what each answer leaves to the calls
  after it.

  A text is passed character by character until the offset is a given one. That would not end if the
  source ended first, or if the given offset lay inside a character. `Cursor.Passes` is this loop;
  it ends where `Cursor.advance` says, at the offset that was given (`Cursor.passes_advance`).

  Proved: all of this together, for every source (`calls_keep_place`). Reading all tokens is the
  calls up to the first one without a token, so it ends, with no more tokens than bytes
  (`Cursor.readAll_answers`).
-/

import MarathiScript.Proofs.Lexical.Call

namespace MarathiScript

namespace Cursor

/-- Where `n` calls leave the cursor. -/
def after (c : Cursor) : Nat → Cursor
  | 0 => c
  | n + 1 => (c.after n).next.2

/-- What a call returns that comes after `n` calls. -/
def answer (c : Cursor) (n : Nat) : Except ScanError (Option Token) := (c.after n).next.1

/-- Passes one character, if there is one. -/
def pass (c : Cursor) : Cursor := c.advance (c.rest.take 1)

/-- Passing characters as long as the offset is below `target` goes from one cursor to the other, and
there is a character to pass each time. -/
inductive Passes (target : Nat) : Cursor → Cursor → Prop
  | stop {c : Cursor} : target ≤ c.offset → Passes target c c
  | pass {c c' : Cursor} : c.offset < target → c.rest ≠ [] → Passes target c.pass c' → Passes target c c'

variable {c c' : Cursor} {source before passed text : List Char} {t : Token}

/-! ## Passing a text -/

theorem advance_append (c : Cursor) (text more : List Char) :
    c.advance (text ++ more) = (c.advance text).advance more := by
  simp [advance, Nat.add_assoc]

/-- The loop over characters passes the text and stops right behind it. -/
theorem passes_advance (h : text <+: c.rest) :
    Passes (c.offset + byteLength text) c (c.advance text) := by
  induction text generalizing c with
  | nil =>
    rw [advance_nil]
    exact .stop (Nat.le_refl _)
  | cons ch text ih =>
    obtain ⟨after, hafter⟩ := h
    have hrest : c.rest = [ch] ++ (text ++ after) := hafter.symm
    have hpass : c.pass = c.advance [ch] := by rw [pass, hrest]; rfl
    obtain ⟨hleft, hmoved⟩ := advance_of_rest hrest
    have hnext : text <+: c.pass.rest := by
      rw [hpass, hleft]
      exact List.prefix_append _ _
    have hloop := ih hnext
    have htarget : c.pass.offset + byteLength text = c.offset + byteLength (ch :: text) := by
      rw [hpass, hmoved, Nat.add_assoc]
      rfl
    rw [htarget, hpass, ← advance_append, List.singleton_append, ← hpass] at hloop
    refine .pass ?_ (by rw [hrest]; nofun) hloop
    have hsize := ch.utf8Size_pos
    rw [byteLength_cons]
    omega

/-! ## Calls that leave the cursor where it is -/

theorem skipBlanks_skipBlanks (c : Cursor) : c.skipBlanks.skipBlanks = c.skipBlanks := by
  have hnone : c.skipBlanks.rest.takeWhile isBlank = [] := by
    rcases hrest : c.skipBlanks.rest with _ | ⟨ch, rest⟩
    · rfl
    · exact List.takeWhile_cons_of_neg (by rw [skipBlanks_head hrest]; nofun)
  rw [skipBlanks, hnone, advance_nil]

theorem next_skipBlanks (c : Cursor) : c.skipBlanks.next = c.next := by
  rw [next, skipBlanks_skipBlanks, next]

theorem after_add (c : Cursor) (m n : Nat) : c.after (m + n) = (c.after m).after n := by
  induction n with
  | zero => rfl
  | succ n ih => exact congrArg (fun d => d.next.2) ih

theorem answer_add (c : Cursor) (m n : Nat) : c.answer (m + n) = (c.after m).answer n := by
  rw [answer, after_add, answer]

theorem answer_succ (c : Cursor) (n : Nat) : c.answer (n + 1) = c.next.2.answer n := by
  rw [Nat.add_comm]
  exact c.answer_add 1 n

/-- A call that passes nothing but blanks is repeated by all later calls. -/
theorem answer_repeats (h : c.next.2 = c.skipBlanks) (n : Nat) : c.answer n = c.next.1 := by
  have hstays : ∀ m, c.skipBlanks.after m = c.skipBlanks := by
    intro m
    induction m with
    | zero => rfl
    | succ m ih => rw [after, ih, next_skipBlanks, h]
  cases n with
  | zero => rfl
  | succ m => rw [answer_succ, h, answer, hstays, next_skipBlanks]

/-- At the end of the text every call says so. -/
theorem answer_finished (h : c.rest = []) (n : Nat) : c.answer n = .ok none := by
  have hskip : c.skipBlanks = c := by rw [skipBlanks, h, List.takeWhile_nil, advance_nil]
  have hnext : c.next = (.ok none, c) := by simp only [next, hskip, h]
  rw [answer_repeats (by rw [hnext, hskip]), hnext]

/-! ## One call, by what it returns -/

theorem next_finish (h : c.next.1 = .ok none) : c.next.2 = c.skipBlanks := by
  obtain ⟨passed, hreads, hmoved, -⟩ := c.next_taken
  rw [h] at hreads
  cases hreads
  rw [hmoved, advance_nil]

theorem next_stray {ch : Char} {offset line : Nat}
    (h : c.next.1 = .error (.unexpectedCharacter ch offset line)) :
    c.next.2 = c.skipBlanks ∧ c.skipBlanks.offset = offset ∧ c.skipBlanks.rest.head? = some ch := by
  obtain ⟨passed, hreads, hmoved, -⟩ := c.next_taken
  rw [h] at hreads
  cases hreads with
  | stray hrest _ => exact ⟨by rw [hmoved, advance_nil], rfl, by rw [hrest, List.head?_cons]⟩

theorem next_unclosed {offset line : Nat} (h : c.next.1 = .error (.unterminatedString offset line)) :
    c.next.2.rest = [] := by
  obtain ⟨passed, hreads, hmoved, -⟩ := c.next_taken
  rw [h] at hreads
  cases hreads with
  | unclosed hrest _ => rw [hmoved, advance_rest, List.drop_length]

theorem next_dotted {lexeme : String} {offset line : Nat} (hbehind : c.Behind source passed)
    (h : c.next.1 = .error (.malformedNumber lexeme offset line)) :
    ∃ before, c.skipBlanks.Behind source before ∧
      lexeme.toList = c.skipBlanks.rest.takeWhile isNumberChar ∧
        c.next.2.Behind source (before ++ lexeme.toList) := by
  obtain ⟨blanks, text, -, hskip, hreads, hnext⟩ := hbehind.next
  rw [h] at hreads
  cases hreads with
  | dotted hrun _ => exact ⟨passed ++ blanks, hskip, hrun, hnext⟩

theorem next_passes (hbehind : c.Behind source passed) (h : c.next.1 = .ok (some t)) :
    c.offset < c.next.2.offset ∧ ∃ before, c.skipBlanks.Behind source before ∧
      t.offset = byteLength before ∧ c.next.2.Behind source (before ++ t.raw) ∧
        Passes (byteLength (before ++ t.raw)) c.skipBlanks c.next.2 := by
  obtain ⟨blanks, hblank, hskip⟩ := hbehind.skipBlanks
  obtain ⟨text, hreads, hmoved, htext⟩ := c.next_taken
  rw [h] at hreads
  cases hreads with
  | token hfits hoffset =>
    have hnext := hskip.advance htext
    have hloop := passes_advance htext
    rw [hskip.offset, ← byteLength_append] at hloop
    rw [hmoved]
    refine ⟨?_, passed ++ blanks, hskip, by rw [hoffset, hskip.offset], hnext, hloop⟩
    obtain ⟨ch, rest, hraw, -⟩ := raw_starts hfits.1
    have hsize := ch.utf8Size_pos
    have hlength : byteLength t.raw = ch.utf8Size + byteLength rest := by
      rw [Token.raw, hraw, byteLength_cons]
    rw [hnext.offset, hbehind.offset, byteLength_append, byteLength_append]
    omega

/-! ## What holds of the calls on one cursor -/

/-- Where the calls on a cursor of the source leave it, and what they return. -/
structure Pulls (source : List Char) (c : Cursor) : Prop where
  /-- The offset is that of a character or of the end, and the line is the line of that character. -/
  place : ∀ n, ∃ passed, (c.after n).Behind source passed
  forward : ∀ n, (c.after n).offset ≤ (c.after (n + 1)).offset
  /-- A token is passed, and the loop that passes it ends at its target. -/
  token : ∀ n t, c.answer n = .ok (some t) → (c.after n).offset < (c.after (n + 1)).offset ∧
    ∃ before, (c.after n).skipBlanks.Behind source before ∧ t.offset = byteLength before ∧
      (c.after (n + 1)).Behind source (before ++ t.raw) ∧
        Passes (byteLength (before ++ t.raw)) (c.after n).skipBlanks (c.after (n + 1))
  finish : ∀ n, c.answer n = .ok none → ∀ m, n ≤ m → c.answer m = .ok none
  /-- A stray character is not passed. -/
  stray : ∀ n ch offset line, c.answer n = .error (.unexpectedCharacter ch offset line) →
    (c.after (n + 1)).offset = offset ∧ (c.after (n + 1)).rest.head? = some ch ∧
      ∀ m, n ≤ m → c.answer m = c.answer n
  /-- All of the text is passed with an unclosed string. -/
  unclosed : ∀ n offset line, c.answer n = .error (.unterminatedString offset line) →
    ∀ m, n < m → c.answer m = .ok none
  /-- A malformed number is passed with all its digits and dots. -/
  dotted : ∀ n lexeme offset line, c.answer n = .error (.malformedNumber lexeme offset line) →
    ∃ before, (c.after n).skipBlanks.Behind source before ∧
      lexeme.toList = (c.after n).skipBlanks.rest.takeWhile isNumberChar ∧
        (c.after (n + 1)).Behind source (before ++ lexeme.toList)

/-- The calls return the tokens one after the other, and then the fault or the end. -/
structure Answers (c : Cursor) (ts : List Token) (fault : Option ScanError) : Prop where
  token : ∀ i (h : i < ts.length), c.answer i = .ok (some ts[i])
  stop : c.answer ts.length = fault.elim (.ok none) .error

/-- However many calls there are, they keep the cursor behind a text of the source that grows. -/
theorem Behind.after (h : c.Behind source before) (n : Nat) :
    ∃ more, (c.after n).Behind source (before ++ more) := by
  induction n with
  | zero => exact ⟨[], by rwa [List.append_nil]⟩
  | succ n ih =>
    obtain ⟨more, hmore⟩ := ih
    obtain ⟨blanks, text, -, -, -, hnext⟩ := hmore.next
    refine ⟨more ++ blanks ++ text, ?_⟩
    rw [Cursor.after, ← List.append_assoc, ← List.append_assoc]
    exact hnext

/-- Whatever the calls return, the cursor keeps its place and they go on as they should. -/
theorem Behind.pulls (h : c.Behind source before) : c.Pulls source where
  place := by
    intro n
    obtain ⟨more, hmore⟩ := h.after n
    exact ⟨before ++ more, hmore⟩
  forward := by
    intro n
    obtain ⟨more, hmore⟩ := h.after n
    obtain ⟨blanks, text, -, -, -, hnext⟩ := hmore.next
    rw [hmore.offset, Cursor.after, hnext.offset]
    simp only [byteLength_append]
    omega
  token := by
    intro n t hcall
    obtain ⟨more, hmore⟩ := h.after n
    exact next_passes hmore hcall
  finish := by
    intro n hcall m hle
    obtain ⟨k, rfl⟩ := Nat.exists_eq_add_of_le hle
    rw [answer_add, answer_repeats (next_finish hcall)]
    exact hcall
  stray := by
    intro n ch offset line hcall
    obtain ⟨hstays, hoffset, hhead⟩ := next_stray hcall
    rw [Cursor.after, hstays]
    refine ⟨hoffset, hhead, fun m hle => ?_⟩
    obtain ⟨k, rfl⟩ := Nat.exists_eq_add_of_le hle
    rw [answer_add, answer_repeats hstays, answer]
  unclosed := by
    intro n offset line hcall m hlt
    obtain ⟨k, rfl⟩ := Nat.exists_eq_add_of_le (Nat.succ_le_of_lt hlt)
    rw [answer_add]
    exact answer_finished (next_unclosed hcall) k
  dotted := by
    intro n lexeme offset line hcall
    obtain ⟨more, hmore⟩ := h.after n
    exact next_dotted hmore hcall

/-! ## Reading all tokens -/

/-- A call without a token is the last one that counts. -/
theorem Answers.nil {fault : Option ScanError} (h : c.next.1 = fault.elim (.ok none) .error) :
    c.Answers [] fault where
  token := fun _ hi => absurd hi (Nat.not_lt_zero _)
  stop := h

theorem Answers.cons {ts : List Token} {fault : Option ScanError} (h : c'.Answers ts fault)
    (hnext : c.next = (.ok (some t), c')) : c.Answers (t :: ts) fault where
  token := by
    intro i hi
    cases i with
    | zero => exact congrArg Prod.fst hnext
    | succ i =>
      rw [answer_succ, hnext]
      exact h.token i (Nat.lt_of_succ_lt_succ hi)
  stop := by
    rw [List.length_cons, answer_succ, hnext]
    exact h.stop

theorem length_le_byteLength (text : List Char) : text.length ≤ byteLength text := by
  induction text with
  | nil => exact Nat.le_refl _
  | cons ch text ih =>
    have hsize := ch.utf8Size_pos
    rw [List.length_cons, byteLength_cons]
    omega

/-- Reading all tokens is calling as long as there is a token, and each token takes up a character. -/
theorem readAll_answers (c : Cursor) (seen : List Token) :
    ∃ ts, (c.readAll seen).1 = seen.reverse ++ ts ∧ c.Answers ts (c.readAll seen).2 ∧
      ts.length ≤ c.rest.length := by
  fun_induction readAll c seen with
  | case1 c seen t c' hnext ih =>
    obtain ⟨ts, htokens, hanswers, hlength⟩ := ih
    refine ⟨t :: ts, by simpa using htokens, hanswers.cons hnext, ?_⟩
    exact Nat.succ_le_of_lt (Nat.lt_of_le_of_lt hlength (next_rest_lt hnext))
  | case2 c seen c' hnext =>
    exact ⟨[], by simp, .nil (congrArg Prod.fst hnext), Nat.zero_le _⟩
  | case3 c seen fault c' hnext =>
    exact ⟨[], by simp, .nil (congrArg Prod.fst hnext), Nat.zero_le _⟩

end Cursor

/-- The calls on a source keep the cursor at its place whatever they return, and reading a source
is making the calls up to the first without a token, of which there are no more than bytes. -/
theorem calls_keep_place (source : String) :
    (Cursor.ofText source).Pulls source.toList ∧
      (Cursor.ofText source).Answers (Scan.ofText source).tokens (Scan.ofText source).fault ∧
      (Scan.ofText source).tokens.length ≤ source.utf8ByteSize := by
  obtain ⟨ts, htokens, hanswers, hlength⟩ := (Cursor.ofText source).readAll_answers []
  have hscan : (Scan.ofText source).tokens = ts := htokens
  refine ⟨(Cursor.Behind.start source).pulls, hscan ▸ hanswers, ?_⟩
  have hbytes := Cursor.length_le_byteLength source.toList
  rw [byteLength_eq, String.ofList_toList] at hbytes
  rw [hscan]
  exact Nat.le_trans hlength hbytes

/-- The calls go on behind a number with two points, and not over a stray character. -/
example : (Cursor.ofText "é 1.2.3\n$").answer 1 = .error (.malformedNumber "1.2.3" 6 1) ∧
    (Cursor.ofText "é 1.2.3\n$").answer 5 = .error (.unexpectedCharacter '$' 9 2) := ⟨rfl, rfl⟩

end MarathiScript
