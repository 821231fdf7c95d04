/-
  MarathiScript.Proofs.Syntax.Parse — what programs parse, and where the others fail.

  A program is a block with nothing after it, so all there is to know of `parse` follows from
  how `block` reads (`reads_block`).
  (1) The tokens of a program are the spelling of one well-formed block, and every spelling of
      a well-formed block parses to it (`parse_iff_spelt`).
  (2) An error names the first token with which the tokens read so far cannot go on to a
      program. Where the tokens end too early, a program starts with them
      (`parse_fails_earliest`).
-/

import MarathiScript.Proofs.Syntax.Statements

namespace MarathiScript

open Parse

/-- A program fails where its block does, or at the first token after its block. -/
theorem parse_eq (ts : List Token) : parse ts = match block.outcome (.ofTokens ts) with
    | (.error e, _) => .error e
    | (.ok b, []) => .ok b
    | (.ok _, t :: _) => .error (.unexpected t) := by
  unfold parse Reader.program program
  rw [bind_run, outcome]
  rcases block (.ofTokens ts) with ⟨b, ⟨_ | ⟨t, rest⟩, begun⟩⟩ | ⟨e, r'⟩
  · rfl
  · rfl
  · rfl

theorem parse_ok {ts : List Token} {b : Block} (h : BlockSpelt b ts) : parse ts = .ok b := by
  have hblock : block.outcome (.ofTokens ts) = (.ok b, []) :=
    (reads_block ts.length).completes h (Nat.le_refl _) nofun (List.append_nil ts).symm
  rw [parse_eq, hblock]

theorem spelt_of_parse {ts : List Token} {b : Block} (h : parse ts = .ok b) : BlockSpelt b ts := by
  rw [parse_eq] at h
  rcases hout : block.outcome (.ofTokens ts) with ⟨e | b', _ | ⟨t, rest⟩⟩ <;> rw [hout] at h <;>
    cases h
  obtain ⟨used, hu, hspelt, -⟩ := (reads_block 0).accepts hout
  rw [List.append_nil] at hu
  cases hu
  exact hspelt

/-- Parsing accepts the spellings of the well-formed blocks and no other tokens; so it undoes
`unparse`, and blocks that are spelled alike are the same. -/
theorem parse_iff_spelt :
    (∀ (ts : List Token) (b : Block), parse ts = .ok b ↔
      wellFormed b = true ∧ ts.map Token.sign = (unparse b).map Token.sign) ∧
    (∀ b : Block, wellFormed b = true → parse (unparse b) = .ok b) ∧
    ∀ b c : Block, wellFormed b = true → wellFormed c = true →
      (unparse b).map Token.sign = (unparse c).map Token.sign → b = c := by
  refine ⟨fun ts b => ⟨spelt_of_parse, parse_ok⟩, fun b hb => parse_ok ⟨hb, .refl _⟩, ?_⟩
  intro b c hb hc h
  have hparse : parse (unparse b) = .ok c := parse_ok ⟨hc, h⟩
  rw [parse_ok ⟨hb, .refl _⟩] at hparse
  exact Except.ok.inj hparse

theorem parse_iff_spelt_loop :
    parse (unparse [.count (some (.assign "i" (.number "0")))
      (.chain (.name "i") [("<", .number "3")])
      (.assign "i" (.chain (.name "i") [("+", .number "1")])) [.call "f" []]]) =
    .ok [.count (some (.assign "i" (.number "0"))) (.chain (.name "i") [("<", .number "3")])
      (.assign "i" (.chain (.name "i") [("+", .number "1")])) [.call "f" []]] :=
  parse_iff_spelt.2.1 _ rfl

/-! ## Failures -/

/-- Where a block stops before a token that is no part of it, the error is the same whatever
follows that token, and up to the token there is a way to go on. -/
theorem parse_refuses {ts : List Token} {e : ParseError} (h : parse ts = .error e) :
    ∃ used rest, ts = used ++ rest ∧ e.found? = rest.head? ∧
      (∀ rest', rest'.head? = rest.head? → parse (used ++ rest') = .error e) ∧
      ∃ more b, parse (used ++ more) = .ok b ∧ (rest = [] → more ≠ []) := by
  rw [parse_eq] at h
  rcases hout : block.outcome (.ofTokens ts) with ⟨e' | b, rest⟩
  · rw [hout] at h
    cases h
    obtain ⟨used, hu, hfound, hset, b, more, hspelt, hmore⟩ := (reads_block 0).refuses hout
    refine ⟨used, rest, hu, hfound, fun rest' hnext => ?_, more, b, parse_ok hspelt, hmore⟩
    rw [parse_eq, hset (.ofTokens (used ++ rest')) rest' rfl hnext]
  · rw [hout] at h
    rcases rest with _ | ⟨t, rest⟩
    · cases h
    cases h
    obtain ⟨used, hu, hspelt, hset⟩ := (reads_block 0).accepts hout
    refine ⟨used, t :: rest, hu, rfl, fun rest' hnext => ?_, [], b, ?_, nofun⟩
    · obtain ⟨rest'', rfl⟩ := List.head?_eq_some_iff.1 hnext
      rw [parse_eq, hset (.ofTokens (used ++ t :: rest'')) _ rfl hnext]
    · rw [List.append_nil]
      exact parse_ok hspelt

theorem found?_eq_none_iff {e : ParseError} : e.found? = none ↔ ∃ w, e = .endOfInput w := by
  refine ⟨fun h => ?_, fun h => ?_⟩
  · cases e with
    | endOfInput w => exact ⟨w, rfl⟩
    | _ => cases h
  · obtain ⟨w, rfl⟩ := h
    rfl

theorem found?_eq_some_iff {e : ParseError} {t : Token} :
    e.found? = some t ↔ e = .unexpected t ∨ ∃ w, e = .expected w t := by
  constructor
  · intro h
    cases e with
    | expected w u => cases h; exact .inr ⟨w, rfl⟩
    | unexpected u => cases h; exact .inl rfl
    | endOfInput w => cases h
  · intro h
    rcases h with rfl | ⟨w, rfl⟩ <;> rfl

/-- An error names the first token with which no program goes on, and is the same whatever
follows that token; only tokens with which a program starts end too early. -/
theorem parse_fails_earliest (ts : List Token) :
    (∀ e t, parse ts = .error e → (e = .unexpected t ∨ ∃ w, e = .expected w t) →
      ∃ i : Nat, ts[i]? = some t ∧ (∃ u b, parse (ts.take i ++ u) = .ok b) ∧
        ∀ u, parse (ts.take (i + 1) ++ u) = .error e) ∧
    (∀ w, parse ts = .error (.endOfInput w) → ∃ u b, u ≠ [] ∧ parse (ts ++ u) = .ok b) ∧
    ((∀ b, parse ts ≠ .ok b) →
      ((∃ w, parse ts = .error (.endOfInput w)) ↔ ∃ u b, u ≠ [] ∧ parse (ts ++ u) = .ok b)) := by
  have hfound : ∀ e t, parse ts = .error e → e.found? = some t →
      ∃ i : Nat, ts[i]? = some t ∧ (∃ u b, parse (ts.take i ++ u) = .ok b) ∧
        ∀ u, parse (ts.take (i + 1) ++ u) = .error e := by
    intro e t h ht
    obtain ⟨used, rest, rfl, hnext, hset, more, b, hok, -⟩ := parse_refuses h
    obtain ⟨rest, rfl⟩ := List.head?_eq_some_iff.1 (hnext.symm.trans ht)
    have htake : (used ++ t :: rest).take (used.length + 1) = used ++ [t] := by
      rw [List.take_length_add_append]
      rfl
    refine ⟨used.length, by simp, ⟨more, b, by simpa using hok⟩, fun u => ?_⟩
    rw [htake, List.append_assoc]
    exact hset (t :: u) rfl
  have hend : ∀ w, parse ts = .error (.endOfInput w) →
      ∃ u b, u ≠ [] ∧ parse (ts ++ u) = .ok b := by
    intro w h
    obtain ⟨used, rest, rfl, hnext, -, more, b, hok, hmore⟩ := parse_refuses h
    cases List.head?_eq_none_iff.1 hnext.symm
    exact ⟨more, b, hmore rfl, by simpa using hok⟩
  refine ⟨fun e t h ht => hfound e t h (found?_eq_some_iff.2 ht), hend, fun hfails => ⟨?_, ?_⟩⟩
  · intro h
    obtain ⟨w, h⟩ := h
    exact hend w h
  · intro h
    obtain ⟨u, b, -, hok⟩ := h
    rcases h : parse ts with e | b'
    · rcases he : e.found? with _ | t
      · obtain ⟨w, rfl⟩ := found?_eq_none_iff.1 he
        exact ⟨w, rfl⟩
      · obtain ⟨i, -, -, hset⟩ := hfound e t h he
        have hsame := hset (ts.drop (i + 1) ++ u)
        rw [← List.append_assoc, List.take_append_drop, hok] at hsame
        cases hsame
    · cases hfails b' h

/-- After `print ;` no program goes on, whatever follows. -/
theorem parse_fails_earliest_print :
    ∃ i : Nat, [Token.fixed .print, Token.fixed .semicolon][i]? = some (Token.fixed .semicolon) ∧
      (∃ u b, parse ([Token.fixed .print, Token.fixed .semicolon].take i ++ u) = .ok b) ∧
      ∀ u, parse ([Token.fixed .print, Token.fixed .semicolon].take (i + 1) ++ u) =
        .error (.expected (.kind .leftParen) (Token.fixed .semicolon)) :=
  (parse_fails_earliest _).1 _ _ rfl (.inr ⟨_, rfl⟩)

end MarathiScript
