/-
  MarathiScript.Proofs.Source — what running a source comes to.

  A source that is run comes to an end in one of four ways: it cannot be scanned, its tokens are no
  program, its program fails, or its program runs to the end and has printed its lines
  (`SourceRuns`). The first two do not depend on the limit of calls and need no fuel; the others are
  runs of the program that the source spells, in a fresh session.

  Proved (`sourceEnds_iff`): running a source ends with a result iff one of the four ways leads
  to it. A source that ends as a run failing does so by a failing run of its program
  (`ends_of_runSource`).
-/

import MarathiScript.Proofs.Sequence
import MarathiScript.Script

namespace MarathiScript

/-- The source, run with this limit of calls, comes to an end: to this result. -/
def SourceEnds (limit : Nat) (source : String) (result : Except ScriptError (List String)) : Prop :=
  ∃ fuel, runSource limit fuel source = some result

/-- The four ways in which a source that is run comes to its result. -/
inductive SourceRuns (limit : Nat) (source : String) : Except ScriptError (List String) → Prop
  | unscanned {e : ScanError} : scan source = .error e → SourceRuns limit source (.error (.scan e))
  | unparsed {ts : List Token} {e : ParseError} : scan source = .ok ts → parse ts = .error e →
      SourceRuns limit source (.error (.parse e))
  | failed {program : Block} {s : Session} {e : RunError} : Spells source program →
      Ends limit program .fresh ⟨.error e, s⟩ → SourceRuns limit source (.error (.run e))
  | ran {program : Block} {s : Session} : Spells source program →
      Ends limit program .fresh ⟨.ok (), s⟩ → SourceRuns limit source (.ok s.lines)

/-! ## Loading -/

theorem load_eq (source : String) : (load source).1 = match scan source with
    | .error e => .error (.scan e)
    | .ok ts => (parse ts).mapError .parse := by
  unfold load loadTokens loadProgram parse scan
  dsimp only
  rcases (Scan.ofText source).result with e | ts <;> rfl

section

variable {source : String}

theorem load_unscanned {e : ScanError} (h : scan source = .error e) :
    (load source).1 = .error (.scan e) := by rw [load_eq, h]

theorem load_unparsed {ts : List Token} {e : ParseError} (hscan : scan source = .ok ts)
    (hparse : parse ts = .error e) : (load source).1 = .error (.parse e) := by
  rw [load_eq, hscan]
  show (parse ts).mapError ScriptError.parse = _
  rw [hparse]
  rfl

theorem load_spells {program : Block} (h : Spells source program) :
    (load source).1 = .ok program := by
  obtain ⟨ts, hscan, hparse⟩ := h
  rw [load_eq, hscan]
  show (parse ts).mapError ScriptError.parse = _
  rw [hparse]
  rfl

/-- A source cannot be scanned, or its tokens are no program, or it spells a program. -/
theorem source_cases (source : String) :
    (∃ e, scan source = .error e) ∨ (∃ ts e, scan source = .ok ts ∧ parse ts = .error e) ∨
      ∃ program, Spells source program := by
  rcases hscan : scan source with e | ts
  · exact .inl ⟨e, rfl⟩
  · rcases hparse : parse ts with e | program
    · exact .inr (.inl ⟨ts, e, rfl, hparse⟩)
    · exact .inr (.inr ⟨program, ts, hscan, hparse⟩)

end

/-! ## Running -/

section

variable {limit fuel : Nat} {source : String} {result : Except ScriptError (List String)}

theorem runSource_error {e : ScriptError} (h : (load source).1 = .error e) :
    runSource limit fuel source = some (.error e) := by rw [runSource, h]

theorem runSource_program {program : Block} (h : (load source).1 = .ok program) :
    runSource limit fuel source =
      (exec limit fuel program .fresh).map fun o =>
        (o.result.map fun _ => o.session.lines).mapError .run := by
  rw [runSource, h]
  simp only [runProgram, Option.map_map]
  rfl

theorem sourceEnds_iff : SourceEnds limit source result ↔ SourceRuns limit source result := by
  constructor
  · intro h
    obtain ⟨fuel, hrun⟩ := h
    rcases source_cases source with ⟨e, hscan⟩ | ⟨ts, e, hscan, hparse⟩ | ⟨program, hspells⟩
    · rw [runSource_error (load_unscanned hscan)] at hrun
      cases hrun
      exact .unscanned hscan
    · rw [runSource_error (load_unparsed hscan hparse)] at hrun
      cases hrun
      exact .unparsed hscan hparse
    · rw [runSource_program (load_spells hspells)] at hrun
      obtain ⟨⟨e | _, s⟩, ho, hresult⟩ := Option.map_eq_some_iff.1 hrun
      · cases hresult
        exact .failed hspells ⟨fuel, ho⟩
      · cases hresult
        exact .ran hspells ⟨fuel, ho⟩
  · intro h
    cases h with
    | unscanned hscan => exact ⟨0, runSource_error (load_unscanned hscan)⟩
    | unparsed hscan hparse => exact ⟨0, runSource_error (load_unparsed hscan hparse)⟩
    | failed hspells hends | ran hspells hends =>
      obtain ⟨fuel, ho⟩ := hends
      refine ⟨fuel, ?_⟩
      rw [runSource_program (load_spells hspells), ho]
      rfl

/-- A script fails as a run only by running the program that its source spells. -/
theorem ends_of_runSource {e : RunError} (h : runSource limit fuel source = some (.error (.run e))) :
    ∃ program s, Spells source program ∧ Ends limit program .fresh ⟨.error e, s⟩ := by
  cases sourceEnds_iff.1 ⟨fuel, h⟩ with
  | failed hspells hends => exact ⟨_, _, hspells, hends⟩

end

end MarathiScript
