/-
  MarathiScript.Proofs.Syntax.Resume — any number of programs from one reader.

  A reader keeps its place when a program has been read from it, well or not, and the next program
  starts there. `Reader.after r n` is where `n` programs leave the reader `r`, and `Reader.answer r n`
  is what the next one comes to. One program is read from the tokens ahead alone, whatever was noted
  before; it takes all of them, or stops before the token that its error names (`Reader.program_leaves`).
  By induction over the programs the tokens ahead are always the last of the tokens given
  (`Reader.after_suffix`), so they are those from some place on (`Reader.place`).

  Proved: all of this for every list of tokens, and that a statement takes at least one token
  (`reader_resumes`).
-/

import MarathiScript.Proofs.Syntax.Parse

namespace MarathiScript

namespace Parse

/-- A statement takes at least one token, whatever bounds its blocks. -/
theorem statement_takes {bound : List Token} {r s : Reader} {stmt : Stmt}
    (h : statement (statements bound []) r = .ok stmt s) :
    ∃ t used, r.ahead = t :: (used ++ s.ahead) := by
  have hout : (statement (statements bound [])).outcome r = (.ok stmt, s.ahead) := by
    rw [outcome, h]
  obtain ⟨used, hu, ⟨-, hspelt⟩, -⟩ := (reads_statement (reads_statements_nil bound)).accepts hout
  obtain ⟨t, v, rfl, -⟩ := Stmt.starts hspelt
  exact ⟨t, v, hu⟩

end Parse

open Parse

namespace Reader

/-- What a program read from the tokens `ahead` comes to, and the tokens that it leaves. -/
inductive Leaves (ahead : List Token) : Except ParseError Block → List Token → Prop
  | program {b : Block} : parse ahead = .ok b → Leaves ahead (.ok b) []
  /-- The error names the first of the tokens left; none is left at the end of the tokens. -/
  | fault {e : ParseError} {rest : List Token} : parse ahead = .error e → rest <:+ ahead →
      e.found? = rest.head? → Leaves ahead (.error e) rest

namespace Leaves

variable {ahead rest : List Token} {answer : Except ParseError Block}

theorem eq_parse (h : Leaves ahead answer rest) : answer = parse ahead := by
  cases h with
  | program hparse => exact hparse.symm
  | fault hparse _ _ => exact hparse.symm

theorem suffix (h : Leaves ahead answer rest) : rest <:+ ahead := by
  cases h with
  | program _ => exact List.nil_suffix
  | fault _ hrest _ => exact hrest

theorem of_ok {b : Block} (h : Leaves ahead (.ok b) rest) : rest = [] := by
  cases h
  rfl

theorem of_error {e : ParseError} (h : Leaves ahead (.error e) rest) : e.found? = rest.head? := by
  cases h with
  | fault _ _ hfound => exact hfound

end Leaves

/-- Where `n` programs leave the reader. -/
def after (r : Reader) : Nat → Reader
  | 0 => r
  | n + 1 => (r.after n).program.2

/-- What a program comes to that is read after `n` others. -/
def answer (r : Reader) (n : Nat) : Except ParseError Block := (r.after n).program.1

/-- How many of the tokens given lie behind the reader. -/
def place (r : Reader) (given : List Token) : Nat := given.length - r.ahead.length

variable {given : List Token} {r : Reader}

/-! ## One program -/

/-- A program ends as its block does, and before a token that follows the block it fails. -/
theorem program_eq (r : Reader) :
    (r.program.1, r.program.2.ahead) = match block.outcome r with
      | (.error e, rest) => (.error e, rest)
      | (.ok b, []) => (.ok b, [])
      | (.ok _, t :: rest) => (.error (.unexpected t), t :: rest) := by
  unfold Reader.program Parse.program
  rw [bind_run, outcome]
  rcases block r with ⟨b, ⟨_ | ⟨t, rest⟩, begun⟩⟩ | ⟨e, r'⟩
  · rfl
  · rfl
  · rfl

theorem program_leaves (r : Reader) : Leaves r.ahead r.program.1 r.program.2.ahead := by
  have hprogram := r.program_eq
  have hparse := parse_eq r.ahead
  have hsame : block.outcome (ofTokens r.ahead) = block.outcome r := (reads_block 0).outcome_eq rfl
  rw [hsame] at hparse
  rcases hout : block.outcome r with ⟨e | b, rest⟩ <;> rw [hout] at hprogram hparse
  · obtain ⟨used, hu, hfound, -⟩ := (reads_block 0).refuses hout
    obtain ⟨hanswer, hrest⟩ := Prod.mk.inj hprogram
    rw [hanswer, hrest]
    exact .fault hparse ⟨used, hu.symm⟩ hfound
  · obtain ⟨used, hu, -⟩ := (reads_block 0).accepts hout
    rcases rest with _ | ⟨t, rest⟩ <;> obtain ⟨hanswer, hrest⟩ := Prod.mk.inj hprogram <;>
      rw [hanswer, hrest]
    · exact .program hparse
    · exact .fault hparse ⟨used, hu.symm⟩ rfl

/-! ## What holds of the programs read from one reader -/

/-- Where the programs read one after the other from the tokens given leave the reader, and what
they come to. -/
structure Resumes (given : List Token) (r : Reader) : Prop where
  /-- The tokens ahead are those given, from some place on. -/
  ahead : ∀ n, (r.after n).ahead = given.drop ((r.after n).place given)
  within : ∀ n, (r.after n).place given ≤ given.length
  forward : ∀ n, (r.after n).place given ≤ (r.after (n + 1)).place given
  /-- A program is read from the tokens ahead alone. -/
  alone : ∀ n, r.answer n = parse (given.drop ((r.after n).place given))
  /-- A program takes all tokens, so there is nothing in those after it. -/
  finish : ∀ n b, r.answer n = .ok b → (r.after (n + 1)).place given = given.length ∧
    ∀ m, n < m → r.answer m = .ok []
  /-- The reader stands before the very token that an error names. -/
  refused : ∀ n e t, r.answer n = .error e → (e = .unexpected t ∨ ∃ w, e = .expected w t) →
    given[(r.after (n + 1)).place given]? = some t
  cut : ∀ n w, r.answer n = .error (.endOfInput w) → (r.after (n + 1)).place given = given.length

theorem after_suffix (h : r.ahead <:+ given) (n : Nat) : (r.after n).ahead <:+ given := by
  induction n with
  | zero => exact h
  | succ n ih => exact (r.after n).program_leaves.suffix.trans ih

theorem ahead_eq_drop (h : r.ahead <:+ given) : r.ahead = given.drop (r.place given) :=
  List.suffix_iff_eq_drop.1 h

theorem after_add (r : Reader) (m n : Nat) : r.after (m + n) = (r.after m).after n := by
  induction n with
  | zero => rfl
  | succ n ih => exact congrArg (fun s => s.program.2) ih

theorem answer_add (r : Reader) (m n : Nat) : r.answer (m + n) = (r.after m).answer n := by
  rw [answer, after_add, answer]

/-- At the end of the tokens every program is the empty one. -/
theorem answer_finished (h : r.ahead = []) (n : Nat) : r.answer n = .ok [] := by
  have hahead : (r.after n).ahead = [] := List.suffix_nil.1 (after_suffix (h ▸ List.suffix_refl _) n)
  rw [answer, (r.after n).program_leaves.eq_parse, hahead]
  rfl

theorem leaves_of_answer {result : Except ParseError Block} {n : Nat} (h : r.answer n = result) :
    Leaves (r.after n).ahead result (r.after (n + 1)).ahead :=
  h ▸ (r.after n).program_leaves

theorem place_of_end (h : r.ahead = []) (given : List Token) : r.place given = given.length := by
  rw [place, h]
  rfl

/-- However the programs end, each goes on where the one before it stopped. -/
theorem resumes (h : r.ahead <:+ given) : r.Resumes given where
  ahead n := ahead_eq_drop (after_suffix h n)
  within n := Nat.sub_le _ _
  forward n := Nat.sub_le_sub_left (r.after n).program_leaves.suffix.length_le _
  alone n := by
    rw [← ahead_eq_drop (after_suffix h n)]
    exact (r.after n).program_leaves.eq_parse
  finish := by
    intro n b hanswer
    have hend := (leaves_of_answer hanswer).of_ok
    refine ⟨place_of_end hend given, fun m hlt => ?_⟩
    obtain ⟨k, rfl⟩ := Nat.exists_eq_add_of_le (Nat.succ_le_of_lt hlt)
    rw [answer_add]
    exact answer_finished hend k
  refused := by
    intro n e t hanswer ht
    have hhead := (leaves_of_answer hanswer).of_error
    rw [found?_eq_some_iff.2 ht, ahead_eq_drop (after_suffix h (n + 1)), List.head?_drop] at hhead
    exact hhead.symm
  cut := by
    intro n w hanswer
    have hhead := (leaves_of_answer hanswer).of_error
    exact place_of_end (List.head?_eq_none_iff.1 hhead.symm) given

end Reader

/-- Programs read one after the other from one reader go on where the one before stopped, each as
if it stood alone; what stops one is the token at which the reader stands, or the end of the tokens. -/
theorem reader_resumes (ts : List Token) :
    (Reader.ofTokens ts).place ts = 0 ∧ (Reader.ofTokens ts).Resumes ts ∧
      ∀ (bound : List Token) (r s : Reader) (stmt : Stmt),
        statement (statements bound []) r = .ok stmt s → ∃ t used, r.ahead = t :: (used ++ s.ahead) :=
  ⟨Nat.sub_self _, Reader.resumes (List.suffix_refl ts), fun _ _ _ _ => statement_takes⟩

/-- A program that fails at its second token leaves the rest to the next one, which takes it all. -/
theorem reader_resumes_behind_fault :
    let ts : List Token := [.fixed .print, .fixed .print, .fixed .leftParen, .written .number "1",
      .fixed .rightParen, .fixed .semicolon]
    let r := Reader.ofTokens ts
    r.answer 0 = .error (.expected (.kind .leftParen) (.fixed .print)) ∧
      ts[(r.after 1).place ts]? = some (.fixed .print) ∧
      r.answer 1 = .ok [.print (.number "1")] ∧
      (r.after 2).place ts = ts.length ∧ (∀ m, 1 < m → r.answer m = .ok []) ∧
      ∃ t used, (r.after 1).ahead = t :: used := by
  intro ts r
  obtain ⟨-, hresumes, hstatement⟩ := reader_resumes ts
  have hfault : r.answer 0 = .error (.expected (.kind .leftParen) (.fixed .print)) := rfl
  have hprogram : r.answer 1 = .ok [.print (.number "1")] := rfl
  obtain ⟨hplace, hafter⟩ := hresumes.finish 1 _ hprogram
  obtain ⟨t, used, htaken⟩ := hstatement [] (r.after 1) ⟨[], _⟩ (.print (.number "1")) rfl
  exact ⟨hfault, hresumes.refused 0 _ _ hfault (.inr ⟨_, rfl⟩), hprogram, hplace, hafter, t, _, htaken⟩

end MarathiScript
