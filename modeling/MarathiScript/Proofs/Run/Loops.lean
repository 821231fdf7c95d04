/-
  MarathiScript.Proofs.Run.Loops — what a counting loop stands for.

  A loop tests its condition and, while that holds, asks for the block of a round and then for
  itself (`Repeats`); how it is written matters no further. So of two statements that repeat the
  same block under the same condition each can stand for the other, before any rest: a run goes
  the same way with both, step by step, and what is still to be done differs in nothing but the
  loop at the end of the current round (`Repeats.ran`).

  Proved (`count_iff_whilst`): a counting loop runs as its opening statement and then a
  conditional loop whose rounds end with the step, to the same outcome, or for ever as that does.
-/

import MarathiScript.Proofs.Run.Rules

namespace MarathiScript

/-- The statement tests the condition and, if it holds, asks for a round and then for itself. -/
def Repeats (limit : Nat) (condition : Expr) (round : Block) (loop : Stmt) : Prop :=
  ∀ s : Session, s.move limit loop =
    (s.test condition).proceed fun holds s => (.go (if holds then round ++ [loop] else []), s)

variable {limit : Nat} {condition : Expr} {step loop loop' : Stmt} {body round : Block}

theorem whilst_repeats : Repeats limit condition body (.whilst condition body) := fun _ => rfl

theorem count_repeats :
    Repeats limit condition (body ++ [step]) (.count none condition step body) := by
  intro s
  simp only [Session.move, List.append_assoc, List.singleton_append]

namespace Repeats

variable {s t : Session}

theorem move_error {e : RunError} (h : Repeats limit condition round loop)
    (hm : s.move limit loop = ⟨.error e, t⟩) : s.test condition = ⟨.error e, t⟩ :=
  Outcome.proceed_error ((h s).symm.trans hm)

theorem move_ok {move : Move} (h : Repeats limit condition round loop)
    (hm : s.move limit loop = ⟨.ok move, t⟩) :
    ∃ holds, s.test condition = ⟨.ok holds, t⟩ ∧
      move = .go (if holds then round ++ [loop] else []) := by
  obtain ⟨holds, u, htest, hnext⟩ := Outcome.proceed_ok ((h s).symm.trans hm)
  cases hnext
  exact ⟨holds, htest, rfl⟩

theorem fails {e : RunError} (h : Repeats limit condition round loop)
    (htest : s.test condition = ⟨.error e, t⟩) : s.move limit loop = ⟨.error e, t⟩ := by
  rw [h s, htest]
  rfl

theorem goes {holds : Bool} (h : Repeats limit condition round loop)
    (htest : s.test condition = ⟨.ok holds, t⟩) :
    s.move limit loop = ⟨.ok (.go (if holds then round ++ [loop] else [])), t⟩ := by
  rw [h s, htest]
  rfl

/-- Two loops that repeat the same block under the same condition can stand for each other. -/
theorem ran (h : Repeats limit condition round loop) (h' : Repeats limit condition round loop')
    {todo rest : Block} {o : Outcome Unit} (hr : Ran limit (todo ++ loop :: rest) s o) :
    Ran limit (todo ++ loop' :: rest) s o := by
  generalize hblock : todo ++ loop :: rest = block at hr
  -- `todo` is what is left of the current round; without it the loop itself is next
  induction hr generalizing todo with
  | nil => simp at hblock
  | fail hm =>
    cases todo with
    | cons stmt todo =>
      cases hblock
      exact .fail hm
    | nil =>
      cases hblock
      exact .fail (h'.fails (h.move_error hm))
  | go hm hgo ih =>
    cases todo with
    | cons stmt todo =>
      cases hblock
      have hrest := ih (List.append_assoc _ _ _)
      exact .go hm (by rwa [List.append_assoc] at hrest)
    | nil =>
      cases hblock
      obtain ⟨holds, htest, hmore⟩ := h.move_ok hm
      cases hmore
      refine .go (h'.goes htest) ?_
      cases holds with
      | true =>
        have hround := @ih round (by simp)
        simpa using hround
      | false => exact hgo
  | call hm hbody _ _ ih =>
    cases todo with
    | cons stmt todo =>
      cases hblock
      exact .call hm hbody (ih rfl)
    | nil =>
      cases hblock
      obtain ⟨_, -, hmove⟩ := h.move_ok hm
      cases hmove
  | callFail hm hbody =>
    cases todo with
    | cons stmt todo =>
      cases hblock
      exact .callFail hm hbody
    | nil =>
      cases hblock
      obtain ⟨_, -, hmove⟩ := h.move_ok hm
      cases hmove

end Repeats

/-- A counting loop and its parts written out, the opening statement first and the step at the end
of each round, run for ever from the same sessions, and else to the same outcome. -/
theorem count_iff_whilst (limit : Nat) (init : Option Stmt) (condition : Expr) (step : Stmt)
    (body rest : Block) (s : Session) (o : Outcome Unit) :
    Ends limit (.count init condition step body :: rest) s o ↔
      Ends limit (init.toList ++ .whilst condition (body ++ [step]) :: rest) s o := by
  have hcount : Repeats limit condition (body ++ [step]) (.count none condition step body) :=
    count_repeats
  have hwhilst : Repeats limit condition (body ++ [step]) (.whilst condition (body ++ [step])) :=
    whilst_repeats
  have hloops : ∀ todo, Ran limit (todo ++ .count none condition step body :: rest) s o ↔
      Ran limit (todo ++ .whilst condition (body ++ [step]) :: rest) s o :=
    fun _ => ⟨hcount.ran hwhilst, hwhilst.ran hcount⟩
  rw [ends_iff_ran, ends_iff_ran, ← hloops]
  cases init with
  | none => rfl
  | some init =>
    have hopen : s.move limit (.count (some init) condition step body) =
        ⟨.ok (.go [init, .count none condition step body]), s⟩ := rfl
    exact ⟨Ran.of_go hopen, Ran.go hopen⟩

end MarathiScript
