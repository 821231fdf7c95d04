/-
  MarathiScript.Proofs.Run.Notes — what a run adds to the log.

  Events are noted one after the other and never taken back, so what a step did to the log is
  the list of events that it added (`Adds`). Evaluating notes chains that came to a value and
  nothing else (`Session.evaluate_notes`). The only events that tell of a call are those
  noted when one is made, and they name its depth (`Session.move_call_notes`); the only ones
  that tell of a printed line are noted when it is printed (`Session.Goes.notes`).
-/

import MarathiScript.Proofs.Run.Frames

namespace MarathiScript

/-- The later log is the other one with events after it, all with the property. -/
def Adds (P : Event → Prop) (log later : Array Event) : Prop :=
  ∃ new, later.toList = log.toList ++ new ∧ ∀ ev ∈ new, P ev

/-- An event that tells neither of a call nor of a printed line. -/
structure Event.Aside (ev : Event) : Prop where
  noCall : ∀ name depth, ev ≠ .called name depth
  noLine : ∀ text, ev ≠ .printed text

variable {P : Event → Prop}

namespace Adds

variable {log later last : Array Event}

theorem refl (log : Array Event) : Adds P log log := ⟨[], by simp, nofun⟩

theorem trans (h : Adds P log later) (h' : Adds P later last) : Adds P log last := by
  obtain ⟨new, hlater, hnew⟩ := h
  obtain ⟨more, hlast, hmore⟩ := h'
  refine ⟨new ++ more, by rw [hlast, hlater, List.append_assoc], fun ev hev => ?_⟩
  rcases List.mem_append.1 hev with hev | hev
  · exact hnew ev hev
  · exact hmore ev hev

theorem push {ev : Event} (h : Adds P log later) (hev : P ev) : Adds P log (later.push ev) :=
  h.trans ⟨[ev], Array.toList_push, by simpa using hev⟩

end Adds

/-! ## Evaluating -/

mutual

theorem Expr.noted_adds (hchain : ∀ n v, P (.combined n v)) (env : Environment) (log : Array Event) :
    (e : Expr) → Adds P log (e.noted env log).2
  | .chain first links => by
    have hfirst := first.noted_adds hchain env log
    rw [Expr.noted]
    rcases hf : first.noted env log with ⟨_ | v, later⟩ <;> rw [hf] at hfirst
    · exact hfirst
    · have hlinks := notedLinks_adds hchain env later v links
      simp only
      rcases hl : notedLinks env later v links with ⟨_ | u, last⟩ <;> rw [hl] at hlinks
      · exact hfirst.trans hlinks
      · exact (hfirst.trans hlinks).push (hchain _ _)
  | .name _ | .number _ | .float _ | .string _ => .refl log

theorem notedLinks_adds (hchain : ∀ n v, P (.combined n v)) (env : Environment) (log : Array Event)
    (v : Value) :
    (links : List (String × Expr)) → Adds P log (notedLinks env log v links).2
  | [] => .refl log
  | (operator, operand) :: links => by
    have hoperand := operand.noted_adds hchain env log
    rw [notedLinks]
    rcases ho : operand.noted env log with ⟨_ | w, later⟩ <;> rw [ho] at hoperand
    · exact hoperand
    · simp only
      rcases v.combine operator w with _ | u
      · exact hoperand
      · exact hoperand.trans (notedLinks_adds hchain env later u links)

end

theorem notedAll_adds (hchain : ∀ n v, P (.combined n v)) (env : Environment) (log : Array Event)
    (es : List Expr) : Adds P log (notedAll env log es).2 := by
  induction es generalizing log with
  | nil => exact .refl log
  | cons e es ih =>
    have he := e.noted_adds hchain env log
    rw [notedAll]
    rcases hv : e.noted env log with ⟨_ | v, later⟩ <;> rw [hv] at he
    · exact he
    · have hes := ih later
      simp only
      rcases hvs : notedAll env later es with ⟨_ | vs, last⟩ <;> rw [hvs] at hes <;> exact he.trans hes

/-! ## Steps -/

namespace Session

variable {limit : Nat} {s t : Session} {stmt : Stmt}

section

variable (hP : ∀ ev : Event, ev.Aside → P ev)

include hP

theorem evaluate_notes {e : Expr} {r : Except RunError Value} (h : s.evaluate e = ⟨r, t⟩) :
    Adds P s.log t.log := by
  have hadds := e.noted_adds (fun n v => hP (.combined n v) ⟨nofun, nofun⟩) s.environment s.log
  have ht := s.evaluate_session e
  rw [h] at ht
  rw [show t = _ from ht]
  exact hadds

theorem test_notes {e : Expr} {r : Except RunError Bool} (h : s.test e = ⟨r, t⟩) :
    Adds P s.log t.log := by
  rcases hv : s.evaluate e with ⟨err | v, u⟩ <;> simp only [test, hv, Outcome.mk.injEq] at h <;>
    obtain ⟨-, rfl⟩ := h
  · exact evaluate_notes hP hv
  · exact evaluate_notes hP hv

theorem ask_notes {c : Condition} {r : Except RunError Bool} (h : s.ask c = ⟨r, t⟩) :
    Adds P s.log t.log := by
  unfold ask at h
  split at h <;> cases h
  · exact .refl _
  · exact (Adds.refl _).push (hP _ ⟨nofun, nofun⟩)

theorem prepare_notes {name : String} {arguments : List Expr}
    {r : Except RunError (Function × Frame)} (h : s.prepare limit name arguments = ⟨r, t⟩) :
    Adds P s.log t.log := by
  have hadds := notedAll_adds (fun n v => hP (.combined n v) ⟨nofun, nofun⟩) s.environment s.log arguments
  unfold prepare at h
  split at h
  · cases h
    exact .refl _
  · split at h
    · cases h
      exact .refl _
    · split at h
      · rename_i hn
        cases h
        rw [hn] at hadds
        exact hadds
      · rename_i hn
        rw [hn] at hadds
        split at h <;> cases h <;> exact hadds

theorem move_error_notes {e : RunError} (h : s.move limit stmt = ⟨.error e, t⟩) :
    Adds P s.log t.log := by
  rcases stmt with ⟨name, value⟩ | ⟨name, value⟩ | ⟨c, consequence, alternative⟩ | ⟨c, body⟩ |
    ⟨_ | init, c, step, body⟩ | ⟨name, parameters, body⟩ | ⟨name, arguments⟩ | ⟨value⟩ <;>
    simp only [move] at h
  · exact evaluate_notes hP (Outcome.proceed_error h)
  · exact evaluate_notes hP (Outcome.proceed_error h)
  · exact ask_notes hP (Outcome.proceed_error h)
  · exact test_notes hP (Outcome.proceed_error h)
  · exact test_notes hP (Outcome.proceed_error h)
  · cases h
  · cases h
  · exact prepare_notes hP (Outcome.proceed_error h)
  · exact evaluate_notes hP (Outcome.proceed_error h)

/-- A statement that is no call prints nothing and notes nothing printed, or it prints one line and
notes that at the end. -/
theorem Goes.notes {more : Block} (h : s.Goes stmt more t) :
    (t.printed = s.printed ∧ Adds P s.log t.log) ∨
      ∃ text log, t.printed = s.printed.push text ∧ Adds P s.log log ∧
        t.log = log.push (.printed text) := by
  cases h with
  | @print _ v u he =>
    have hu : u.printed = s.printed := (evaluate_quiet he).2.2.2
    exact .inr ⟨v.text, u.log, congrArg (·.push v.text) hu, evaluate_notes hP he, rfl⟩
  | declare he | assign he =>
    exact .inl ⟨(evaluate_quiet he).2.2.2, (evaluate_notes hP he).push (hP _ ⟨nofun, nofun⟩)⟩
  | consequence hc | alternative hc =>
    exact .inl ⟨(ask_quiet hc).2.2.2, (ask_notes hP hc).push (hP _ ⟨nofun, nofun⟩)⟩
  | neither hc => exact .inl ⟨(ask_quiet hc).2.2.2, ask_notes hP hc⟩
  | again hc | done hc | round hc | finish hc =>
    exact .inl ⟨(test_quiet hc).2.2.2, test_notes hP hc⟩
  | init => exact .inl ⟨rfl, .refl _⟩
  | define => exact .inl ⟨rfl, (Adds.refl _).push (hP _ ⟨nofun, nofun⟩)⟩

theorem Goes.adds {more : Block} (h : s.Goes stmt more t) (hline : ∀ text, P (.printed text)) :
    Adds P s.log t.log := by
  rcases h.notes hP with ⟨-, hlog⟩ | ⟨text, log, -, hlog, hpush⟩
  · exact hlog
  · rw [hpush]
    exact hlog.push (hline text)

/-- A call that is made is noted with the depth of its frame. -/
theorem move_call_notes {body : Block} (h : s.move limit stmt = ⟨.ok (.call body), t⟩)
    (hcall : ∀ name, P (.called name (s.environment.depth + 1))) : Adds P s.log t.log := by
  obtain ⟨name, arguments, f, frame, u, -, hp, -, rfl⟩ := move_call h
  refine (prepare_notes hP hp).push ?_
  rw [(prepare_quiet hp).1]
  exact hcall name

end

end Session

end MarathiScript
