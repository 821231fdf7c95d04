/-
  MarathiScript.Proofs.Run.Output — printed lines are put after those before and not read back.

  A step looks neither at the lines printed before nor at the log. Put the same lines and events
  before those of a session (`Session.after`), and each step is the same, with these before what
  it leaves (`Session.move_after`). So the runs from sessions that differ in nothing else go side by
  side, calls and errors included, and add the same to each (`Ran.after`).

  What INFO hears of the log mirrors the lines (`Session.Mirrored`): evaluating and all else that
  a step does is noted at other levels, and a line is noted as it is printed. Every step keeps
  this, and so does a run, however it ends (`Ran.mirrored`).

  Proved (`output_appended`): whatever was printed and noted before, a program runs for ever, or it
  ends with one result, with the same variables and functions, and with the same lines put after
  those before, of which INFO hears one record each.
-/

import MarathiScript.Proofs.Run.Notes
import MarathiScript.Script

namespace MarathiScript

/-! ## What was printed and noted before -/

/-- The session with these lines and events before its own. -/
def Session.after (s : Session) (lines : Array String) (events : Array Event) : Session :=
  { s with printed := lines ++ s.printed, log := events ++ s.log }

def Outcome.after {α : Type} (o : Outcome α) (lines : Array String) (events : Array Event) :
    Outcome α :=
  ⟨o.result, o.session.after lines events⟩

section

variable {env : Environment} {events : Array Event}

mutual

theorem Expr.noted_after (log : Array Event) : (e : Expr) →
    e.noted env (events ++ log) = ((e.noted env log).1, events ++ (e.noted env log).2)
  | .chain first links => by
    rw [Expr.noted, Expr.noted, first.noted_after log]
    rcases first.noted env log with ⟨err | v, later⟩
    · rfl
    · simp only
      rw [notedLinks_after later v links]
      rcases notedLinks env later v links with ⟨err | u, last⟩
      · rfl
      · simp only [Array.append_push]
  | .name _ | .number _ | .float _ | .string _ => rfl

theorem notedLinks_after (log : Array Event) (v : Value) : (links : List (String × Expr)) →
    notedLinks env (events ++ log) v links =
      ((notedLinks env log v links).1, events ++ (notedLinks env log v links).2)
  | [] => rfl
  | (operator, operand) :: links => by
    rw [notedLinks, notedLinks, operand.noted_after log]
    rcases operand.noted env log with ⟨err | w, later⟩
    · rfl
    · simp only
      rcases v.combine operator w with err | u
      · rfl
      · exact notedLinks_after later u links

end

theorem notedAll_after (log : Array Event) (es : List Expr) :
    notedAll env (events ++ log) es = ((notedAll env log es).1, events ++ (notedAll env log es).2) := by
  induction es generalizing log with
  | nil => rfl
  | cons e es ih =>
    rw [notedAll, notedAll, e.noted_after log]
    rcases e.noted env log with ⟨err | v, later⟩
    · rfl
    · simp only
      rw [ih later]
      rcases notedAll env later es with ⟨err | vs, last⟩ <;> rfl

end

section

variable {limit : Nat} {lines : Array String} {events : Array Event}

theorem Outcome.proceed_after {α β : Type} (o : Outcome α) {next : α → Session → β × Session}
    (hnext : ∀ a t, next a (t.after lines events) = ((next a t).1, (next a t).2.after lines events)) :
    (o.after lines events).proceed next = (o.proceed next).after lines events := by
  rcases o with ⟨e | a, t⟩
  · rfl
  · simp only [Outcome.after, Outcome.proceed, hnext]

namespace Session

variable (s : Session)

theorem note_after (ev : Event) :
    (s.after lines events).note ev = (s.note ev).after lines events := by
  simp only [note, Session.after, Array.append_push]

theorem bind_after (name : String) (v : Value) :
    (s.after lines events).bind name v = (s.bind name v).after lines events := by
  simp only [bind, note, Session.after, Array.append_push]

theorem print_after (v : Value) :
    (s.after lines events).print v = (s.print v).after lines events := by
  simp only [print, note, Session.after, Array.append_push]

theorem define_after (name : String) (f : Function) :
    (s.after lines events).define name f = (s.define name f).after lines events := by
  simp only [define, note, Session.after, Array.append_push]

theorem enter_after (name : String) (frame : Frame) :
    (s.after lines events).enter name frame = (s.enter name frame).after lines events := by
  simp only [enter, note, Session.after, Array.append_push]

theorem evaluate_after (e : Expr) :
    (s.after lines events).evaluate e = (s.evaluate e).after lines events := by
  simp only [evaluate, Session.after, e.noted_after s.log]
  rfl

theorem test_after (e : Expr) : (s.after lines events).test e = (s.test e).after lines events := by
  rw [test, test, s.evaluate_after e]
  rcases s.evaluate e with ⟨err | v, t⟩ <;> rfl

theorem ask_after (c : Condition) :
    (s.after lines events).ask c = (s.ask c).after lines events := by
  unfold ask
  simp only [Session.after]
  rcases s.environment.read c.name with err | v
  · rfl
  · simp only [Outcome.after, note, Session.after, Array.append_push]

theorem prepare_after (name : String) (arguments : List Expr) :
    (s.after lines events).prepare limit name arguments =
      (s.prepare limit name arguments).after lines events := by
  unfold prepare
  simp only [Session.after, notedAll_after s.log arguments]
  rcases s.functions.get? name with _ | f
  · rfl
  simp only
  split
  · rfl
  · rcases notedAll s.environment s.log arguments with ⟨err | values, log⟩
    · rfl
    · simp only
      split <;> rename_i hdepth
      · exact if_pos hdepth
      · exact if_neg hdepth

/-- A step is the same, whatever was printed and noted before. -/
theorem move_after (stmt : Stmt) :
    (s.after lines events).move limit stmt = (s.move limit stmt).after lines events := by
  rcases stmt with ⟨name, value⟩ | ⟨name, value⟩ | ⟨c, consequence, alternative⟩ | ⟨c, body⟩ |
    ⟨_ | init, c, step, body⟩ | ⟨name, parameters, body⟩ | ⟨name, arguments⟩ | ⟨value⟩ <;>
    simp only [move]
  case declare | assign =>
    rw [s.evaluate_after value]
    exact Outcome.proceed_after _ fun v t => by rw [t.bind_after]
  case print =>
    rw [s.evaluate_after value]
    exact Outcome.proceed_after _ fun v t => by rw [t.print_after]
  case branch =>
    rw [s.ask_after c]
    refine Outcome.proceed_after _ fun holds t => ?_
    rcases holds with _ | _
    · rcases alternative with _ | alternative
      · rfl
      · simp only [t.note_after]
    · simp only [t.note_after]
  case whilst | count.none =>
    rw [s.test_after c]
    exact Outcome.proceed_after _ fun _ _ => rfl
  case count.some => rfl
  case define =>
    rw [s.define_after]
    rfl
  case call =>
    rw [s.prepare_after]
    exact Outcome.proceed_after _ fun call t => by rw [t.enter_after]

variable {s}

/-- What a step came to does not show what was printed and noted before. -/
theorem move_of_after {stmt : Stmt} {r : Except RunError Move} {t : Session}
    (hm : (s.after lines events).move limit stmt = ⟨r, t⟩) :
    ∃ u : Session, t = u.after lines events ∧
      ∀ lines' events', (s.after lines' events').move limit stmt = ⟨r, u.after lines' events'⟩ := by
  rw [s.move_after stmt] at hm
  rcases hs : s.move limit stmt with ⟨r', u⟩
  rw [hs] at hm
  cases hm
  refine ⟨u, rfl, fun lines' events' => ?_⟩
  rw [s.move_after stmt, hs]
  rfl

end Session

/-- A run goes the same way, whatever was printed and noted before. -/
theorem Ran.after {block : Block} {s : Session} {o : Outcome Unit}
    (h : Ran limit block (s.after lines events) o) :
    ∃ first : Outcome Unit, o = first.after lines events ∧
      ∀ lines' events', Ran limit block (s.after lines' events') (first.after lines' events') := by
  generalize hs : s.after lines events = start at h
  induction h generalizing s with
  | nil =>
    subst hs
    exact ⟨⟨.ok (), s⟩, rfl, fun _ _ => .nil _⟩
  | fail hm =>
    subst hs
    obtain ⟨u, rfl, hmove⟩ := Session.move_of_after hm
    exact ⟨⟨.error _, u⟩, rfl, fun _ _ => .fail (hmove _ _)⟩
  | go hm _ ih =>
    subst hs
    obtain ⟨u, rfl, hmove⟩ := Session.move_of_after hm
    obtain ⟨first, rfl, hrun⟩ := ih rfl
    exact ⟨first, rfl, fun _ _ => .go (hmove _ _) (hrun _ _)⟩
  | call hm _ _ ihb ihr =>
    subst hs
    obtain ⟨u, rfl, hmove⟩ := Session.move_of_after hm
    obtain ⟨⟨_, v⟩, hbody, hrun⟩ := ihb rfl
    cases hbody
    obtain ⟨first, rfl, hrest⟩ := ihr (s := v.leave) rfl
    exact ⟨first, rfl, fun _ _ => .call (hmove _ _) (hrun _ _) (hrest _ _)⟩
  | callFail hm _ ihb =>
    subst hs
    obtain ⟨u, rfl, hmove⟩ := Session.move_of_after hm
    obtain ⟨⟨_, v⟩, hbody, hrun⟩ := ihb rfl
    cases hbody
    exact ⟨⟨.error _, v.leave⟩, rfl, fun _ _ => .callFail (hmove _ _) (hrun _ _)⟩

end

/-! ## What the log tells of the lines -/

/-- What a listener at INFO hears of these events. -/
def heardOf (events : List Event) : List Record := Level.info.heard (events.map Event.record)

/-- What INFO hears of the log is one record for each printed line. -/
def Session.Mirrored (s : Session) : Prop :=
  heardOf s.log.toList = s.lines.map fun line => ⟨.info, .running, "output: " ++ line⟩

def Event.Unheard (ev : Event) : Prop := ev.level ≠ .info

theorem Event.Aside.unheard {ev : Event} (h : ev.Aside) : ev.Unheard := by
  cases ev with
  | printed text => exact absurd rfl (h.noLine text)
  | _ => nofun

theorem heardOf_append (events more : List Event) :
    heardOf (events ++ more) = heardOf events ++ heardOf more := by
  simp only [heardOf, Level.heard, List.map_append, List.filter_append]

theorem heardOf_unheard {events : List Event} (h : ∀ ev ∈ events, ev.Unheard) :
    heardOf events = [] := by
  refine List.filter_eq_nil_iff.2 fun r hr => ?_
  obtain ⟨ev, hev, rfl⟩ := List.mem_map.1 hr
  have hlevel : ev.level ≠ .info := h ev hev
  show ¬ Level.info.admits ev.level = true
  cases hl : ev.level with
  | info => exact absurd hl hlevel
  | debug | trace => decide

theorem Adds.heardOf {log later : Array Event} (h : Adds Event.Unheard log later) :
    heardOf later.toList = MarathiScript.heardOf log.toList := by
  obtain ⟨new, hlater, hnew⟩ := h
  rw [hlater, heardOf_append, heardOf_unheard hnew, List.append_nil]

section

variable {limit : Nat} {s t : Session} {stmt : Stmt}

theorem Session.Mirrored.unheard (h : s.Mirrored) (hprinted : t.printed = s.printed)
    (hlog : Adds Event.Unheard s.log t.log) : t.Mirrored := by
  rw [Session.Mirrored, hlog.heardOf, Session.lines, hprinted]
  exact h

theorem Session.Goes.mirrored {more : Block} (hgoes : s.Goes stmt more t) (h : s.Mirrored) :
    t.Mirrored := by
  rcases hgoes.notes fun _ => Event.Aside.unheard with ⟨hprinted, hlog⟩ | ⟨text, log, hprinted, hlog, hpush⟩
  · exact h.unheard hprinted hlog
  · have hbefore : heardOf log.toList = s.lines.map _ := hlog.heardOf.trans h
    rw [Session.Mirrored, Session.lines, hprinted, hpush, Array.toList_push, Array.toList_push,
      heardOf_append, hbefore, List.map_append]
    rfl

theorem Session.move_call_mirrored {body : Block} (hm : s.move limit stmt = ⟨.ok (.call body), t⟩)
    (h : s.Mirrored) : t.Mirrored := by
  have hlog := Session.move_call_notes (P := Event.Unheard) (fun _ => Event.Aside.unheard) hm
    fun _ => nofun
  obtain ⟨name, arguments, f, frame, u, -, hp, -, rfl⟩ := Session.move_call hm
  exact h.unheard (Session.prepare_quiet hp).2.2 hlog

theorem Session.move_error_mirrored {e : RunError} (hm : s.move limit stmt = ⟨.error e, t⟩)
    (h : s.Mirrored) : t.Mirrored :=
  h.unheard (Session.move_error_quiet hm).2.2
    (Session.move_error_notes (fun _ => Event.Aside.unheard) hm)

theorem Ran.mirrored {block : Block} {o : Outcome Unit} (hr : Ran limit block s o)
    (h : s.Mirrored) : o.session.Mirrored := by
  induction hr with
  | nil => exact h
  | fail hm => exact Session.move_error_mirrored hm h
  | go hm _ ih => exact ih ((Session.move_go hm).mirrored h)
  | call hm _ _ ihb ihr => exact ihr (ihb (Session.move_call_mirrored hm h))
  | callFail hm _ ihb => exact ihb (Session.move_call_mirrored hm h)

end

/-- With these variables and functions a program runs for ever, or it ends with one result and one
pair of variables and functions, whatever was printed and noted before; and it puts the same lines
and events after those. Of the events INFO hears one record for each of the lines, in their order. -/
theorem output_appended (limit : Nat) (program : Block) (env : Environment)
    (functions : Table Function) :
    (∀ printed log o, ¬ Ends limit program ⟨env, functions, printed, log⟩ o) ∨
      ∃ (result : Except RunError Unit) (env' : Environment) (functions' : Table Function)
        (lines : Array String) (events : Array Event),
        (∀ printed log, Ends limit program ⟨env, functions, printed, log⟩
          ⟨result, env', functions', printed ++ lines, log ++ events⟩) ∧
        Level.info.heard (events.toList.map Event.record) =
          lines.toList.map fun line => ⟨.info, .running, "output: " ++ line⟩ := by
  let s : Session := ⟨env, functions, #[], #[]⟩
  have hafter : ∀ printed log, (⟨env, functions, printed, log⟩ : Session) = s.after printed log := by
    intro printed log
    simp only [s, Session.after, Array.append_empty]
  by_cases hends : ∃ printed log o, Ends limit program ⟨env, functions, printed, log⟩ o
  · right
    obtain ⟨printed, log, o, ho⟩ := hends
    rw [hafter, ends_iff_ran] at ho
    obtain ⟨⟨result, env', functions', lines, events⟩, -, hrun⟩ := ho.after
    refine ⟨result, env', functions', lines, events, fun printed' log' => ?_, ?_⟩
    · rw [hafter, ends_iff_ran]
      exact hrun printed' log'
    · -- the run of a session that has printed and noted nothing shows what was added
      have hstart : (s.after #[] #[]).Mirrored := rfl
      have hmirrored := (hrun #[] #[]).mirrored hstart
      simpa [Session.Mirrored, heardOf, Session.lines, Outcome.after, Session.after] using hmirrored
  · left
    intro printed log o ho
    exact hends ⟨printed, log, o, ho⟩

end MarathiScript
