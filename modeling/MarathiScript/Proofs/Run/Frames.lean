/-
  MarathiScript.Proofs.Run.Frames — what a run does to the frames below its own.

  Evaluating, testing and asking change the log only (`evaluate_quiet`, `test_quiet`,
  `ask_quiet`, `prepare_quiet`); a statement writes to the top frame, and a call pushes one.
  So a run that ends, well or not, leaves every frame below the top one as it was
  (`Ran.outer`), and when the frame of a call is taken off the variables are those from
  before the call (`Ran.leave_environment`).
-/

import MarathiScript.Proofs.Run.Rules

namespace MarathiScript

namespace Session

/-- The two sessions differ in nothing but the log. -/
def Quiet (s t : Session) : Prop :=
  t.environment = s.environment ∧ t.functions = s.functions ∧ t.printed = s.printed

variable {s t : Session}

theorem evaluate_quiet {e : Expr} {r : Except RunError Value} (h : s.evaluate e = ⟨r, t⟩) :
    r = e.eval s.environment ∧ s.Quiet t := by
  have hr := s.evaluate_result e
  have ht := s.evaluate_session e
  rw [h] at hr ht
  subst hr ht
  exact ⟨rfl, rfl, rfl, rfl⟩

theorem test_quiet {e : Expr} {r : Except RunError Bool} (h : s.test e = ⟨r, t⟩) :
    r = e.holds s.environment ∧ s.Quiet t := by
  rcases hv : s.evaluate e with ⟨err | v, u⟩ <;> obtain ⟨hr, hu⟩ := evaluate_quiet hv <;>
    simp only [test, hv, Outcome.mk.injEq] at h <;> obtain ⟨rfl, rfl⟩ := h
  · exact ⟨by rw [Expr.holds, ← hr]; rfl, hu⟩
  · exact ⟨by rw [Expr.holds, ← hr]; rfl, hu⟩

theorem ask_quiet {c : Condition} {r : Except RunError Bool} (h : s.ask c = ⟨r, t⟩) :
    r = c.holds s.environment ∧ s.Quiet t := by
  unfold ask at h
  unfold Condition.holds
  rcases hv : s.environment.read c.name with err | v <;> simp only [hv, Outcome.mk.injEq] at h <;>
    obtain ⟨rfl, rfl⟩ := h
  · exact ⟨rfl, rfl, rfl, rfl⟩
  · exact ⟨rfl, rfl, rfl, rfl⟩

theorem prepare_quiet {limit : Nat} {name : String} {arguments : List Expr}
    {r : Except RunError (Function × Frame)} (h : s.prepare limit name arguments = ⟨r, t⟩) :
    s.Quiet t := by
  unfold prepare at h
  split at h
  · cases h; exact ⟨rfl, rfl, rfl⟩
  · split at h
    · cases h; exact ⟨rfl, rfl, rfl⟩
    · split at h
      · cases h; exact ⟨rfl, rfl, rfl⟩
      · split at h <;> cases h <;> exact ⟨rfl, rfl, rfl⟩

/-- What preparing a call comes to, the log apart. -/
theorem prepare_result (limit : Nat) (s : Session) (name : String) (arguments : List Expr) :
    (s.prepare limit name arguments).result =
      match s.functions.get? name with
      | none => .error (.undefinedFunction name)
      | some f =>
        if arguments.length ≠ f.parameters.length then
          .error (.arity name f.parameters.length arguments.length)
        else
          match evalAll s.environment arguments with
          | .error err => .error err
          | .ok values =>
            if limit ≤ s.environment.depth then .error (.depthExceeded limit)
            else .ok (f, Table.ofList (f.parameters.zip values)) := by
  rw [← notedAll_fst s.environment s.log arguments]
  unfold prepare
  rcases s.functions.get? name with _ | f
  · rfl
  simp only
  split
  · rfl
  · rcases notedAll s.environment s.log arguments with ⟨err | values, log⟩
    · rfl
    · simp only
      split <;> rfl

/-- A call that is not refused is of a declared function, with fewer calls in progress than allowed. -/
theorem prepare_ok {limit : Nat} {name : String} {arguments : List Expr} {f : Function}
    {frame : Frame} (h : s.prepare limit name arguments = ⟨.ok (f, frame), t⟩) :
    s.functions.get? name = some f ∧ s.environment.depth < limit := by
  unfold prepare at h
  split at h
  · cases h
  · rename_i g hg
    split at h
    · cases h
    · split at h
      · cases h
      · split at h
        · cases h
        · rename_i hdepth
          cases h
          exact ⟨hg, by omega⟩

/-- The frame of a call binds the parameters to the values of the arguments. -/
theorem prepare_frame {limit : Nat} {name : String} {arguments : List Expr} {f : Function}
    {frame : Frame} (h : s.prepare limit name arguments = ⟨.ok (f, frame), t⟩) :
    ∃ values, evalAll s.environment arguments = .ok values ∧
      frame = Table.ofList (f.parameters.zip values) := by
  have hr := s.prepare_result limit name arguments
  rw [h] at hr
  simp only at hr
  split at hr
  · cases hr
  · split at hr
    · cases hr
    · split at hr
      · cases hr
      · rename_i values hvalues
        split at hr <;> cases hr
        exact ⟨values, hvalues, rfl⟩

theorem move_error_quiet {limit : Nat} {stmt : Stmt} {e : RunError}
    (h : s.move limit stmt = ⟨.error e, t⟩) : s.Quiet t := by
  rcases stmt with ⟨name, value⟩ | ⟨name, value⟩ | ⟨c, consequence, alternative⟩ | ⟨c, body⟩ |
    ⟨_ | init, c, step, body⟩ | ⟨name, parameters, body⟩ | ⟨name, arguments⟩ | ⟨value⟩ <;>
    simp only [move] at h
  · exact (evaluate_quiet (Outcome.proceed_error h)).2
  · exact (evaluate_quiet (Outcome.proceed_error h)).2
  · exact (ask_quiet (Outcome.proceed_error h)).2
  · exact (test_quiet (Outcome.proceed_error h)).2
  · exact (test_quiet (Outcome.proceed_error h)).2
  · cases h
  · cases h
  · exact prepare_quiet (Outcome.proceed_error h)
  · exact (evaluate_quiet (Outcome.proceed_error h)).2

/-- A statement that is no call leaves the frames below the top one alone. -/
theorem Goes.outer {stmt : Stmt} {more : Block} (h : s.Goes stmt more t) :
    t.environment.outer = s.environment.outer := by
  cases h with
  | declare he | assign he | print he => rw [← (evaluate_quiet he).2.1]; rfl
  | consequence hc | alternative hc => rw [← (ask_quiet hc).2.1]; rfl
  | neither hc => rw [(ask_quiet hc).2.1]
  | again hc | done hc | round hc | finish hc => rw [(test_quiet hc).2.1]
  | init | define => rfl

/-- A call puts one frame on top of those that were there. -/
theorem move_call_outer {limit : Nat} {stmt : Stmt} {body : Block}
    (h : s.move limit stmt = ⟨.ok (.call body), t⟩) :
    t.environment.outer = s.environment.top :: s.environment.outer := by
  obtain ⟨name, arguments, f, frame, u, -, hp, -, rfl⟩ := move_call h
  show u.environment.top :: u.environment.outer = _
  rw [(prepare_quiet hp).1]

theorem Goes.depth {stmt : Stmt} {more : Block} (h : s.Goes stmt more t) :
    t.environment.depth = s.environment.depth := congrArg List.length h.outer

/-- A call that is made was still allowed, and is one more in progress. -/
theorem move_call_depth {limit : Nat} {stmt : Stmt} {body : Block}
    (h : s.move limit stmt = ⟨.ok (.call body), t⟩) :
    s.environment.depth < limit ∧ t.environment.depth = s.environment.depth + 1 := by
  have hdepth : t.environment.depth = s.environment.depth + 1 :=
    congrArg List.length (move_call_outer h)
  obtain ⟨name, arguments, f, frame, u, -, hp, -, -⟩ := move_call h
  exact ⟨(prepare_ok hp).2, hdepth⟩

theorem move_call_functions {limit : Nat} {stmt : Stmt} {body : Block}
    (h : s.move limit stmt = ⟨.ok (.call body), t⟩) : t.functions = s.functions := by
  obtain ⟨name, arguments, f, frame, u, -, hp, -, rfl⟩ := move_call h
  exact (prepare_quiet hp).2.1

theorem leave_environment {env : Environment} (h : s.environment.outer = env.top :: env.outer) :
    s.leave.environment = env := by
  show s.environment.pop = env
  unfold Environment.pop
  rw [h]

end Session

variable {limit : Nat}

theorem Ran.outer {block : Block} {s : Session} {o : Outcome Unit} (h : Ran limit block s o) :
    o.session.environment.outer = s.environment.outer := by
  induction h with
  | nil => rfl
  | fail hm => rw [(Session.move_error_quiet hm).1]
  | go hm _ ih => rw [ih, (Session.move_go hm).outer]
  | call hm _ _ ihb ihr =>
    rw [ihr, Session.leave_environment (ihb.trans (Session.move_call_outer hm))]
  | callFail hm _ ihb => rw [Session.leave_environment (ihb.trans (Session.move_call_outer hm))]

/-- When the frame of a call is taken off, the variables are those from before the call. -/
theorem Ran.leave_environment {stmt : Stmt} {body : Block} {s t : Session} {o : Outcome Unit}
    (hm : s.move limit stmt = ⟨.ok (.call body), t⟩) (h : Ran limit body t o) :
    o.session.leave.environment = s.environment :=
  Session.leave_environment (h.outer.trans (Session.move_call_outer hm))

end MarathiScript
