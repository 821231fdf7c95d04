/-
  MarathiScript.Proofs.Run.Calls — which calls are made, and how many at a time.

  A call is `Refused` for the first of four reasons: the function is unknown, the number of
  arguments is wrong, an argument has no value (the first such one), or as many calls as
  allowed are in progress. Preparing a call refuses it for these reasons and no others
  (`Session.prepare_error_iff`), before anything but the log is touched.

  Proved (`calls_bounded`): started with no call in progress, a run has at most `limit` calls in
  progress in every state that it comes to, and no other depths are noted in the log; there
  each call is refused if and only if there is a reason for it, with all but the log as it was,
  and is made otherwise. A run in progress has one frame for each of its callers, and a step
  keeps to the limit (`Progress.Step.bounded`).
-/

import MarathiScript.Proofs.Run.Progress
import MarathiScript.Proofs.Run.Notes
import MarathiScript.Proofs.Run.Operands

namespace MarathiScript

/-! ## Refused calls -/

/-- Why a call is refused: the first of four reasons, in this order. -/
inductive Refused (limit : Nat) (s : Session) (name : String) (arguments : List Expr) :
    RunError → Prop
  | unknown : s.functions.get? name = none → Refused limit s name arguments (.undefinedFunction name)
  | arity {f : Function} : s.functions.get? name = some f →
      arguments.length ≠ f.parameters.length →
        Refused limit s name arguments (.arity name f.parameters.length arguments.length)
  /-- The arguments before this one have values. -/
  | argument {f : Function} {before after : List Expr} {a : Expr} {e : RunError} :
      s.functions.get? name = some f → arguments.length = f.parameters.length →
        arguments = before ++ a :: after → (∀ b ∈ before, ∃ v, b.eval s.environment = .ok v) →
          a.eval s.environment = .error e → Refused limit s name arguments e
  | depth {f : Function} : s.functions.get? name = some f →
      arguments.length = f.parameters.length →
        (∀ a ∈ arguments, ∃ v, a.eval s.environment = .ok v) → s.environment.depth = limit →
          Refused limit s name arguments (.depthExceeded limit)

section

variable {env : Environment} {e : RunError} {es : List Expr}

theorem evalAll_append_error {before after : List Expr} {a : Expr}
    (hbefore : ∀ b ∈ before, ∃ v, b.eval env = .ok v) (ha : a.eval env = .error e) :
    evalAll env (before ++ a :: after) = .error e := by
  induction before with
  | nil =>
    rw [List.nil_append, evalAll, ha]
    rfl
  | cons b before ih =>
    obtain ⟨v, hv⟩ := hbefore b (.head _)
    rw [List.cons_append, evalAll, hv, ih fun c hc => hbefore c (.tail _ hc)]
    rfl

theorem evalAll_ok_iff : (∃ vs, evalAll env es = .ok vs) ↔ ∀ a ∈ es, ∃ v, a.eval env = .ok v := by
  induction es with
  | nil => exact ⟨fun _ => nofun, fun _ => ⟨[], rfl⟩⟩
  | cons a es ih =>
    rw [List.forall_mem_cons, ← ih, evalAll]
    rcases a.eval env with err | v
    · simp [bind, Except.bind]
    · rcases evalAll env es with err | vs <;> simp [bind, Except.bind, pure, Except.pure]

end

namespace Session

variable {limit : Nat} {s : Session} {name : String} {arguments : List Expr} {e : RunError}

/-- A call is refused for the reasons listed and for no others. -/
theorem prepare_error_iff (hdepth : s.environment.depth ≤ limit) :
    (s.prepare limit name arguments).result = .error e ↔ Refused limit s name arguments e := by
  rw [prepare_result]
  constructor
  · intro h
    rcases hf : s.functions.get? name with _ | f <;> rw [hf] at h
    · cases h
      exact .unknown hf
    simp only at h
    split at h
    · rename_i harity
      cases h
      exact .arity hf harity
    rename_i harity
    have harity := Decidable.not_not.1 harity
    rcases hs : evalAll s.environment arguments with err | values <;> rw [hs] at h
    · cases h
      obtain ⟨before, a, after, hsplit, hbefore, ha⟩ := evalAll_error hs
      exact .argument hf harity hsplit hbefore ha
    simp only at h
    split at h
    · cases h
      exact .depth hf harity (evalAll_ok_iff.1 ⟨values, hs⟩) (by omega)
    · cases h
  · intro h
    cases h with
    | unknown hf => rw [hf]
    | arity hf harity => simp only [hf, if_pos harity]
    | @argument _ before after a _ hf harity hsplit hbefore ha =>
      have hs : evalAll s.environment arguments = .error e :=
        hsplit ▸ evalAll_append_error hbefore ha
      simp only [hf, harity, ne_eq, not_true_eq_false, if_false, hs]
    | depth hf harity hvalues hlimit =>
      obtain ⟨values, hs⟩ := evalAll_ok_iff.2 hvalues
      simp only [hf, harity, ne_eq, not_true_eq_false, if_false, hs, hlimit, Nat.le_refl, if_true]

end Session

/-! ## States of a run -/

open Progress

/-- An event that tells of no call, or of one within the limit. -/
def Event.Within (limit : Nat) (ev : Event) : Prop :=
  ∀ name depth, ev = .called name depth → 1 ≤ depth ∧ depth ≤ limit

/-- One frame for each caller, no more than allowed, and no other depths noted since `s`. -/
structure Progress.Bounded (limit : Nat) (s : Session) (p : Progress) : Prop where
  depth : p.session.environment.depth = p.callers.length
  bound : p.callers.length ≤ limit
  notes : Adds (Event.Within limit) s.log p.session.log

section

variable {limit : Nat} {s : Session} {p q : Progress}

theorem Event.Aside.within {ev : Event} (h : ev.Aside) : ev.Within limit :=
  fun name depth hev => absurd hev (h.noCall name depth)

theorem Progress.Step.bounded (hs : Step limit p q) (h : p.Bounded limit s) : q.Bounded limit s := by
  have hquiet : ∀ ev : Event, ev.Aside → ev.Within limit := fun _ => Event.Aside.within
  cases hs with
  | go hm =>
    have hgoes := Session.move_go hm
    exact ⟨hgoes.depth.trans h.depth, h.bound, h.notes.trans (hgoes.adds hquiet fun _ => nofun)⟩
  | @fail _ _ callers _ t _ hm =>
    refine ⟨?_, h.bound, h.notes.trans (Session.move_error_notes hquiet hm)⟩
    show t.environment.depth = callers.length
    rw [(Session.move_error_quiet hm).1]
    exact h.depth
  | @call _ _ rest callers t u hm =>
    obtain ⟨hallowed, hdepth⟩ := Session.move_call_depth hm
    have hbefore : t.environment.depth = callers.length := h.depth
    have hcall : ∀ name, Event.Within limit (.called name (t.environment.depth + 1)) := by
      rintro name name' depth ⟨⟩
      omega
    refine ⟨?_, ?_, h.notes.trans (Session.move_call_notes hquiet hm hcall)⟩
    · show u.environment.depth = callers.length + 1
      omega
    · show callers.length + 1 ≤ limit
      omega
  | @back rest callers t | @out rest callers t =>
    have hbefore : t.environment.depth = callers.length + 1 := h.depth
    have hbound : callers.length + 1 ≤ limit := h.bound
    refine ⟨?_, ?_, h.notes⟩
    · show t.environment.pop.depth = callers.length
      rw [Environment.depth_pop]
      omega
    · show callers.length ≤ limit
      omega

theorem Reached.bounded {program : Block} (hdepth : s.environment.depth = 0)
    (h : Reached limit (running program [] s) p) : p.Bounded limit s := by
  induction h with
  | start => exact ⟨hdepth, Nat.zero_le _, .refl _⟩
  | step _ hs ih => exact hs.bounded ih

/-- A call fails in its own step exactly when preparing it does. -/
theorem Progress.call_fails_iff {name : String} {arguments : List Expr} {rest : Block}
    {callers : List Block} {t u : Session} {e : RunError} :
    Step limit (running (.call name arguments :: rest) callers t) (failing e callers u) ↔
      t.prepare limit name arguments = ⟨.error e, u⟩ := by
  constructor
  · intro hs
    cases hs with
    | fail hm => exact Outcome.proceed_error hm
  · intro hp
    exact .fail (by simp only [Session.move, hp, Outcome.proceed])

end

/-- From a start with no call in progress a run never has more than `limit` of them, and notes no
other depths. A call that it comes to is refused for the first reason that there is, with all but
the log as it was, and is made if there is none. -/
theorem calls_bounded {limit : Nat} {program : Block} {s : Session} {p : Progress}
    (hdepth : s.environment.depth = 0) (h : Reached limit (running program [] s) p) :
    p.session.environment.depth ≤ limit ∧
      (∃ new, p.session.log.toList = s.log.toList ++ new ∧
        ∀ name depth, .called name depth ∈ new → 1 ≤ depth ∧ depth ≤ limit) ∧
      ∀ name arguments rest callers t,
        p = running (.call name arguments :: rest) callers t →
          (∀ e, (∃ u, Step limit p (failing e callers u)) ↔ Refused limit t name arguments e) ∧
          (∀ e u, Step limit p (failing e callers u) →
            u.environment = t.environment ∧ u.functions = t.functions ∧ u.printed = t.printed) ∧
          ((∀ e, ¬ Refused limit t name arguments e) →
            ∃ f u, t.functions.get? name = some f ∧ Step limit p (running f.body (rest :: callers) u) ∧
              u.environment.depth = t.environment.depth + 1) := by
  have hbounded := h.bounded hdepth
  have hwithin : p.session.environment.depth ≤ limit := hbounded.depth ▸ hbounded.bound
  refine ⟨hwithin, ?_, ?_⟩
  · obtain ⟨new, hlog, hnew⟩ := hbounded.notes
    exact ⟨new, hlog, fun name depth hmem => hnew _ hmem name depth rfl⟩
  · rintro name arguments rest callers t rfl
    have hle : t.environment.depth ≤ limit := hwithin
    have hiff : ∀ e, (∃ u, Step limit (running (.call name arguments :: rest) callers t)
        (failing e callers u)) ↔ Refused limit t name arguments e := by
      intro e
      rw [← Session.prepare_error_iff hle]
      simp only [call_fails_iff]
      rcases t.prepare limit name arguments with ⟨r, u⟩
      simp
    refine ⟨hiff, fun e u hs => Session.prepare_quiet (call_fails_iff.1 hs), fun hnone => ?_⟩
    rcases hp : t.prepare limit name arguments with ⟨e | ⟨f, frame⟩, u⟩
    · exact absurd ((hiff e).1 ⟨u, call_fails_iff.2 hp⟩) (hnone e)
    · have hm : t.move limit (.call name arguments) = ⟨.ok (.call f.body), u.enter name frame⟩ := by
        simp only [Session.move, hp, Outcome.proceed]
      exact ⟨f, _, (Session.prepare_ok hp).1, .call hm, (Session.move_call_depth hm).2⟩

/-- A function that calls itself with one call allowed: in its body as many calls are in progress
as allowed, and the second call is refused for that. -/
theorem calls_bounded_nested :
    let program : Block := [.define "f" ["n"] [.call "f" [.name "n"]], .call "f" [.number "1"]]
    ∃ t, Reached 1 (running program [] .fresh) (running [.call "f" [.name "n"]] [[]] t) ∧
      t.environment.depth = 1 ∧ Refused 1 t "f" [.name "n"] (.depthExceeded 1) := by
  intro program
  have hreached : Reached 1 (running program [] .fresh) (running [.call "f" [.name "n"]] [[]] _) :=
    .step (.step .start (.go rfl)) (.call rfl)
  obtain ⟨-, -, hcalls⟩ := calls_bounded rfl hreached
  exact ⟨_, hreached, rfl, ((hcalls _ _ _ _ _ rfl).1 _).1 ⟨_, .fail rfl⟩⟩

end MarathiScript
