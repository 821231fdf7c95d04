/-
  MarathiScript.Proofs.Run.Limit — what the limit of calls decides.

  The limit is looked at when a call is prepared, and nowhere else: a higher one changes a step
  only if the step was refused for the lower one (`Session.move_raised`). So a run that was
  not refused is a run under the higher limit too, step by step (`Ran.raised`). A run that was
  refused shares its steps with the run under the higher limit up to the refused call; from
  there on nothing printed is taken back (`Ran.lines_kept`), whatever the other run goes on
  to do (`Ran.refused_lines`).

  Proved: raising the limit leaves a run as it was, unless a call was refused for the limit; and
  then the lines printed are the first ones of the run under the higher limit (`raise_limit`).
-/

import MarathiScript.Proofs.Run.Frames
import MarathiScript.Script

namespace MarathiScript

variable {limit higher : Nat}

namespace Session

variable {s t : Session} {stmt : Stmt}

/-! ## Steps under two limits -/

theorem prepare_raised (hle : limit ≤ higher) {name : String} {arguments : List Expr}
    (h : (s.prepare limit name arguments).result ≠ .error (.depthExceeded limit)) :
    s.prepare higher name arguments = s.prepare limit name arguments := by
  unfold prepare at h ⊢
  rcases hf : s.functions.get? name with _ | f
  · rfl
  rw [hf] at h
  simp only at h ⊢
  by_cases harity : arguments.length ≠ f.parameters.length
  · rw [if_pos harity, if_pos harity]
  rw [if_neg harity] at h
  rw [if_neg harity, if_neg harity]
  rcases hn : notedAll s.environment s.log arguments with ⟨e | values, log⟩
  · rfl
  rw [hn] at h
  simp only at h ⊢
  by_cases hdepth : limit ≤ s.environment.depth
  · rw [if_pos hdepth] at h
    exact absurd rfl h
  · have hhigher : ¬ higher ≤ s.environment.depth := by omega
    rw [if_neg hdepth, if_neg hhigher]

theorem move_raised (hle : limit ≤ higher)
    (h : (s.move limit stmt).result ≠ .error (.depthExceeded limit)) :
    s.move higher stmt = s.move limit stmt := by
  rcases stmt with ⟨name, value⟩ | ⟨name, value⟩ | ⟨c, consequence, alternative⟩ | ⟨c, body⟩ |
    ⟨_ | init, c, step, body⟩ | ⟨name, parameters, body⟩ | ⟨name, arguments⟩ | ⟨value⟩
  case call =>
    have hprepare : (s.prepare limit name arguments).result ≠ .error (.depthExceeded limit) := by
      intro hr
      rcases hp : s.prepare limit name arguments with ⟨r, u⟩
      rw [hp] at hr
      subst hr
      exact h (by simp only [move, hp, Outcome.proceed])
    simp only [move, prepare_raised hle hprepare]
  all_goals rfl

/-! ## Nothing printed is taken back -/

theorem Quiet.lines (h : s.Quiet t) : s.lines <+: t.lines := by
  have hlines : t.lines = s.lines := congrArg Array.toList h.2.2
  exact hlines ▸ List.prefix_rfl

theorem Goes.lines {more : Block} (h : s.Goes stmt more t) : s.lines <+: t.lines := by
  cases h with
  | declare he | assign he => exact (evaluate_quiet he).2.lines
  | @print _ v u he =>
    refine (evaluate_quiet he).2.lines.trans ⟨[v.text], ?_⟩
    show u.printed.toList ++ [v.text] = (u.printed.push v.text).toList
    rw [Array.toList_push]
  | consequence hc | alternative hc | neither hc => exact (ask_quiet hc).2.lines
  | again hc | done hc | round hc | finish hc => exact (test_quiet hc).2.lines
  | init | define => exact List.prefix_rfl

theorem move_call_lines {body : Block} (h : s.move limit stmt = ⟨.ok (.call body), t⟩) :
    s.lines <+: t.lines := by
  obtain ⟨name, arguments, f, frame, u, -, hp, -, rfl⟩ := move_call h
  exact (prepare_quiet hp).lines

end Session

variable {block : Block} {s : Session} {o o' : Outcome Unit}

theorem Ran.lines_kept (h : Ran limit block s o) : s.lines <+: o.session.lines := by
  induction h with
  | nil => exact List.prefix_rfl
  | fail hm => exact (Session.move_error_quiet hm).lines
  | go hm _ ih => exact (Session.move_go hm).lines.trans ih
  | call hm _ _ ihb ihr => exact ((Session.move_call_lines hm).trans ihb).trans ihr
  | callFail hm _ ihb => exact (Session.move_call_lines hm).trans ihb

/-! ## Runs under two limits -/

theorem Session.move_raised_eq (hle : limit ≤ higher) {stmt : Stmt} {move : Move} {t : Session}
    (h : s.move limit stmt = ⟨.ok move, t⟩) : s.move higher stmt = ⟨.ok move, t⟩ := by
  rw [Session.move_raised hle (by rw [h]; nofun), h]

/-- A run that was not refused for the limit is one under a higher limit. -/
theorem Ran.raised (hle : limit ≤ higher) (h : Ran limit block s o)
    (hresult : o.result ≠ .error (.depthExceeded limit)) : Ran higher block s o := by
  induction h with
  | nil s => exact .nil s
  | @fail stmt _ s t e hm =>
    have hmove : (s.move limit stmt).result ≠ .error (.depthExceeded limit) := by
      rw [hm]
      intro he
      cases he
      exact hresult rfl
    exact .fail (by rw [Session.move_raised hle hmove, hm])
  | go hm _ ih => exact .go (Session.move_raised_eq hle hm) (ih hresult)
  | call hm _ _ ihb ihr => exact .call (Session.move_raised_eq hle hm) (ihb nofun) (ihr hresult)
  | callFail hm _ ihb => exact .callFail (Session.move_raised_eq hle hm) (ihb hresult)

/-- What was printed up to the refused call is printed under a higher limit too, before all else. -/
theorem Ran.refused_lines (hle : limit ≤ higher) (h : Ran limit block s o)
    (hresult : o.result = .error (.depthExceeded limit)) (h' : Ran higher block s o') :
    o.session.lines <+: o'.session.lines := by
  induction h generalizing o' with
  | nil => cases hresult
  | fail hm =>
    -- from here on the other run may do anything but take lines back
    rw [Session.lines, (Session.move_error_quiet hm).2.2]
    exact h'.lines_kept
  | go hm _ ih => exact ih hresult (h'.of_go (Session.move_raised_eq hle hm))
  | call hm hb _ _ ihr =>
    -- the body was not refused, so the other run has come to the same session after it
    have hbody := hb.raised hle nofun
    rcases h'.of_call (Session.move_raised_eq hle hm) with ⟨u, hb', hr⟩ | ⟨e, u, hb', rfl⟩
    · cases hbody.unique hb'
      exact ihr hresult hr
    · cases hbody.unique hb'
  | callFail hm _ ihb =>
    rcases h'.of_call (Session.move_raised_eq hle hm) with ⟨u, hb', hr⟩ | ⟨e, u, hb', rfl⟩
    · have hb := ihb hresult hb'
      exact hb.trans hr.lines_kept
    · have hb := ihb hresult hb'
      exact hb

/-- Under a higher limit a run is the same, unless a call was refused for the limit; then its lines
come first among those of the other run, if that one ends. -/
theorem raise_limit (hle : limit ≤ higher) (program : Block) (s : Session) :
    (∀ o, Ends limit program s o → o.result ≠ .error (.depthExceeded limit) →
      Ends higher program s o) ∧
    ∀ o o', Ends limit program s o → o.result = .error (.depthExceeded limit) →
      Ends higher program s o' → o.session.lines <+: o'.session.lines := by
  constructor
  · intro o h hresult
    have hran := (ends_iff_ran.1 h).raised hle hresult
    exact ends_iff_ran.2 hran
  · intro o o' h hresult h'
    exact (ends_iff_ran.1 h).refused_lines hle hresult (ends_iff_ran.1 h')

/-- Two nested calls: with one call allowed the inner one is refused after the first line; with
three or eight allowed the run is the same. -/
theorem raise_limit_refused :
    let program : Block := [.define "f" [] [.print (.string "a"), .call "g" []],
      .define "g" [] [.print (.string "b")], .call "f" []]
    ∃ o o', Ends 1 program .fresh o ∧ o.result = .error (.depthExceeded 1) ∧
      o.session.lines = ["a"] ∧ Ends 3 program .fresh o' ∧ Ends 8 program .fresh o' ∧
      o'.session.lines = ["a", "b"] ∧ o.session.lines <+: o'.session.lines := by
  intro program
  have hone : Ends 1 program .fresh _ := ⟨10, rfl⟩
  have hthree : Ends 3 program .fresh _ := ⟨10, rfl⟩
  have height := (raise_limit (by decide : 3 ≤ 8) program .fresh).1 _ hthree nofun
  have hlines := (raise_limit (by decide : 1 ≤ 3) program .fresh).2 _ _ hone rfl hthree
  exact ⟨_, _, hone, rfl, rfl, hthree, height, rfl, hlines⟩

end MarathiScript
