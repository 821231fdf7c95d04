/-
  MarathiScript.Proofs.Run.Rules — running as rules, without fuel.

  A statement takes one step of its own (`Session.move`), and what it asks for after that is
  of two kinds: more statements in its place (`Session.move_go`), or the body of a call
  (`Session.move_call`). A loop that goes on asks for its body and then for itself. `Ran`
  builds the runs that end from these steps; calls are the only ones that nest.

  Proved: a block ends with an outcome iff the rules give it that outcome (`ends_iff_ran`), so
  a fact about all runs that end is an induction over five rules. Blocks compose: a run of
  `block ++ rest` is a run of `block` and, if that succeeds, of `rest` (`Ran.append_then`).
-/

import MarathiScript.Session.Fuel

namespace MarathiScript

/-- What a statement asks for after its own step. -/
inductive Move where
  /-- These statements, in the place of the statement. -/
  | go (block : Block)
  /-- The body of a call whose frame has been put on top. -/
  | call (body : Block)

namespace Outcome

/-- Goes on after a success with a step that cannot fail. -/
def proceed {α β : Type} (o : Outcome α) (next : α → Session → β × Session) : Outcome β :=
  match o with
  | ⟨.ok a, s⟩ => ⟨.ok (next a s).1, (next a s).2⟩
  | ⟨.error e, s⟩ => ⟨.error e, s⟩

variable {α β : Type} {o : Outcome α} {next : α → Session → β × Session}

theorem proceed_ok {b : β} {t : Session} (h : o.proceed next = ⟨.ok b, t⟩) :
    ∃ a s, o = ⟨.ok a, s⟩ ∧ next a s = (b, t) := by
  rcases o with ⟨_ | a, s⟩
  · cases h
  · cases h; exact ⟨a, s, rfl, rfl⟩

theorem proceed_error {e : RunError} {t : Session} (h : o.proceed next = ⟨.error e, t⟩) :
    o = ⟨.error e, t⟩ := by
  rcases o with ⟨_ | a, s⟩
  · cases h; rfl
  · cases h

end Outcome

/-- The step of a statement. -/
def Session.move (limit : Nat) (s : Session) : Stmt → Outcome Move
  | .declare name value | .assign name value =>
    (s.evaluate value).proceed fun v s => (.go [], s.bind name v)
  | .print value => (s.evaluate value).proceed fun v s => (.go [], s.print v)
  | .branch condition consequence alternative =>
    (s.ask condition).proceed fun holds s =>
      match holds, alternative with
      | true, _ => (.go consequence, s.note .choseConsequence)
      | false, some block => (.go block, s.note .choseAlternative)
      | false, none => (.go [], s)
  | .whilst condition body =>
    (s.test condition).proceed fun holds s =>
      (.go (if holds then body ++ [.whilst condition body] else []), s)
  | .count (some init) condition step body =>
    ⟨.ok (.go [init, .count none condition step body]), s⟩
  | .count none condition step body =>
    (s.test condition).proceed fun holds s =>
      (.go (if holds then body ++ [step, .count none condition step body] else []), s)
  | .define name parameters body => ⟨.ok (.go []), s.define name ⟨parameters, body⟩⟩
  | .call name arguments =>
    (s.prepare limit name arguments).proceed fun call s => (.call call.1.body, s.enter name call.2)

/-- Only a call asks for the body of a call: that of the function prepared, with its frame on top. -/
theorem Session.move_call {limit : Nat} {s t : Session} {stmt : Stmt} {body : Block}
    (h : s.move limit stmt = ⟨.ok (.call body), t⟩) :
    ∃ name arguments f frame u, stmt = .call name arguments ∧
      s.prepare limit name arguments = ⟨.ok (f, frame), u⟩ ∧ body = f.body ∧
      t = u.enter name frame := by
  rcases stmt with ⟨name, value⟩ | ⟨name, value⟩ | ⟨c, consequence, alternative⟩ | ⟨c, body⟩ |
    ⟨_ | init, c, step, body⟩ | ⟨name, parameters, body⟩ | ⟨name, arguments⟩ | ⟨value⟩ <;>
    simp only [Session.move] at h
  case call =>
    obtain ⟨⟨f, frame⟩, u, hp, hn⟩ := Outcome.proceed_ok h
    cases hn
    exact ⟨name, arguments, f, frame, u, rfl, hp, rfl, rfl⟩
  case branch =>
    obtain ⟨holds, u, -, hn⟩ := Outcome.proceed_ok h
    rcases holds with _ | _ <;> rcases alternative with _ | _ <;> cases hn
  case define => cases h
  all_goals first
    | cases h
    | (obtain ⟨_, _, -, hn⟩ := Outcome.proceed_ok h; cases hn)

/-- The step of a statement that is no call: the statements that it asks for and the session it
leaves. -/
inductive Session.Goes (s : Session) : Stmt → Block → Session → Prop
  | declare {name : String} {value : Expr} {v : Value} {u : Session} :
      s.evaluate value = ⟨.ok v, u⟩ → Goes s (.declare name value) [] (u.bind name v)
  | assign {name : String} {value : Expr} {v : Value} {u : Session} :
      s.evaluate value = ⟨.ok v, u⟩ → Goes s (.assign name value) [] (u.bind name v)
  | print {value : Expr} {v : Value} {u : Session} :
      s.evaluate value = ⟨.ok v, u⟩ → Goes s (.print value) [] (u.print v)
  | consequence {c : Condition} {consequence : Block} {alternative : Option Block} {u : Session} :
      s.ask c = ⟨.ok true, u⟩ →
        Goes s (.branch c consequence alternative) consequence (u.note .choseConsequence)
  | alternative {c : Condition} {consequence alternative : Block} {u : Session} :
      s.ask c = ⟨.ok false, u⟩ →
        Goes s (.branch c consequence (some alternative)) alternative (u.note .choseAlternative)
  | neither {c : Condition} {consequence : Block} {u : Session} :
      s.ask c = ⟨.ok false, u⟩ → Goes s (.branch c consequence none) [] u
  | again {c : Expr} {body : Block} {u : Session} :
      s.test c = ⟨.ok true, u⟩ → Goes s (.whilst c body) (body ++ [.whilst c body]) u
  | done {c : Expr} {body : Block} {u : Session} :
      s.test c = ⟨.ok false, u⟩ → Goes s (.whilst c body) [] u
  | init {init step : Stmt} {c : Expr} {body : Block} :
      Goes s (.count (some init) c step body) [init, .count none c step body] s
  | round {step : Stmt} {c : Expr} {body : Block} {u : Session} :
      s.test c = ⟨.ok true, u⟩ →
        Goes s (.count none c step body) (body ++ [step, .count none c step body]) u
  | finish {step : Stmt} {c : Expr} {body : Block} {u : Session} :
      s.test c = ⟨.ok false, u⟩ → Goes s (.count none c step body) [] u
  | define {name : String} {parameters : List String} {body : Block} :
      Goes s (.define name parameters body) [] (s.define name ⟨parameters, body⟩)

theorem Session.move_go {limit : Nat} {s t : Session} {stmt : Stmt} {more : Block}
    (h : s.move limit stmt = ⟨.ok (.go more), t⟩) : s.Goes stmt more t := by
  rcases stmt with ⟨name, value⟩ | ⟨name, value⟩ | ⟨c, consequence, alternative⟩ | ⟨c, body⟩ |
    ⟨_ | init, c, step, body⟩ | ⟨name, parameters, body⟩ | ⟨name, arguments⟩ | ⟨value⟩ <;>
    simp only [Session.move] at h
  case define => cases h; exact .define
  case count.some => cases h; exact .init
  all_goals obtain ⟨a, u, ha, hn⟩ := Outcome.proceed_ok h
  case declare => cases hn; exact .declare ha
  case assign => cases hn; exact .assign ha
  case print => cases hn; exact .print ha
  case call => cases hn
  case branch =>
    cases a with
    | true => cases hn; exact .consequence ha
    | false =>
      cases alternative with
      | none => cases hn; exact .neither ha
      | some alternative => cases hn; exact .alternative ha
  case whilst =>
    cases a with
    | true => cases hn; exact .again ha
    | false => cases hn; exact .done ha
  case count.none =>
    cases a with
    | true => cases hn; exact .round ha
    | false => cases hn; exact .finish ha

/-- The block, run from the session, ends with the outcome. -/
inductive Ran (limit : Nat) : Block → Session → Outcome Unit → Prop
  | nil (s : Session) : Ran limit [] s ⟨.ok (), s⟩
  | fail {stmt : Stmt} {rest : Block} {s t : Session} {e : RunError} :
      s.move limit stmt = ⟨.error e, t⟩ → Ran limit (stmt :: rest) s ⟨.error e, t⟩
  | go {stmt : Stmt} {more rest : Block} {s t : Session} {o : Outcome Unit} :
      s.move limit stmt = ⟨.ok (.go more), t⟩ → Ran limit (more ++ rest) t o →
        Ran limit (stmt :: rest) s o
  | call {stmt : Stmt} {body rest : Block} {s t u : Session} {o : Outcome Unit} :
      s.move limit stmt = ⟨.ok (.call body), t⟩ → Ran limit body t ⟨.ok (), u⟩ →
        Ran limit rest u.leave o → Ran limit (stmt :: rest) s o
  | callFail {stmt : Stmt} {body rest : Block} {s t u : Session} {e : RunError} :
      s.move limit stmt = ⟨.ok (.call body), t⟩ → Ran limit body t ⟨.error e, u⟩ →
        Ran limit (stmt :: rest) s ⟨.error e, u.leave⟩

variable {limit : Nat}

/-! ## What a run began with -/

section

variable {stmt : Stmt} {more body rest : Block} {s t : Session} {o : Outcome Unit}

theorem Ran.of_go (hm : s.move limit stmt = ⟨.ok (.go more), t⟩) (h : Ran limit (stmt :: rest) s o) :
    Ran limit (more ++ rest) t o := by
  cases h with
  | fail hm' => cases hm.symm.trans hm'
  | go hm' h => cases hm.symm.trans hm'; exact h
  | call hm' => cases hm.symm.trans hm'
  | callFail hm' => cases hm.symm.trans hm'

/-- A call has run its body: to its end, and then the rest, or up to the error that ended the run. -/
theorem Ran.of_call (hm : s.move limit stmt = ⟨.ok (.call body), t⟩)
    (h : Ran limit (stmt :: rest) s o) :
    (∃ u, Ran limit body t ⟨.ok (), u⟩ ∧ Ran limit rest u.leave o) ∨
      ∃ e u, Ran limit body t ⟨.error e, u⟩ ∧ o = ⟨.error e, u.leave⟩ := by
  cases h with
  | fail hm' => cases hm.symm.trans hm'
  | go hm' => cases hm.symm.trans hm'
  | call hm' hb hr => cases hm.symm.trans hm'; exact .inl ⟨_, hb, hr⟩
  | callFail hm' hb => cases hm.symm.trans hm'; exact .inr ⟨_, _, hb, rfl⟩

end

/-! ## Blocks in a row -/

theorem Ran.append {block rest : Block} {s t : Session} {o : Outcome Unit}
    (h : Ran limit block s ⟨.ok (), t⟩) (hr : Ran limit rest t o) :
    Ran limit (block ++ rest) s o := by
  generalize ho : (⟨.ok (), t⟩ : Outcome Unit) = first at h
  induction h with
  | nil s => cases ho; exact hr
  | fail => cases ho
  | go hm _ ih => exact .go hm (by simpa using ih ho)
  | call hm hb _ _ ih => exact .call hm hb (ih ho)
  | callFail => cases ho

theorem Ran.append_error {block rest : Block} {s t : Session} {e : RunError}
    (h : Ran limit block s ⟨.error e, t⟩) : Ran limit (block ++ rest) s ⟨.error e, t⟩ := by
  generalize ho : (⟨.error e, t⟩ : Outcome Unit) = first at h
  induction h with
  | nil => cases ho
  | fail hm => cases ho; exact .fail hm
  | go hm _ ih => exact .go hm (by simpa using ih ho)
  | call hm hb _ _ ih => exact .call hm hb (ih ho)
  | callFail hm hb => cases ho; exact .callFail hm hb

/-- A block, and what follows it if it succeeds. -/
theorem Ran.append_then {block rest : Block} {s : Session} {first o : Outcome Unit}
    {next : Session → Option (Outcome Unit)} (h : Ran limit block s first)
    (hnext : ∀ t, next t = some o → Ran limit rest t o)
    (ho : (first.andThen fun _ t => next t) = some o) : Ran limit (block ++ rest) s o := by
  rcases first with ⟨_ | _, t⟩
  · cases ho; exact h.append_error
  · exact h.append (hnext t ho)

/-! ## From fuel to rules -/

/-- A statement whose own step may fail, and that asks for statements if it does not. -/
theorem Ran.of_proceed {α : Type} {stmt : Stmt} {rest : Block} {s : Session} {o : Outcome Unit}
    {first : Outcome α} {next : α → Session → Move × Session}
    {follow : α → Session → Option (Outcome Unit)} (hm : s.move limit stmt = first.proceed next)
    (h : first.andThen follow = some o)
    (hf : ∀ a t, follow a t = some o →
      ∃ more, (next a t).1 = .go more ∧ Ran limit (more ++ rest) (next a t).2 o) :
    Ran limit (stmt :: rest) s o := by
  rcases first with ⟨e | a, t⟩
  · cases h; exact .fail hm
  · obtain ⟨more, hgo, hr⟩ := hf a t h
    exact .go (by rw [hm, Outcome.proceed, hgo]) hr

theorem ran_of_exec {fuel : Nat} {block : Block} {s : Session} {o : Outcome Unit}
    (h : exec limit fuel block s = some o) : Ran limit block s o := by
  induction fuel generalizing block s o with
  | zero => simp [exec] at h
  | succ n ih =>
    have inner : ∀ {b rest : Block} {s : Session} {o : Outcome Unit}
        {next : Session → Option (Outcome Unit)}, (∀ t, next t = some o → Ran limit rest t o) →
        ((exec limit n b s).bind fun o => o.andThen fun _ t => next t) = some o →
          Ran limit (b ++ rest) s o := by
      intro b rest s o next hnext h
      obtain ⟨first, hb, h⟩ := Option.bind_eq_some_iff.1 h
      exact (ih hb).append_then hnext h
    rcases block with _ | ⟨stmt, rest⟩
    · simp only [exec, Option.some.injEq] at h
      subst h
      exact .nil s
    rw [exec.eq_def] at h
    rcases stmt with ⟨name, value⟩ | ⟨name, value⟩ | ⟨c, consequence, alternative⟩ | ⟨c, body⟩ |
      ⟨_ | init, c, step, body⟩ | ⟨name, parameters, body⟩ | ⟨name, arguments⟩ | ⟨value⟩ <;>
      simp only at h
    · exact .of_proceed rfl h fun v t h => ⟨[], rfl, ih h⟩
    · exact .of_proceed rfl h fun v t h => ⟨[], rfl, ih h⟩
    · refine .of_proceed rfl h fun holds t h => ?_
      rcases holds with _ | _
      · rcases alternative with _ | block
        · exact ⟨[], rfl, ih h⟩
        · exact ⟨block, rfl, inner (fun _ => ih) h⟩
      · exact ⟨consequence, rfl, inner (fun _ => ih) h⟩
    · refine .of_proceed rfl h fun holds t h => ?_
      rcases holds with _ | _
      · exact ⟨[], rfl, ih h⟩
      · refine ⟨body ++ [.whilst c body], rfl, ?_⟩
        simpa using inner (fun _ => ih) h
    · refine .of_proceed rfl h fun holds t h => ?_
      rcases holds with _ | _
      · exact ⟨[], rfl, ih h⟩
      · refine ⟨body ++ [step, .count none c step body], rfl, ?_⟩
        simpa using inner (fun _ => inner (fun _ => ih)) h
    · have hinit : Ran limit ([init] ++ .count none c step body :: rest) s o := inner (fun _ => ih) h
      exact .go rfl hinit
    · exact .go rfl (ih h)
    · rcases hp : s.prepare limit name arguments with ⟨e | ⟨f, frame⟩, t⟩ <;> rw [hp] at h
      · cases h
        exact .fail (by simp only [Session.move, hp, Outcome.proceed])
      · have hm : s.move limit (.call name arguments) = ⟨.ok (.call f.body), t.enter name frame⟩ := by
          simp only [Session.move, hp, Outcome.proceed]
        obtain ⟨⟨e | _, u⟩, hb, h⟩ := Option.bind_eq_some_iff.1 h
        · cases h; exact .callFail hm (ih hb)
        · exact .call hm (ih hb) (ih h)
    · exact .of_proceed rfl h fun v t h => ⟨[], rfl, ih h⟩

/-! ## From rules to fuel -/

section Cut

variable {α : Type} {last : Session → Option (Outcome Unit)} {r : Outcome Unit}

theorem andThen_cut {first : Outcome α} {whole part : α → Session → Option (Outcome Unit)}
    (hcut : ∀ a t, whole a t = some r → ((part a t).bind fun o => o.andThen fun _ t => last t) = some r)
    (h : first.andThen whole = some r) :
    ((first.andThen part).bind fun o => o.andThen fun _ t => last t) = some r := by
  rcases first with ⟨_ | a, t⟩
  · exact h
  · exact hcut a t h

theorem bind_cut {first : Option (Outcome α)} {whole part : α → Session → Option (Outcome Unit)}
    (hcut : ∀ a t, whole a t = some r → ((part a t).bind fun o => o.andThen fun _ t => last t) = some r)
    (h : (first.bind fun o => o.andThen whole) = some r) :
    ((first.bind fun o => o.andThen part).bind fun o => o.andThen fun _ t => last t) = some r := by
  obtain ⟨o, rfl, h⟩ := Option.bind_eq_some_iff.1 h
  exact andThen_cut hcut h

end Cut

/-- With the same fuel a block that is cut in two ends as before. -/
theorem exec_append {n : Nat} {block rest : Block} {s : Session} {o : Outcome Unit}
    (h : exec limit n (block ++ rest) s = some o) :
    ((exec limit n block s).bind fun o => o.andThen fun _ t => exec limit n rest t) = some o := by
  induction n generalizing block s o with
  | zero => simp [exec] at h
  | succ n ih =>
    have cut : ∀ (b : Block) {t : Session} {o : Outcome Unit}, exec limit n (b ++ rest) t = some o →
        ((exec limit n b t).bind fun o => o.andThen fun _ t => exec limit (n + 1) rest t) = some o :=
      fun b t o h => bind_andThen_mono (fun _ => id) (fun _ _ _ => exec_succ) (ih h)
    rcases block with _ | ⟨stmt, block⟩
    · simpa [exec] using h
    rw [List.cons_append, exec.eq_def] at h
    rw [exec.eq_def]
    rcases stmt with ⟨name, value⟩ | ⟨name, value⟩ | ⟨c, consequence, alternative⟩ | ⟨c, body⟩ |
      ⟨_ | init, c, step, body⟩ | ⟨name, parameters, body⟩ | ⟨name, arguments⟩ | ⟨value⟩ <;>
      simp only at h ⊢
    · exact andThen_cut (fun _ _ => cut block) h
    · exact andThen_cut (fun _ _ => cut block) h
    · refine andThen_cut (fun holds t h => ?_) h
      rcases holds with _ | _
      · rcases alternative with _ | alternative
        · exact cut block h
        · exact bind_cut (fun _ _ => cut block) h
      · exact bind_cut (fun _ _ => cut block) h
    · refine andThen_cut (fun holds t h => ?_) h
      rcases holds with _ | _
      · exact cut block h
      · exact bind_cut (fun _ _ => cut (.whilst c body :: block)) h
    · refine andThen_cut (fun holds t h => ?_) h
      rcases holds with _ | _
      · exact cut block h
      · exact bind_cut (fun _ _ => bind_cut fun _ _ => cut (.count none c step body :: block)) h
    · exact bind_cut (fun _ _ => cut (.count none c step body :: block)) h
    · exact cut block h
    · refine andThen_cut (fun call t h => ?_) h
      obtain ⟨u, hb, h⟩ := Option.bind_eq_some_iff.1 h
      simp only [hb, Option.bind_some]
      exact andThen_cut (fun _ _ => cut block) h
    · exact andThen_cut (fun _ _ => cut block) h

/-- What a statement asks for, run with some fuel, runs the statement with one unit more. -/
theorem exec_of_go {n : Nat} {stmt : Stmt} {more rest : Block} {s t : Session} {o : Outcome Unit}
    (hm : s.move limit stmt = ⟨.ok (.go more), t⟩) (h : exec limit n (more ++ rest) t = some o) :
    exec limit (n + 1) (stmt :: rest) s = some o := by
  rw [exec.eq_def]
  cases Session.move_go hm with
  | declare he | assign he | print he => simpa [he] using h
  | consequence hc | alternative hc =>
    simp only [hc, Outcome.andThen_ok]
    exact exec_append h
  | neither hc | done hc | finish hc => simpa [hc] using h
  | @again c body t hc =>
    have hbody : exec limit n (body ++ .whilst c body :: rest) t = some o := by simpa using h
    simp only [hc, Outcome.andThen_ok, if_true]
    exact exec_append hbody
  | @init init step c body =>
    have hinit : exec limit n ([init] ++ .count none c step body :: rest) s = some o := h
    exact exec_append hinit
  | @round step c body t hc =>
    have hbody : exec limit n (body ++ ([step] ++ .count none c step body :: rest)) t = some o := by
      simpa using h
    simp only [hc, Outcome.andThen_ok, if_true]
    exact bind_andThen_mono (fun _ => id) (fun _ _ _ => exec_append) (exec_append hbody)
  | define => exact h

theorem exec_of_fail {n : Nat} {stmt : Stmt} {rest : Block} {s t : Session} {e : RunError}
    (hm : s.move limit stmt = ⟨.error e, t⟩) :
    exec limit (n + 1) (stmt :: rest) s = some ⟨.error e, t⟩ := by
  rw [exec.eq_def]
  rcases stmt with ⟨name, value⟩ | ⟨name, value⟩ | ⟨c, consequence, alternative⟩ | ⟨c, body⟩ |
    ⟨_ | init, c, step, body⟩ | ⟨name, parameters, body⟩ | ⟨name, arguments⟩ | ⟨value⟩ <;>
    simp only [Session.move] at hm ⊢ <;>
    first
      | cases hm
      | rw [Outcome.proceed_error hm, Outcome.andThen_error]

theorem exec_of_call {n : Nat} {stmt : Stmt} {body rest : Block} {s t : Session}
    (hm : s.move limit stmt = ⟨.ok (.call body), t⟩) :
    exec limit (n + 1) (stmt :: rest) s =
      (exec limit n body t).bind fun o => Outcome.andThen ⟨o.result, o.session.leave⟩
        fun _ u => exec limit n rest u := by
  obtain ⟨name, arguments, f, frame, u, rfl, hp, rfl, rfl⟩ := Session.move_call hm
  rw [exec.eq_def]
  simp only [hp, Outcome.andThen_ok]

theorem exec_of_ran {block : Block} {s : Session} {o : Outcome Unit} (h : Ran limit block s o) :
    Ends limit block s o := by
  induction h with
  | nil s => exact ⟨1, by simp [exec]⟩
  | fail hm => exact ⟨1, exec_of_fail hm⟩
  | go hm _ ih =>
    obtain ⟨n, hn⟩ := ih
    exact ⟨n + 1, exec_of_go hm hn⟩
  | call hm _ _ ihb ihr =>
    obtain ⟨n, hn⟩ := ihb
    obtain ⟨m, hr⟩ := ihr
    refine ⟨max n m + 1, ?_⟩
    simp [exec_of_call hm, exec_mono (Nat.le_max_left n m) hn, exec_mono (Nat.le_max_right n m) hr]
  | callFail hm _ ih =>
    obtain ⟨n, hn⟩ := ih
    exact ⟨n + 1, by simp [exec_of_call hm, hn]⟩

/-- The runs that end are those that the rules build. -/
theorem ends_iff_ran {block : Block} {s : Session} {o : Outcome Unit} :
    Ends limit block s o ↔ Ran limit block s o :=
  ⟨fun ⟨_, h⟩ => ran_of_exec h, exec_of_ran⟩

/-- A run of two blocks in a row is one of the first, which may have failed, and else one of the
second after it. -/
theorem Ran.append_iff {block rest : Block} {s : Session} {o : Outcome Unit} :
    Ran limit (block ++ rest) s o ↔
      (∃ e t, Ran limit block s ⟨.error e, t⟩ ∧ o = ⟨.error e, t⟩) ∨
        ∃ t, Ran limit block s ⟨.ok (), t⟩ ∧ Ran limit rest t o := by
  constructor
  · intro h
    obtain ⟨n, hn⟩ := exec_of_ran h
    obtain ⟨⟨e | _, t⟩, hb, hr⟩ := Option.bind_eq_some_iff.1 (exec_append hn)
    · cases hr
      exact .inl ⟨e, t, ran_of_exec hb, rfl⟩
    · exact .inr ⟨t, ran_of_exec hb, ran_of_exec hr⟩
  · intro h
    rcases h with ⟨e, t, hb, rfl⟩ | ⟨t, hb, hr⟩
    · exact hb.append_error
    · exact hb.append hr

theorem Ran.unique {block : Block} {s : Session} {o o' : Outcome Unit} (h : Ran limit block s o)
    (h' : Ran limit block s o') : o = o' := (exec_of_ran h).unique (exec_of_ran h')

end MarathiScript
