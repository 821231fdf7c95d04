/-
  MarathiScript.Proofs.Run.Snapshot — calls on one flat map that is saved and put back.

  `Flat` keeps the variables in one map and counts the calls in progress. A call looks up the
  function, checks the number of arguments, evaluates them from left to right, checks the
  counter, saves the whole map, inserts the parameters (of two of one name the later counts),
  runs the body and puts the saved map back, whether the body succeeded or failed. Assignments
  write to the map. `Flat.run` runs a statement, `Flat.runAll` a block.

  Proved: started from a map that shows the visible variables of a session, the frames and the
  flat map agree (`frames_refine_snapshots`): either both run for ever, or both end with the
  same result, the same printed lines, the same functions and the same value or absence of
  every variable. A run from frames is followed rule by rule (`Flat.ends_of_ran`), a flat run by
  its fuel (`Flat.ran_of_ends`); the frames below a call come back by `Ran.leave_environment`.
-/

import MarathiScript.Proofs.Run.Frames
import MarathiScript.Proofs.Run.Lookup

namespace MarathiScript

namespace Table

variable {α : Type}

/-- The entries inserted one after the other. -/
def insertAll (t : Table α) (entries : List (String × α)) : Table α :=
  entries.foldl (fun t entry => t.insert entry.1 entry.2) t

/-- Entries inserted into a table that answers like `u` over `r` leave one that does so. -/
theorem get?_insertAll_or {t u r : Table α} (entries : List (String × α))
    (h : ∀ x, t.get? x = (u.get? x).or (r.get? x)) (x : String) :
    (t.insertAll entries).get? x = ((u.insertAll entries).get? x).or (r.get? x) := by
  induction entries generalizing t u with
  | nil => exact h x
  | cons entry entries ih =>
    refine ih fun y => ?_
    rw [get?_insert, get?_insert]
    by_cases hy : entry.1 = y
    · simp [hy]
    · simpa [hy] using h y

theorem get?_insertAll (t : Table α) (entries : List (String × α)) (x : String) :
    (t.insertAll entries).get? x = ((ofList entries).get? x).or (t.get? x) :=
  get?_insertAll_or entries (fun _ => rfl) x

end Table

structure Flat where
  values : Table Value
  /-- The calls in progress. -/
  calls : Nat
  functions : Table Function
  printed : Array String
  deriving Repr

namespace Flat

/-- How a run ended, and what it leaves. -/
abbrev Ending := Except RunError Unit × Flat

def assign (st : Flat) (x : String) (v : Value) : Flat := { st with values := st.values.insert x v }

def print (st : Flat) (v : Value) : Flat := { st with printed := st.printed.push v.text }

def define (st : Flat) (name : String) (f : Function) : Flat :=
  { st with functions := st.functions.insert name f }

/-- The function to be called and its parameters with their values. -/
def callee (limit : Nat) (st : Flat) (name : String) (arguments : List Expr) :
    Except RunError (Function × List (String × Value)) :=
  match st.functions.get? name with
  | none => .error (.undefinedFunction name)
  | some f =>
    if arguments.length ≠ f.parameters.length then
      .error (.arity name f.parameters.length arguments.length)
    else
      match arguments.mapM (·.evalWith st.values.get?) with
      | .error e => .error e
      | .ok values =>
        if limit ≤ st.calls then .error (.depthExceeded limit)
        else .ok (f, f.parameters.zip values)

def enter (st : Flat) (entries : List (String × Value)) : Flat :=
  { st with values := st.values.insertAll entries, calls := st.calls + 1 }

/-- The end of a call: the saved map is put back. -/
def restore (saved : Table Value) (st : Flat) : Flat :=
  { st with values := saved, calls := st.calls - 1 }

/-- Goes on if there is a value, and ends the run if there is an error in its place. -/
def given {α : Type} (st : Flat) (r : Except RunError α) (next : α → Option Ending) :
    Option Ending :=
  match r with
  | .ok a => next a
  | .error e => some (.error e, st)

/-- Runs statements one after the other, up to the first that fails. -/
def inOrder (step : Stmt → Flat → Option Ending) : Block → Flat → Option Ending
  | [], st => some (.ok (), st)
  | stmt :: rest, st =>
    match step stmt st with
    | some (.ok (), st) => inOrder step rest st
    | ended => ended

/-- Runs a statement; `none` means that the fuel did not suffice. -/
def run (limit : Nat) : Nat → Stmt → Flat → Option Ending
  | 0, _, _ => none
  | fuel + 1, stmt, st =>
    match stmt with
    | .declare name value | .assign name value =>
      st.given (value.evalWith st.values.get?) fun v => some (.ok (), st.assign name v)
    | .print value => st.given (value.evalWith st.values.get?) fun v => some (.ok (), st.print v)
    | .branch condition consequence alternative =>
      st.given (condition.holdsWith st.values.get?) fun holds =>
        inOrder (run limit fuel) (if holds then consequence else alternative.getD []) st
    | .whilst condition body =>
      st.given (condition.holdsWith st.values.get?) fun holds =>
        inOrder (run limit fuel) (if holds then body ++ [.whilst condition body] else []) st
    | .count (some init) condition step body =>
      inOrder (run limit fuel) [init, .count none condition step body] st
    | .count none condition step body =>
      st.given (condition.holdsWith st.values.get?) fun holds =>
        inOrder (run limit fuel)
          (if holds then body ++ [step, .count none condition step body] else []) st
    | .define name parameters body => some (.ok (), st.define name ⟨parameters, body⟩)
    | .call name arguments =>
      st.given (st.callee limit name arguments) fun (f, entries) =>
        (inOrder (run limit fuel) f.body (st.enter entries)).map
          fun (result, after) => (result, after.restore st.values)

def runAll (limit fuel : Nat) : Block → Flat → Option Ending := inOrder (run limit fuel)

/-- The block, run on the flat map, comes to an end. -/
def Ends (limit : Nat) (block : Block) (st : Flat) (ending : Ending) : Prop :=
  ∃ fuel, runAll limit fuel block st = some ending

/-- The flat map shows what is visible from the top frame. -/
structure Shows (st : Flat) (s : Session) : Prop where
  values : st.values.get? = s.environment.get?
  calls : st.calls = s.environment.depth
  functions : st.functions = s.functions
  printed : st.printed = s.printed

/-! ## Fuel -/

variable {limit : Nat}

theorem given_mono {α : Type} {st : Flat} {r : Except RunError α} {f g : α → Option Ending}
    {x : Ending} (hfg : ∀ a, f a = some x → g a = some x) (h : st.given r f = some x) :
    st.given r g = some x := by
  rcases r with _ | a
  · exact h
  · exact hfg a h

theorem inOrder_mono {f g : Stmt → Flat → Option Ending} {block : Block} {st : Flat} {x : Ending}
    (hfg : ∀ stmt st x, f stmt st = some x → g stmt st = some x)
    (h : inOrder f block st = some x) : inOrder g block st = some x := by
  induction block generalizing st with
  | nil => exact h
  | cons stmt rest ih =>
    rw [inOrder] at h ⊢
    rcases hf : f stmt st with _ | ⟨_ | _, t⟩ <;> rw [hf] at h
    · cases h
    · rw [hfg _ _ _ hf]; exact h
    · rw [hfg _ _ _ hf]; exact ih h

theorem inOrder_append {f : Stmt → Flat → Option Ending} (block rest : Block) (st : Flat) :
    inOrder f (block ++ rest) st =
      match inOrder f block st with
      | some (.ok (), t) => inOrder f rest t
      | ended => ended := by
  induction block generalizing st with
  | nil => rfl
  | cons stmt block ih =>
    rw [List.cons_append, inOrder, inOrder]
    rcases f stmt st with _ | ⟨_ | _, t⟩
    · rfl
    · rfl
    · exact ih t

theorem run_succ {fuel : Nat} {stmt : Stmt} {st : Flat} {x : Ending}
    (h : run limit fuel stmt st = some x) : run limit (fuel + 1) stmt st = some x := by
  induction fuel generalizing stmt st x with
  | zero => cases h
  | succ n ih =>
    have more : ∀ {b st x}, inOrder (run limit n) b st = some x →
        inOrder (run limit (n + 1)) b st = some x := inOrder_mono fun _ _ _ => ih
    rw [run.eq_def] at h ⊢
    simp only at h ⊢
    split at h
    · exact h
    · exact h
    · exact h
    · exact given_mono (fun _ => more) h
    · exact given_mono (fun _ => more) h
    · exact more h
    · exact given_mono (fun _ => more) h
    · exact h
    · refine given_mono (fun call h => ?_) h
      obtain ⟨ended, hb, rfl⟩ := Option.map_eq_some_iff.1 h
      simp [more hb]

theorem runAll_mono {n m : Nat} (hnm : n ≤ m) {block : Block} {st : Flat} {x : Ending}
    (h : runAll limit n block st = some x) : runAll limit m block st = some x := by
  induction hnm with
  | refl => exact h
  | step _ ih => exact inOrder_mono (fun _ _ _ => run_succ) ih

/-! ## Steps side by side -/

variable {st : Flat} {s t : Session}

theorem Shows.quiet (h : st.Shows s) (hq : s.Quiet t) : st.Shows t where
  values := by rw [hq.1]; exact h.values
  calls := by rw [hq.1]; exact h.calls
  functions := by rw [hq.2.1]; exact h.functions
  printed := by rw [hq.2.2]; exact h.printed

theorem Shows.assign (h : st.Shows s) (x : String) (v : Value) :
    (st.assign x v).Shows (s.bind x v) where
  values := by
    funext y
    show (st.values.insert x v).get? y = (s.environment.set x v).get? y
    rw [Table.get?_insert, Environment.get?_set, h.values]
  calls := h.calls
  functions := h.functions
  printed := h.printed

theorem Shows.print (h : st.Shows s) (v : Value) : (st.print v).Shows (s.print v) where
  values := h.values
  calls := h.calls
  functions := h.functions
  printed := by
    show st.printed.push v.text = s.printed.push v.text
    rw [h.printed]

theorem Shows.define (h : st.Shows s) (name : String) (f : Function) :
    (st.define name f).Shows (s.define name f) where
  values := h.values
  calls := h.calls
  functions := by
    show st.functions.insert name f = s.functions.insert name f
    rw [h.functions]
  printed := h.printed

theorem Shows.enter (h : st.Shows s) (name : String) (entries : List (String × Value)) :
    (st.enter entries).Shows (s.enter name (Table.ofList entries)) where
  values := by
    funext x
    show (st.values.insertAll entries).get? x = (s.environment.push _).get? x
    rw [Table.get?_insertAll, Environment.get?_push, h.values]
  calls := by
    show st.calls + 1 = s.environment.depth + 1
    rw [h.calls]
  functions := h.functions
  printed := h.printed

theorem Shows.eval (h : st.Shows s) (e : Expr) :
    e.evalWith st.values.get? = e.eval s.environment := by
  rw [h.values, e.eval_eq_evalWith]

/-- The frames refuse a call for the same reason as the flat map, or bind the same parameters. -/
theorem Shows.callee (h : st.Shows s) {name : String} {arguments : List Expr}
    {r : Except RunError (Function × Frame)} (hp : s.prepare limit name arguments = ⟨r, t⟩) :
    r = (st.callee limit name arguments).map fun call => (call.1, Table.ofList call.2) := by
  have hall : arguments.mapM (·.evalWith st.values.get?) =
      (notedAll s.environment s.log arguments).1 := by
    rw [notedAll_fst, evalAll_eq_mapM, h.values]
  unfold Session.prepare at hp
  unfold Flat.callee
  rw [h.functions, h.calls, hall]
  rcases hf : s.functions.get? name with _ | f <;> rw [hf] at hp
  · cases hp; rfl
  simp only at hp ⊢
  by_cases ha : arguments.length ≠ f.parameters.length
  · rw [if_pos ha] at hp ⊢
    cases hp; rfl
  rw [if_neg ha] at hp ⊢
  rcases hn : notedAll s.environment s.log arguments with ⟨e | values, log⟩ <;>
    simp only [hn] at hp ⊢
  · cases hp; rfl
  by_cases hl : limit ≤ s.environment.depth
  · rw [if_pos hl] at hp ⊢
    cases hp; rfl
  · rw [if_neg hl] at hp ⊢
    cases hp; rfl

theorem run_of_fail {stmt : Stmt} {e : RunError} (h : st.Shows s)
    (hm : s.move limit stmt = ⟨.error e, t⟩) (n : Nat) :
    run limit (n + 1) stmt st = some (.error e, st) := by
  rw [run.eq_def]
  rcases stmt with ⟨name, value⟩ | ⟨name, value⟩ | ⟨c, consequence, alternative⟩ | ⟨c, body⟩ |
    ⟨_ | init, c, step, body⟩ | ⟨name, parameters, body⟩ | ⟨name, arguments⟩ | ⟨value⟩ <;>
    simp only [Session.move] at hm ⊢
  · rw [h.eval, ← (Session.evaluate_quiet (Outcome.proceed_error hm)).1]; rfl
  · rw [h.eval, ← (Session.evaluate_quiet (Outcome.proceed_error hm)).1]; rfl
  · have hr := (Session.ask_quiet (Outcome.proceed_error hm)).1
    rw [c.holds_eq_holdsWith, ← h.values] at hr
    rw [← hr]; rfl
  · have hr := (Session.test_quiet (Outcome.proceed_error hm)).1
    rw [c.holds_eq_holdsWith, ← h.values] at hr
    rw [← hr]; rfl
  · have hr := (Session.test_quiet (Outcome.proceed_error hm)).1
    rw [c.holds_eq_holdsWith, ← h.values] at hr
    rw [← hr]; rfl
  · cases hm
  · cases hm
  · have hc := h.callee (Outcome.proceed_error hm)
    rcases hk : st.callee limit name arguments with e' | call <;> rw [hk] at hc <;> cases hc
    rfl
  · rw [h.eval, ← (Session.evaluate_quiet (Outcome.proceed_error hm)).1]; rfl

theorem run_of_go {stmt : Stmt} {more : Block} (h : st.Shows s)
    (hm : s.move limit stmt = ⟨.ok (.go more), t⟩) :
    ∃ st', st'.Shows t ∧ ∀ n, run limit (n + 1) stmt st = inOrder (run limit n) more st' := by
  rcases stmt with ⟨name, value⟩ | ⟨name, value⟩ | ⟨c, consequence, alternative⟩ | ⟨c, body⟩ |
    ⟨_ | init, c, step, body⟩ | ⟨name, parameters, body⟩ | ⟨name, arguments⟩ | ⟨value⟩ <;>
    simp only [Session.move] at hm
  · obtain ⟨v, u, hv, hn⟩ := Outcome.proceed_ok hm
    obtain ⟨hr, hq⟩ := Session.evaluate_quiet hv
    cases hn
    exact ⟨st.assign name v, (h.quiet hq).assign name v, fun n => by
      simp only [run, h.eval, ← hr, given, inOrder]⟩
  · obtain ⟨v, u, hv, hn⟩ := Outcome.proceed_ok hm
    obtain ⟨hr, hq⟩ := Session.evaluate_quiet hv
    cases hn
    exact ⟨st.assign name v, (h.quiet hq).assign name v, fun n => by
      simp only [run, h.eval, ← hr, given, inOrder]⟩
  · obtain ⟨holds, u, hv, hn⟩ := Outcome.proceed_ok hm
    obtain ⟨hr, hq⟩ := Session.ask_quiet hv
    rw [c.holds_eq_holdsWith, ← h.values] at hr
    refine ⟨st, ?_, fun n => ?_⟩
    · rcases holds with _ | _ <;> rcases alternative with _ | _ <;> cases hn <;> exact h.quiet hq
    · simp only [run, ← hr, given]
      rcases holds with _ | _ <;> rcases alternative with _ | _ <;> cases hn <;> rfl
  · obtain ⟨holds, u, hv, hn⟩ := Outcome.proceed_ok hm
    obtain ⟨hr, hq⟩ := Session.test_quiet hv
    rw [c.holds_eq_holdsWith, ← h.values] at hr
    cases hn
    exact ⟨st, h.quiet hq, fun n => by simp only [run, ← hr, given]⟩
  · obtain ⟨holds, u, hv, hn⟩ := Outcome.proceed_ok hm
    obtain ⟨hr, hq⟩ := Session.test_quiet hv
    rw [c.holds_eq_holdsWith, ← h.values] at hr
    cases hn
    exact ⟨st, h.quiet hq, fun n => by simp only [run, ← hr, given]⟩
  · cases hm
    exact ⟨st, h, fun n => by simp only [run]⟩
  · cases hm
    exact ⟨st.define name ⟨parameters, body⟩, h.define name _, fun n => by simp only [run, inOrder]⟩
  · obtain ⟨_, _, _, hn⟩ := Outcome.proceed_ok hm
    cases hn
  · obtain ⟨v, u, hv, hn⟩ := Outcome.proceed_ok hm
    obtain ⟨hr, hq⟩ := Session.evaluate_quiet hv
    cases hn
    exact ⟨st.print v, (h.quiet hq).print v, fun n => by
      simp only [run, h.eval, ← hr, given, inOrder]⟩

theorem run_of_call {stmt : Stmt} {body : Block} (h : st.Shows s)
    (hm : s.move limit stmt = ⟨.ok (.call body), t⟩) :
    ∃ st', st'.Shows t ∧ ∀ n, run limit (n + 1) stmt st =
      (inOrder (run limit n) body st').map fun (result, after) =>
        (result, after.restore st.values) := by
  obtain ⟨name, arguments, f, frame, u, rfl, hp, rfl, rfl⟩ := Session.move_call hm
  have hc := h.callee hp
  rcases hk : st.callee limit name arguments with e | ⟨g, entries⟩ <;> rw [hk] at hc <;> cases hc
  refine ⟨st.enter entries, (h.quiet (Session.prepare_quiet hp)).enter name entries, fun n => ?_⟩
  simp only [run, hk, given]

/-- After a call the saved map shows the variables that the frames below it hold. -/
theorem Shows.restore {stmt : Stmt} {body : Block} {o : Outcome Unit} {after : Flat}
    (h : st.Shows s) (hm : s.move limit stmt = ⟨.ok (.call body), t⟩) (hb : Ran limit body t o)
    (ha : after.Shows o.session) : (after.restore st.values).Shows o.session.leave where
  values := by rw [hb.leave_environment hm]; exact h.values
  calls := by
    show after.calls - 1 = o.session.environment.pop.depth
    rw [Environment.depth_pop, ha.calls]
  functions := ha.functions
  printed := ha.printed

/-! ## Whole runs -/

/-- The two ways to end agree. -/
structure Agrees (x : Ending) (o : Outcome Unit) : Prop where
  result : x.1 = o.result
  shows : x.2.Shows o.session

/-- Every run of the frames that ends is one of the flat map. -/
theorem ends_of_ran {block : Block} {o : Outcome Unit} (h : st.Shows s) (hr : Ran limit block s o) :
    ∃ x, Ends limit block st x ∧ Agrees x o := by
  induction hr generalizing st with
  | nil => exact ⟨(.ok (), st), ⟨0, rfl⟩, rfl, h⟩
  | fail hm =>
    refine ⟨(.error _, st), ⟨1, ?_⟩, rfl, h.quiet (Session.move_error_quiet hm)⟩
    rw [runAll, inOrder, run_of_fail h hm]
  | go hm _ ih =>
    obtain ⟨st', ht, hrun⟩ := run_of_go h hm
    obtain ⟨x, ⟨n, hn⟩, hx⟩ := ih ht
    refine ⟨x, ⟨n + 1, ?_⟩, hx⟩
    rw [runAll, inOrder_append] at hn
    rw [runAll, inOrder, hrun]
    rcases hmore : inOrder (run limit n) _ st' with _ | ⟨_ | _, u⟩ <;> rw [hmore] at hn
    · cases hn
    · exact hn
    · exact inOrder_mono (fun _ _ _ => run_succ) hn
  | call hm hb _ ihb ihr =>
    obtain ⟨st', ht, hrun⟩ := run_of_call h hm
    obtain ⟨⟨_, after⟩, ⟨n, hn⟩, rfl, ha⟩ := ihb ht
    obtain ⟨x, ⟨m, hrest⟩, hx⟩ := ihr (h.restore hm hb ha)
    refine ⟨x, ⟨max n m + 1, ?_⟩, hx⟩
    have hbody := runAll_mono (Nat.le_max_left n m) hn
    have hrest := runAll_mono (Nat.le_succ_of_le (Nat.le_max_right n m)) hrest
    rw [runAll] at hbody
    rw [runAll, inOrder, hrun, hbody]
    exact hrest
  | callFail hm hb ihb =>
    obtain ⟨st', ht, hrun⟩ := run_of_call h hm
    obtain ⟨⟨_, after⟩, ⟨n, hn⟩, rfl, ha⟩ := ihb ht
    refine ⟨(.error _, after.restore st.values), ⟨n + 1, ?_⟩, rfl, h.restore hm hb ha⟩
    rw [runAll] at hn
    rw [runAll, inOrder, hrun, hn]
    rfl

/-- A block ends on the frames if each of its statements does so wherever the flat map ends it. -/
theorem ran_of_inOrder {f : Stmt → Flat → Option Ending} {block : Block} {x : Ending}
    (hf : ∀ stmt st x s, f stmt st = some x → st.Shows s →
      ∃ o, Ran limit [stmt] s o ∧ Agrees x o)
    (hx : inOrder f block st = some x) (h : st.Shows s) :
    ∃ o, Ran limit block s o ∧ Agrees x o := by
  induction block generalizing st s with
  | nil => cases hx; exact ⟨⟨.ok (), s⟩, .nil s, rfl, h⟩
  | cons stmt rest ih =>
    rw [inOrder] at hx
    rcases hs : f stmt st with _ | ⟨e | _, t⟩ <;> rw [hs] at hx
    · cases hx
    · cases hx
      obtain ⟨⟨_, u⟩, hr, rfl, hu⟩ := hf _ _ _ _ hs h
      exact ⟨_, hr.append_error, rfl, hu⟩
    · obtain ⟨⟨_, u⟩, hr, rfl, hu⟩ := hf _ _ _ _ hs h
      obtain ⟨o, hrest, ho⟩ := ih hx hu
      exact ⟨o, hr.append hrest, ho⟩

theorem ran_of_run {n : Nat} {stmt : Stmt} {x : Ending} (hx : run limit n stmt st = some x)
    (h : st.Shows s) : ∃ o, Ran limit [stmt] s o ∧ Agrees x o := by
  induction n generalizing stmt st s x with
  | zero => cases hx
  | succ n ih =>
    rcases hm : s.move limit stmt with ⟨e | more | body, t⟩
    · rw [run_of_fail h hm] at hx
      cases hx
      exact ⟨_, .fail hm, rfl, h.quiet (Session.move_error_quiet hm)⟩
    · obtain ⟨st', ht, hrun⟩ := run_of_go h hm
      rw [hrun] at hx
      obtain ⟨o, hr, ho⟩ := ran_of_inOrder (fun _ _ _ _ => ih) hx ht
      exact ⟨o, .go hm (by simpa using hr), ho⟩
    · obtain ⟨st', ht, hrun⟩ := run_of_call h hm
      rw [hrun] at hx
      obtain ⟨⟨result, after⟩, hb, rfl⟩ := Option.map_eq_some_iff.1 hx
      obtain ⟨⟨_, u⟩, hr, rfl, ha⟩ := ran_of_inOrder (fun _ _ _ _ => ih) hb ht
      have hs := h.restore hm hr ha
      rcases result with e | _
      · exact ⟨_, .callFail hm hr, rfl, hs⟩
      · exact ⟨_, .call hm hr (.nil _), rfl, hs⟩

/-- Every run of the flat map that ends is one of the frames. -/
theorem ran_of_ends {block : Block} {x : Ending} (h : st.Shows s) (hx : Ends limit block st x) :
    ∃ o, Ran limit block s o ∧ Agrees x o := by
  obtain ⟨n, hn⟩ := hx
  exact ran_of_inOrder (fun _ _ _ _ => ran_of_run) hn h

end Flat

/-- A run over frames and the run over one flat map that shows the same variables both go on for
ever, or both end with the same result, lines, functions and variables. -/
theorem frames_refine_snapshots (limit : Nat) (program : Block) (s : Session) (st : Flat)
    (h : st.Shows s) :
    ((∀ o, ¬ Ends limit program s o) ∧ ∀ x, ¬ Flat.Ends limit program st x) ∨
      ∃ o result after, Ends limit program s o ∧ Flat.Ends limit program st (result, after) ∧
        result = o.result ∧ after.printed = o.session.printed ∧
        after.functions = o.session.functions ∧
        ∀ x, after.values.get? x = o.session.environment.get? x := by
  by_cases hs : ∃ o, Ends limit program s o
  · right
    obtain ⟨o, ho⟩ := hs
    obtain ⟨⟨result, after⟩, hx, hr, ha⟩ := Flat.ends_of_ran h (ends_iff_ran.1 ho)
    exact ⟨o, result, after, ho, hx, hr, ha.printed, ha.functions, fun x => by rw [ha.values]⟩
  · left
    refine ⟨fun o ho => hs ⟨o, ho⟩, fun x hx => hs ?_⟩
    obtain ⟨o, ho, -⟩ := Flat.ran_of_ends h hx
    exact ⟨o, ends_iff_ran.2 ho⟩

/-- A function that writes to a global and calls itself until the limit refuses it: both print
before each refused or finished call, and the global is back at the end. -/
theorem frames_refine_snapshots_refused :
    let program : Block :=
      [.define "f" ["n"] [.print (.name "y"), .assign "y" (.string "in"), .call "f" [.name "n"]],
        .call "f" [.name "y"]]
    let s : Session := ⟨⟨⟨[("y", .int 7)]⟩, []⟩, .empty, #[], #[]⟩
    let st : Flat := ⟨⟨[("y", .int 7)]⟩, 0, .empty, #[]⟩
    st.Shows s ∧ ∃ after, Flat.Ends 2 program st (.error (.depthExceeded 2), after) ∧
      after.printed = #["7", "in"] ∧ after.values.get? "y" = some (.int 7) := by
  intro program s st
  have h : st.Shows s := ⟨by funext x; simp [st, s, Environment.get?_eq], rfl, rfl, rfl⟩
  refine ⟨h, ?_⟩
  have hend : Ends 2 program s _ := ⟨20, rfl⟩
  rcases frames_refine_snapshots 2 program s st h with
    ⟨hnone, -⟩ | ⟨o, result, after, ho, hx, hr, hp, -, hv⟩
  · exact absurd hend (hnone _)
  · cases ho.unique hend
    subst hr
    exact ⟨after, hx, hp, hv "y"⟩

end MarathiScript
