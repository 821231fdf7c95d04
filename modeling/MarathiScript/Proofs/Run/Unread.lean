/-
  MarathiScript.Proofs.Run.Unread — variables that are not read have no influence.

  Two sessions agree on a set of names (`Session.Agree`) if each of these names has the same value
  in both or is unbound in both, as many calls are in progress, the functions are the same, and
  the same lines were printed since. A statement that reads no other names takes the same step
  from both, and they agree after it (`Session.Agree.move`).

  Nothing is said of the frames below the top one. The frame of a call may hide a name, and when it
  is taken off the name must be the same in both sessions again; it is, for then the variables
  are those from before the call (`Ran.leave_environment`), when the sessions agreed.

  Proved (`unread_no_influence`): if two sessions agree on all names that a program and the
  functions declared can read, then the program ends from both or from neither, with the same
  result, the same new lines and the same functions, and they agree on these names at the end.
-/

import Mathlib.Data.Set.Defs
import MarathiScript.Proofs.Run.Code
import MarathiScript.Proofs.Run.Failures
import MarathiScript.Script

namespace MarathiScript

/-! ## Expressions with the same names -/

section

variable {env env' : Environment}

mutual

theorem Expr.eval_congr : (e : Expr) → (∀ x, .name x ∈ e.leaves → env.get? x = env'.get? x) →
    e.eval env = e.eval env'
  | .chain first links, h => by
    simp only [Expr.leaves, List.mem_append, or_imp, forall_and] at h
    rw [Expr.eval, Expr.eval, first.eval_congr h.1]
    rcases first.eval env' with err | v
    · rfl
    · exact evalLinks_congr v links h.2
  | .name x, h => by
    rw [Expr.eval, Expr.eval, Environment.read, Environment.read, h x (List.mem_singleton.2 rfl)]
  | .number _, _ | .float _, _ | .string _, _ => rfl

theorem evalLinks_congr (v : Value) : (links : List (String × Expr)) →
    (∀ x, .name x ∈ linkLeaves links → env.get? x = env'.get? x) →
      evalLinks env v links = evalLinks env' v links
  | [], _ => rfl
  | (operator, operand) :: links, h => by
    simp only [linkLeaves, List.mem_append, or_imp, forall_and] at h
    rw [evalLinks, evalLinks, operand.eval_congr h.1]
    rcases operand.eval env' with err | w
    · rfl
    · simp only
      rcases v.combine operator w with err | u
      · rfl
      · exact evalLinks_congr u links h.2

end

theorem evalAll_congr {es : List Expr} (h : ∀ e ∈ es, e.eval env = e.eval env') :
    evalAll env es = evalAll env' es := by
  induction es with
  | nil => rfl
  | cons e es ih =>
    obtain ⟨he, hes⟩ := List.forall_mem_cons.1 h
    rw [evalAll, evalAll, he, ih hes]

end

/-! ## Sessions that agree -/

/-- The statement reads no other names in its step. -/
def Stmt.ReadsOnly (names : Set String) (stmt : Stmt) : Prop := ∀ x ∈ stmt.reads, x ∈ names

/-- The sessions cannot be told apart by reading these names, by calling functions or by the lines
printed after `before` in the one and after `before'` in the other. -/
structure Session.Agree (names : Set String) (before before' : List String) (s s' : Session) :
    Prop where
  values : ∀ x ∈ names, s.environment.get? x = s'.environment.get? x
  depth : s.environment.depth = s'.environment.depth
  functions : ∀ f, s.functions.get? f = s'.functions.get? f
  lines : ∃ new, s.lines = before ++ new ∧ s'.lines = before' ++ new

/-- The same result, in sessions that agree. -/
structure Outcome.Agree {α : Type} (names : Set String) (before before' : List String)
    (o o' : Outcome α) : Prop where
  result : o.result = o'.result
  session : o.session.Agree names before before' o'.session

section

variable {limit : Nat} {names : Set String} {before before' : List String} {s s' t : Session}

theorem Outcome.Agree.proceed {α β : Type} {o o' : Outcome α} {next : α → Session → β × Session}
    (h : o.Agree names before before' o')
    (hnext : ∀ a t t', t.Agree names before before' t' →
      (next a t).1 = (next a t').1 ∧ (next a t).2.Agree names before before' (next a t').2) :
    (o.proceed next).Agree names before before' (o'.proceed next) := by
  obtain ⟨hresult, hsession⟩ := h
  rcases o with ⟨r, t⟩
  rcases o' with ⟨_, t'⟩
  cases hresult
  cases r with
  | error e => exact ⟨rfl, hsession⟩
  | ok a =>
    obtain ⟨hmove, hafter⟩ := hnext a t t' hsession
    exact ⟨congrArg Except.ok hmove, hafter⟩

namespace Session.Agree

variable (h : s.Agree names before before' s')

include h

/-- The log is not looked at. -/
theorem quiet {t t' : Session} (hq : s.Quiet t) (hq' : s'.Quiet t') :
    t.Agree names before before' t' where
  values := by rw [hq.1, hq'.1]; exact h.values
  depth := by rw [hq.1, hq'.1]; exact h.depth
  functions := by rw [hq.2.1, hq'.2.1]; exact h.functions
  lines := by rw [Session.lines, Session.lines, hq.2.2, hq'.2.2]; exact h.lines

theorem symm : s'.Agree names before' before s where
  values := fun x hx => (h.values x hx).symm
  depth := h.depth.symm
  functions := fun f => (h.functions f).symm
  lines := by
    obtain ⟨new, hlines, hlines'⟩ := h.lines
    exact ⟨new, hlines', hlines⟩

theorem throughout {P : Stmt → Prop} (hs : s.Throughout P) : s'.Throughout P :=
  fun name f hf => hs name f ((h.functions name).trans hf)

theorem eval {stmt : Stmt} (hstmt : stmt.ReadsOnly names) {e : Expr} (he : e ∈ stmt.expressions) :
    e.eval s.environment = e.eval s'.environment :=
  e.eval_congr fun x hx => h.values x (hstmt x (Stmt.mem_reads he (Expr.mem_reads.2 hx)))

theorem bind (x : String) (v : Value) : (s.bind x v).Agree names before before' (s'.bind x v) where
  values := by
    intro y hy
    show (s.environment.set x v).get? y = (s'.environment.set x v).get? y
    rw [Environment.get?_set, Environment.get?_set, h.values y hy]
  depth := h.depth
  functions := h.functions
  lines := h.lines

theorem print (v : Value) : (s.print v).Agree names before before' (s'.print v) where
  values := h.values
  depth := h.depth
  functions := h.functions
  lines := by
    obtain ⟨new, hlines, hlines'⟩ := h.lines
    have hpush : ∀ u : Session, (u.print v).lines = u.lines ++ [v.text] := fun _ => Array.toList_push
    refine ⟨new ++ [v.text], ?_, ?_⟩
    · rw [hpush, hlines, List.append_assoc]
    · rw [hpush, hlines', List.append_assoc]

theorem define (name : String) (f : Function) :
    (s.define name f).Agree names before before' (s'.define name f) where
  values := h.values
  depth := h.depth
  functions := by
    intro g
    show (s.functions.insert name f).get? g = (s'.functions.insert name f).get? g
    rw [Table.get?_insert, Table.get?_insert, h.functions g]
  lines := h.lines

theorem enter (name : String) (frame : Frame) :
    (s.enter name frame).Agree names before before' (s'.enter name frame) where
  values := by
    intro x hx
    show (s.environment.push frame).get? x = (s'.environment.push frame).get? x
    rw [Environment.get?_push, Environment.get?_push, h.values x hx]
  depth := congrArg (· + 1) h.depth
  functions := h.functions
  lines := h.lines

theorem evaluate {stmt : Stmt} (hstmt : stmt.ReadsOnly names) {e : Expr} (he : e ∈ stmt.expressions) :
    (s.evaluate e).Agree names before before' (s'.evaluate e) where
  result := by rw [s.evaluate_result, s'.evaluate_result, h.eval hstmt he]
  session := h.quiet (evaluate_quiet rfl).2 (evaluate_quiet rfl).2

theorem test {stmt : Stmt} (hstmt : stmt.ReadsOnly names) {e : Expr} (he : e ∈ stmt.expressions) :
    (s.test e).Agree names before before' (s'.test e) := by
  have hvalue := h.evaluate hstmt he
  unfold Session.test
  generalize s.evaluate e = o, s'.evaluate e = o' at hvalue
  rcases o with ⟨err | v, t⟩ <;> rcases o' with ⟨_, t'⟩ <;> cases hvalue.result
  · exact ⟨rfl, hvalue.session⟩
  · exact ⟨rfl, hvalue.session⟩

theorem ask {c : Condition} (hc : c.name ∈ names) :
    (s.ask c).Agree names before before' (s'.ask c) := by
  unfold Session.ask Environment.read
  rw [h.values _ hc]
  rcases s'.environment.get? c.name with _ | v
  · exact ⟨rfl, h⟩
  · exact ⟨rfl, h.quiet ⟨rfl, rfl, rfl⟩ ⟨rfl, rfl, rfl⟩⟩

theorem prepare {name : String} {arguments : List Expr}
    (hstmt : (Stmt.call name arguments).ReadsOnly names) :
    (s.prepare limit name arguments).Agree names before before' (s'.prepare limit name arguments) where
  result := by
    have harguments : evalAll s.environment arguments = evalAll s'.environment arguments :=
      evalAll_congr fun e he => h.eval hstmt he
    rw [prepare_result, prepare_result, h.functions, h.depth, harguments]
  session := h.quiet (prepare_quiet rfl) (prepare_quiet rfl)

/-- A statement takes the same step from sessions that agree on the names that it reads. -/
theorem move {stmt : Stmt} (hstmt : stmt.ReadsOnly names) :
    (s.move limit stmt).Agree names before before' (s'.move limit stmt) := by
  rcases stmt with ⟨name, value⟩ | ⟨name, value⟩ | ⟨c, consequence, alternative⟩ | ⟨c, body⟩ |
    ⟨_ | init, c, step, body⟩ | ⟨name, parameters, body⟩ | ⟨name, arguments⟩ | ⟨value⟩ <;>
    simp only [Session.move]
  case declare | assign =>
    exact (h.evaluate hstmt (.head _)).proceed fun v t t' ht => ⟨rfl, ht.bind name v⟩
  case print => exact (h.evaluate hstmt (.head _)).proceed fun v t t' ht => ⟨rfl, ht.print v⟩
  case branch =>
    refine (h.ask (hstmt _ (.head _))).proceed fun holds t t' ht => ?_
    cases holds with
    | true => exact ⟨rfl, ht.quiet ⟨rfl, rfl, rfl⟩ ⟨rfl, rfl, rfl⟩⟩
    | false =>
      cases alternative with
      | none => exact ⟨rfl, ht⟩
      | some alternative => exact ⟨rfl, ht.quiet ⟨rfl, rfl, rfl⟩ ⟨rfl, rfl, rfl⟩⟩
  case whilst | count.none =>
    exact (h.test hstmt (.head _)).proceed fun holds t t' ht => ⟨rfl, ht⟩
  case count.some => exact ⟨rfl, h⟩
  case define => exact ⟨rfl, h.define name _⟩
  case call =>
    exact (h.prepare hstmt).proceed fun call t t' ht => ⟨rfl, ht.enter name call.2⟩

/-- The same step as an equation. -/
theorem move_eq {stmt : Stmt} {r : Except RunError Move} (hstmt : stmt.ReadsOnly names)
    (hm : s.move limit stmt = ⟨r, t⟩) :
    ∃ t', s'.move limit stmt = ⟨r, t'⟩ ∧ t.Agree names before before' t' := by
  have hmove : (s.move limit stmt).Agree names before before' (s'.move limit stmt) := h.move hstmt
  obtain ⟨hresult, hsession⟩ := hmove
  rcases hm' : s'.move limit stmt with ⟨r', t'⟩
  rw [hm, hm'] at hresult hsession
  cases hresult
  exact ⟨t', rfl, hsession⟩

/-- When the frames of a call are taken off, the names have the values from before the call. -/
theorem leave {stmt : Stmt} {body : Block} {t' : Session} {o o' : Outcome Unit}
    (hm : s.move limit stmt = ⟨.ok (.call body), t⟩) (hb : Ran limit body t o)
    (hm' : s'.move limit stmt = ⟨.ok (.call body), t'⟩) (hb' : Ran limit body t' o')
    (ho : o.session.Agree names before before' o'.session) :
    o.session.leave.Agree names before before' o'.session.leave where
  values := by rw [hb.leave_environment hm, hb'.leave_environment hm']; exact h.values
  depth := by rw [hb.leave_environment hm, hb'.leave_environment hm']; exact h.depth
  functions := ho.functions
  lines := ho.lines

end Session.Agree

/-! ## Runs -/

/-- A run goes the same way from any session that agrees with its own. -/
theorem Ran.agree {block : Block} {o : Outcome Unit} (hr : Ran limit block s o)
    (hblock : Throughout (Stmt.ReadsOnly names) block) (hs : s.Throughout (Stmt.ReadsOnly names))
    (h : s.Agree names before before' s') :
    ∃ o', Ran limit block s' o' ∧ o.Agree names before before' o' := by
  induction hr generalizing s' with
  | nil => exact ⟨_, .nil s', rfl, h⟩
  | fail hm =>
    obtain ⟨t', hm', ht⟩ := h.move_eq hblock.first hm
    exact ⟨_, .fail hm', rfl, ht⟩
  | go hm _ ih =>
    obtain ⟨t', hm', ht⟩ := h.move_eq hblock.first hm
    obtain ⟨hmore, hfunctions⟩ := Session.move_go_throughout hm hblock.head hs
    obtain ⟨o', hr', ho⟩ := ih (throughout_append.2 ⟨hmore, hblock.tail⟩) hfunctions ht
    exact ⟨o', .go hm' hr', ho⟩
  | call hm hb _ ihb ihr =>
    obtain ⟨t', hm', ht⟩ := h.move_eq hblock.first hm
    obtain ⟨hbody, hfunctions⟩ := Session.move_call_throughout hm hs
    obtain ⟨⟨_, u'⟩, hb', rfl, hu⟩ := ihb hbody hfunctions ht
    obtain ⟨o', hr', ho⟩ := ihr hblock.tail (hb.throughout hbody hfunctions) (h.leave hm hb hm' hb' hu)
    exact ⟨o', .call hm' hb' hr', ho⟩
  | callFail hm hb ihb =>
    obtain ⟨t', hm', ht⟩ := h.move_eq hblock.first hm
    obtain ⟨hbody, hfunctions⟩ := Session.move_call_throughout hm hs
    obtain ⟨⟨_, u'⟩, hb', rfl, hu⟩ := ihb hbody hfunctions ht
    exact ⟨_, .callFail hm' hb', rfl, h.leave hm hb hm' hb' hu⟩

end

/-- From two sessions with the same functions and calls in progress that agree on all names which the
program and the functions can read, the program runs for ever from both, or ends from both: with the
same result, the same new lines and the same functions, and they agree on these names again. -/
theorem unread_no_influence {limit : Nat} {program : Block} {names : Set String} {s s' : Session}
    (hprogram : Throughout (Stmt.ReadsOnly names) program)
    (hbodies : s.Throughout (Stmt.ReadsOnly names))
    (hdepth : s.environment.depth = s'.environment.depth)
    (hfunctions : ∀ f, s.functions.get? f = s'.functions.get? f)
    (hvalues : ∀ x ∈ names, s.environment.get? x = s'.environment.get? x) :
    ((∀ o, ¬ Ends limit program s o) ∧ ∀ o, ¬ Ends limit program s' o) ∨
      ∃ o o', Ends limit program s o ∧ Ends limit program s' o' ∧ o.result = o'.result ∧
        (∃ new, o.session.lines = s.lines ++ new ∧ o'.session.lines = s'.lines ++ new) ∧
        (∀ f, o.session.functions.get? f = o'.session.functions.get? f) ∧
        ∀ x ∈ names, o.session.environment.get? x = o'.session.environment.get? x := by
  have hagree : s.Agree names s.lines s'.lines s' :=
    ⟨hvalues, hdepth, hfunctions, [], (List.append_nil _).symm, (List.append_nil _).symm⟩
  by_cases hends : ∃ o, Ends limit program s o
  · right
    obtain ⟨o, ho⟩ := hends
    obtain ⟨o', ho', hresult, hafter⟩ := (ends_iff_ran.1 ho).agree hprogram hbodies hagree
    exact ⟨o, o', ho, ends_iff_ran.2 ho', hresult, hafter.lines, hafter.functions, hafter.values⟩
  · left
    refine ⟨fun o ho => hends ⟨o, ho⟩, fun o' ho' => hends ?_⟩
    obtain ⟨o, ho, -⟩ := (ends_iff_ran.1 ho').agree hprogram (hagree.throughout hbodies) hagree.symm
    exact ⟨o, ends_iff_ran.2 ho⟩

/-- A function that reads its parameter and a variable of its caller, writes to that one and to `x`, and
then fails. Of `x`, which is bound in one session only, nothing is seen in the results. -/
theorem unread_no_influence_hidden :
    let f : Function := ⟨["n"], [.assign "x" (.name "n"),
      .print (.chain (.name "n") [("+", .name "y")]), .assign "y" (.name "n"), .call "g" []]⟩
    let program : Block := [.assign "n" (.string "out"), .call "f" [.number "3"]]
    let s : Session := ⟨⟨⟨[("x", .int 7), ("y", .int 2)]⟩, []⟩, ⟨[("f", f)]⟩, #["a"], #[]⟩
    let s' : Session := ⟨⟨⟨[("y", .int 2)]⟩, []⟩, ⟨[("f", f)]⟩, #[], #[]⟩
    let names : Set String := fun x => x ∈ ["n", "y"]
    Throughout (Stmt.ReadsOnly names) program ∧ s.Throughout (Stmt.ReadsOnly names) ∧
      (∀ x ∈ names, s.environment.get? x = s'.environment.get? x) ∧
      ∃ o o', Ends 5 program s o ∧ Ends 5 program s' o' ∧
        o.result = .error (.undefinedFunction "g") ∧ o.result = o'.result ∧
        o.session.lines = ["a", "5"] ∧ o'.session.lines = ["5"] ∧
        o.session.environment.get? "x" = some (.int 7) ∧ o'.session.environment.get? "x" = none ∧
        ∀ x ∈ names, o.session.environment.get? x = o'.session.environment.get? x := by
  intro f program s s' names
  have hreads : ∀ stmt ∈ code program, ∀ x ∈ stmt.reads, x ∈ ["n", "y"] := by decide
  have hprogram : Throughout (Stmt.ReadsOnly names) program := hreads
  have hbody : ∀ stmt ∈ code f.body, ∀ x ∈ stmt.reads, x ∈ ["n", "y"] := by decide
  have hbodies : s.Throughout (Stmt.ReadsOnly names) := by
    intro name g hg
    simp only [s, Table.get?, Table.lookup] at hg
    split at hg
    · cases hg; exact hbody
    · cases hg
  have hvalues : ∀ x ∈ names, s.environment.get? x = s'.environment.get? x := by
    intro x hx
    replace hx : x ∈ ["n", "y"] := hx
    simp only [List.mem_cons, List.not_mem_nil, or_false] at hx
    rcases hx with rfl | rfl <;> rfl
  have hends : Ends 5 program s _ := ⟨10, rfl⟩
  have hends' : Ends 5 program s' _ := ⟨10, rfl⟩
  have hdepth : s.environment.depth = s'.environment.depth := rfl
  have hfunctions : ∀ g, s.functions.get? g = s'.functions.get? g := fun _ => rfl
  rcases unread_no_influence hprogram hbodies hdepth hfunctions hvalues with
    ⟨hnone, -⟩ | ⟨o, o', ho, ho', hresult, -, -, hafter⟩
  · exact absurd hends (hnone _)
  · cases ho.unique hends
    cases ho'.unique hends'
    exact ⟨hprogram, hbodies, hvalues, _, _, hends, hends', rfl, hresult, rfl, rfl, rfl, rfl, hafter⟩

end MarathiScript
