/-
  MarathiScript.Proofs.Run.Footprint — what a run may change.

  `assigned` lists the names that a block declares or assigns itself: in its branches, in the
  bodies of its loops and in what opens and steps them, but not in the bodies of functions.
  A run that ends, well or not, is `Confined` to these names: the frames below the top one are
  untouched, the top frame differs at these names at most, and neither a bound name nor a
  declared function is lost. A step is confined to the names of its statement
  (`Session.Goes.confined`), and what a call did to the variables goes with its frame
  (`Ran.leave_environment`).

  Proved (`run_confined`): every run is confined to the names that its block assigns; a call
  leaves all variables as they were; and a session that has run any number of programs has no
  call frame left, so it can run the next one.
-/

import MarathiScript.Proofs.Run.Frames

namespace MarathiScript

/-! ## The names that a block assigns -/

mutual

/-- The names that a statement assigns, those assigned by functions that it declares apart. -/
def Stmt.assigned : Stmt → List String
  | .declare name _ | .assign name _ => [name]
  | .branch _ consequence none => assigned consequence
  | .branch _ consequence (some alternative) => assigned consequence ++ assigned alternative
  | .whilst _ body => assigned body
  | .count none _ step body => step.assigned ++ assigned body
  | .count (some init) _ step body => init.assigned ++ (step.assigned ++ assigned body)
  | .define _ _ _ | .call _ _ | .print _ => []

def assigned : Block → List String
  | [] => []
  | stmt :: block => stmt.assigned ++ assigned block

end

@[simp] theorem assigned_nil : assigned [] = [] := by rw [assigned]

@[simp] theorem assigned_cons (stmt : Stmt) (block : Block) :
    assigned (stmt :: block) = stmt.assigned ++ assigned block := by rw [assigned]

@[simp] theorem assigned_append (block rest : Block) :
    assigned (block ++ rest) = assigned block ++ assigned rest := by
  induction block with
  | nil => simp
  | cons stmt block ih => simp [ih]

/-! ## Confined changes -/

/-- From one session to the other the variables changed in the top frame only, there at these names
only, and no variable and no function was lost. -/
structure Confined (names : List String) (s t : Session) : Prop where
  outer : t.environment.outer = s.environment.outer
  top : ∀ x, x ∉ names → t.environment.top.get? x = s.environment.top.get? x
  bound : ∀ x, (s.environment.top.get? x).isSome = true → (t.environment.top.get? x).isSome = true
  functions : ∀ f, (s.functions.get? f).isSome = true → (t.functions.get? f).isSome = true

namespace Confined

variable {names more : List String} {s t u : Session}

theorem of_environment (henv : t.environment = s.environment)
    (hfunctions : ∀ f, (s.functions.get? f).isSome = true → (t.functions.get? f).isSome = true) :
    Confined names s t where
  outer := by rw [henv]
  top := fun _ _ => by rw [henv]
  bound := fun _ h => by rw [henv]; exact h
  functions := hfunctions

theorem of_kept (henv : t.environment = s.environment) (hfunctions : t.functions = s.functions) :
    Confined names s t := .of_environment henv fun _ hf => by rw [hfunctions]; exact hf

theorem of_quiet (h : s.Quiet t) : Confined names s t := .of_kept h.1 h.2.1

theorem refl (s : Session) : Confined names s s := .of_kept rfl rfl

theorem trans (h : Confined names s t) (h' : Confined names t u) : Confined names s u where
  outer := h'.outer.trans h.outer
  top := fun x hx => (h'.top x hx).trans (h.top x hx)
  bound := fun x hx => h'.bound x (h.bound x hx)
  functions := fun f hf => h'.functions f (h.functions f hf)

theorem mono (h : Confined names s t) (hsub : names ⊆ more) : Confined more s t where
  outer := h.outer
  top := fun x hx => h.top x fun hmem => hx (hsub hmem)
  bound := h.bound
  functions := h.functions

theorem bind (h : s.Quiet t) (x : String) (v : Value) : Confined [x] s (t.bind x v) where
  outer := by rw [← h.1]; rfl
  top := by
    intro y hy
    have hne : x ≠ y := fun e => hy (by simp [e])
    rw [← h.1]
    exact Table.get?_insert_of_ne hne _ _
  bound := by
    intro y hy
    show ((t.environment.top.insert x v).get? y).isSome = true
    rw [Table.get?_insert, h.1]
    split
    · rfl
    · exact hy
  functions := by
    intro f hf
    show (t.functions.get? f).isSome = true
    rw [h.2.1]
    exact hf

theorem define (s : Session) (name : String) (f : Function) : Confined names s (s.define name f) :=
  .of_environment rfl fun g hg => by
    show ((s.functions.insert name f).get? g).isSome = true
    rw [Table.get?_insert]
    split
    · rfl
    · exact hg

end Confined

/-! ## Steps and runs -/

section

variable {limit : Nat} {stmt : Stmt} {block more body : Block} {s t : Session} {o : Outcome Unit}

/-- A statement that is no call changes its own names only, and asks for statements that assign no
others. -/
theorem Session.Goes.confined (h : s.Goes stmt more t) :
    Confined stmt.assigned s t ∧ assigned more ⊆ stmt.assigned := by
  cases h with
  | @declare name _ v _ he | @assign name _ v _ he =>
    rw [Stmt.assigned]
    exact ⟨.bind (evaluate_quiet he).2 name v, by simp⟩
  | print he =>
    have hu := (evaluate_quiet he).2
    exact ⟨.of_kept hu.1 hu.2.1, by simp⟩
  | @consequence _ _ alternative _ hc =>
    have hu := (ask_quiet hc).2
    cases alternative <;> exact ⟨.of_kept hu.1 hu.2.1, by simp [Stmt.assigned]⟩
  | alternative hc | neither hc =>
    have hu := (ask_quiet hc).2
    exact ⟨.of_kept hu.1 hu.2.1, by simp [Stmt.assigned]⟩
  | again hc | done hc | round hc | finish hc =>
    exact ⟨.of_quiet (test_quiet hc).2, by simp [Stmt.assigned]⟩
  | init => exact ⟨.refl s, by simp [Stmt.assigned]⟩
  | @define name => exact ⟨.define s name _, by simp⟩

/-- After a call the variables are those from before it, and no function is lost. -/
theorem Confined.call {names more : List String} (hm : s.move limit stmt = ⟨.ok (.call body), t⟩)
    (hb : Ran limit body t o) (h : Confined names t o.session) : Confined more s o.session.leave :=
  .of_environment (hb.leave_environment hm) fun f hf =>
    h.functions f (by rw [Session.move_call_functions hm]; exact hf)

theorem Ran.confined (h : Ran limit block s o) : Confined (assigned block) s o.session := by
  induction h with
  | nil s => exact .refl s
  | fail hm => exact .of_quiet (Session.move_error_quiet hm)
  | go hm _ ih =>
    obtain ⟨hstep, hsub⟩ := (Session.move_go hm).confined
    refine (hstep.mono ?_).trans (ih.mono ?_)
    · simp
    · rw [assigned_append, assigned_cons]
      exact List.append_subset.2 ⟨List.subset_append_of_subset_left _ hsub, List.subset_append_right _ _⟩
  | call hm hb _ ihb ihr =>
    refine (Confined.call hm hb ihb).trans (ihr.mono ?_)
    simp
  | callFail hm hb ihb => exact .call hm hb ihb

/-- A call leaves all variables as they were, also one that is refused or fails. -/
theorem Ran.call_environment {name : String} {arguments : List Expr}
    (h : Ran limit [.call name arguments] s o) : o.session.environment = s.environment := by
  cases h with
  | fail hm => exact (Session.move_error_quiet hm).1
  | go hm _ =>
    obtain ⟨_, _, _, hn⟩ := Outcome.proceed_ok hm
    cases hn
  | call hm hb hr =>
    cases hr
    exact hb.leave_environment hm
  | callFail hm hb => exact hb.leave_environment hm

end

/-- The sessions in which programs have been run one after the other, well or not. -/
inductive Session.Used (limit : Nat) : Session → Prop
  | fresh : Used limit .fresh
  | run {s : Session} {program : Block} {o : Outcome Unit} :
      Used limit s → Ends limit program s o → Used limit o.session

theorem Ran.depth {limit : Nat} {block : Block} {s : Session} {o : Outcome Unit}
    (h : Ran limit block s o) : o.session.environment.depth = s.environment.depth :=
  congrArg List.length h.outer

/-- A run changes no more than the names that its block assigns, in the top frame; a call changes
no variable; and between the programs of a session there is no call frame. -/
theorem run_confined (limit : Nat) :
    (∀ block s o, Ends limit block s o → Confined (assigned block) s o.session) ∧
      (∀ name arguments s o, Ends limit [.call name arguments] s o →
        o.session.environment = s.environment) ∧
      ∀ s, Session.Used limit s → s.environment.depth = 0 := by
  refine ⟨fun block s o h => (ends_iff_ran.1 h).confined,
    fun name arguments s o h => (ends_iff_ran.1 h).call_environment, fun s h => ?_⟩
  induction h with
  | fresh => rfl
  | run _ hrun ih => exact (ends_iff_ran.1 hrun).depth.trans ih

/-- A function that writes to its parameter and to a name of its own, declares a function and then
fails, run inside of a call frame: of the variables only `z`, which the block assigns, is new. -/
theorem run_confined_failing :
    let body : Block := [.assign "x" (.string "in"), .declare "y" (.string "own"),
      .define "inner" [] [], .call "missing" []]
    let program : Block := [.define "f" ["x"] body, .assign "z" (.string "out"), .call "f" [.name "z"]]
    let s : Session := ⟨⟨⟨[("x", .int 7)]⟩, [⟨[("y", .int 8)]⟩]⟩, .empty, #[], #[]⟩
    ∃ o, Ends 5 program s o ∧ o.result = .error (.undefinedFunction "missing") ∧
      o.session.environment.outer = [⟨[("y", .int 8)]⟩] ∧
      o.session.environment.top.get? "x" = some (.int 7) ∧
      o.session.environment.top.get? "y" = none ∧
      (o.session.functions.get? "inner").isSome = true := by
  intro body program s
  have hend : Ends 5 program s _ := ⟨20, rfl⟩
  have hconfined := (run_confined 5).1 program s _ hend
  have hassigned : assigned program = ["z"] := by simp [program, Stmt.assigned]
  rw [hassigned] at hconfined
  exact ⟨_, hend, rfl, hconfined.outer, hconfined.top "x" (by decide), hconfined.top "y" (by decide), rfl⟩

end MarathiScript
