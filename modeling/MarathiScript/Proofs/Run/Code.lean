/-
  MarathiScript.Proofs.Run.Code — the statements that a run can come to.

  `code` lists the statements of a block at every depth: those in branches and loops, and those
  in the bodies of functions. A counting loop counts twice, with its opening statement and
  without, for that is how it goes on. What a run executes was in the code of its block or of
  a function declared before: a step asks for code of its own statement (`Session.Goes.code`), a
  call for that of a declared function, and a declaration adds only what was inside of it.

  So what holds of all statements of a block and of the functions declared (`Throughout`,
  `Session.Throughout`) still holds after every step (`move_go_throughout`,
  `move_call_throughout`) and after every run (`Ran.throughout`), however functions are declared
  again on the way.
-/

import MarathiScript.Proofs.Run.Frames

namespace MarathiScript

/-! ## The code of a block -/

mutual

/-- The statements inside of a statement, function bodies included. -/
def Stmt.inside : Stmt → List Stmt
  | .branch _ consequence none => code consequence
  | .branch _ consequence (some alternative) => code consequence ++ code alternative
  | .whilst _ body => code body
  | .count none _ step body => step :: step.inside ++ code body
  | .count (some init) condition step body =>
    init :: init.inside ++ .count none condition step body :: (step :: step.inside ++ code body)
  | .define _ _ body => code body
  | .declare _ _ | .assign _ _ | .call _ _ | .print _ => []

/-- The statements of a block, at every depth and function bodies included. -/
def code : Block → List Stmt
  | [] => []
  | stmt :: block => stmt :: stmt.inside ++ code block

end

@[simp] theorem code_nil : code [] = [] := by rw [code]

@[simp] theorem code_cons (stmt : Stmt) (block : Block) :
    code (stmt :: block) = stmt :: (stmt.inside ++ code block) := by rw [code]; rfl

@[simp] theorem code_append (block rest : Block) : code (block ++ rest) = code block ++ code rest := by
  induction block with
  | nil => simp
  | cons stmt block ih => simp [ih]

/-- All statements of the block have the property, at every depth and in function bodies too. -/
def Throughout (P : Stmt → Prop) (block : Block) : Prop := ∀ stmt ∈ code block, P stmt

/-- All statements of the functions declared so far have the property. -/
def Session.Throughout (P : Stmt → Prop) (s : Session) : Prop :=
  ∀ name f, s.functions.get? name = some f → MarathiScript.Throughout P f.body

section

variable {P : Stmt → Prop} {stmt : Stmt} {block rest : Block}

theorem throughout_append : Throughout P (block ++ rest) ↔ Throughout P block ∧ Throughout P rest := by
  simp only [Throughout, code_append, List.mem_append, or_imp, forall_and]

theorem throughout_cons : Throughout P (stmt :: rest) ↔ Throughout P [stmt] ∧ Throughout P rest := by
  have happend : stmt :: rest = [stmt] ++ rest := rfl
  rw [happend]
  exact throughout_append

theorem Throughout.head (h : Throughout P (stmt :: rest)) : Throughout P [stmt] :=
  (throughout_cons.1 h).1

theorem Throughout.tail (h : Throughout P (stmt :: rest)) : Throughout P rest :=
  (throughout_cons.1 h).2

theorem Throughout.first (h : Throughout P (stmt :: rest)) : P stmt := h stmt (by simp)

end

/-! ## Steps and runs -/

section

variable {limit : Nat} {P : Stmt → Prop} {stmt : Stmt} {block more body rest : Block}
  {s t : Session} {o : Outcome Unit}

/-- A statement that is no call asks for statements of its own code, and the functions declared
after it are those from before or have a body inside of it. -/
theorem Session.Goes.code (h : s.Goes stmt more t) :
    code more ⊆ stmt :: stmt.inside ∧
      ∀ name f, t.functions.get? name = some f →
        s.functions.get? name = some f ∨ MarathiScript.code f.body ⊆ stmt.inside := by
  cases h with
  | declare he | assign he | print he =>
    have hu := (evaluate_quiet he).2.2.1
    exact ⟨by simp, fun _ _ hf => .inl (hu ▸ hf)⟩
  | @consequence _ _ alternative _ hc =>
    have hu := (ask_quiet hc).2.2.1
    cases alternative <;> exact ⟨by simp [Stmt.inside], fun _ _ hf => .inl (hu ▸ hf)⟩
  | alternative hc | neither hc =>
    have hu := (ask_quiet hc).2.2.1
    exact ⟨by simp [Stmt.inside], fun _ _ hf => .inl (hu ▸ hf)⟩
  | again hc | done hc | finish hc =>
    have hu := (test_quiet hc).2.2.1
    exact ⟨by simp [Stmt.inside], fun _ _ hf => .inl (hu ▸ hf)⟩
  | round hc =>
    have hu := (test_quiet hc).2.2.1
    refine ⟨?_, fun _ _ hf => .inl (hu ▸ hf)⟩
    -- the loop goes on with its parts in another order
    intro inner hinner
    simp only [code_append, code_cons, code_nil, Stmt.inside, List.mem_append, List.mem_cons] at hinner ⊢
    grind
  | init => exact ⟨by simp [Stmt.inside], fun _ _ hf => .inl hf⟩
  | @define name parameters body =>
    refine ⟨by simp, fun g f hf => ?_⟩
    replace hf : (s.functions.insert name ⟨parameters, body⟩).get? g = some f := hf
    rw [Table.get?_insert] at hf
    split at hf
    · cases hf
      right
      rw [Stmt.inside]
      exact List.Subset.refl _
    · exact .inl hf

theorem Session.move_go_throughout (hm : s.move limit stmt = ⟨.ok (.go more), t⟩)
    (hstmt : MarathiScript.Throughout P [stmt]) (hs : s.Throughout P) :
    MarathiScript.Throughout P more ∧ t.Throughout P := by
  obtain ⟨hmore, hfunctions⟩ := (move_go hm).code
  constructor
  · intro inner hinner
    exact hstmt inner (by simpa using hmore hinner)
  · intro name f hf inner hinner
    rcases hfunctions name f hf with hf | hbody
    · exact hs name f hf inner hinner
    · exact hstmt inner (by simp [hbody hinner])

theorem Session.Throughout.kept (h : s.Throughout P) (hfunctions : t.functions = s.functions) :
    t.Throughout P := by
  intro name f hf
  rw [hfunctions] at hf
  exact h name f hf

/-- A call runs the body of a function declared before. -/
theorem Session.move_call_throughout (hm : s.move limit stmt = ⟨.ok (.call body), t⟩)
    (hs : s.Throughout P) : MarathiScript.Throughout P body ∧ t.Throughout P := by
  have ht := hs.kept (move_call_functions hm)
  obtain ⟨name, arguments, f, frame, u, -, hp, rfl, rfl⟩ := move_call hm
  exact ⟨hs name f (prepare_ok hp).1, ht⟩

/-- A run declares no function but with code of its block or of the functions declared before. -/
theorem Ran.throughout (h : Ran limit block s o) (hblock : Throughout P block) (hs : s.Throughout P) :
    o.session.Throughout P := by
  induction h with
  | nil => exact hs
  | fail hm => exact hs.kept (Session.move_error_quiet hm).2.1
  | go hm _ ih =>
    obtain ⟨hmore, ht⟩ := Session.move_go_throughout hm hblock.head hs
    exact ih (throughout_append.2 ⟨hmore, hblock.tail⟩) ht
  | call hm _ _ ihb ihr =>
    obtain ⟨hbody, ht⟩ := Session.move_call_throughout hm hs
    exact ihr hblock.tail (ihb hbody ht)
  | callFail hm _ ihb =>
    obtain ⟨hbody, ht⟩ := Session.move_call_throughout hm hs
    exact ihb hbody ht

end

end MarathiScript
