/-
  MarathiScript.Proofs.Run.Kinds — where the kinds of values come from.

  Variables get their values from expressions, and an expression its value from its variables,
  its literals and its operators. So a property of values holds of all variables in all frames,
  in every state that a run comes to, if every expression of the program yields values with
  the property from variables with it (`Progress.Step.keeps`); and for that it is enough that
  the literals have it and the operators keep it (`Stmt.yields`).

  Proved (`kind_has_source`): in a run from a fresh session no variable in any frame ever holds
  a double unless the program has a literal for one, nor a string unless it has a literal for
  one, nor a logical value unless it makes a comparison; and without comparisons every loop that
  comes to its condition fails there, and the run with it.
-/

import MarathiScript.Proofs.Run.Failures
import MarathiScript.Proofs.Run.Origin

namespace MarathiScript

/-! ## Values of all variables -/

/-- What was put into a table one after the other and what was there before. -/
theorem Table.get?_foldl_insert {α : Type} {x : String} {a : α} (entries : List (String × α))
    (t : Table α)
    (h : (entries.foldl (fun t entry => t.insert entry.1 entry.2) t).get? x = some a) :
    t.get? x = some a ∨ (x, a) ∈ entries := by
  induction entries generalizing t with
  | nil => exact .inl h
  | cons entry entries ih =>
    rcases ih _ h with h | h
    · rw [get?_insert] at h
      split at h
      · rename_i hx
        cases h
        exact .inr (hx ▸ .head _)
      · exact .inl h
    · exact .inr (.tail _ h)

theorem Table.mem_of_ofList {α : Type} {x : String} {a : α} {entries : List (String × α)}
    (h : (ofList entries).get? x = some a) : (x, a) ∈ entries := by
  rcases get?_foldl_insert entries empty h with h | h
  · cases h
  · exact h

/-- The variables of the frame have values with the property. -/
def Frame.Only (K : Value → Prop) (frame : Frame) : Prop := ∀ x v, frame.get? x = some v → K v

/-- All variables, in every frame, have values with the property. -/
def Environment.Only (K : Value → Prop) (env : Environment) : Prop :=
  ∀ frame ∈ env.top :: env.outer, Frame.Only K frame

namespace Environment.Only

variable {K : Value → Prop} {env : Environment} {frame : Frame} {x : String} {v : Value}

theorem get? (h : env.Only K) (hx : env.get? x = some v) : K v := by
  obtain ⟨frame, hframe, hv⟩ := List.exists_of_findSome?_eq_some hx
  exact h frame hframe x v hv

theorem set (h : env.Only K) (hv : K v) : (env.set x v).Only K := by
  obtain ⟨htop, houter⟩ := List.forall_mem_cons.1 h
  refine List.forall_mem_cons.2 ⟨?_, houter⟩
  intro y w hw
  replace hw : (env.top.insert x v).get? y = some w := hw
  rw [Table.get?_insert] at hw
  split at hw
  · cases hw
    exact hv
  · exact htop y w hw

theorem push (h : env.Only K) (hframe : frame.Only K) : (env.push frame).Only K :=
  List.forall_mem_cons.2 ⟨hframe, h⟩

theorem pop (h : env.Only K) : env.pop.Only K := by
  unfold Environment.pop
  split
  · exact h
  · rename_i houter
    exact fun frame hframe => h frame (houter ▸ .tail _ hframe)

end Environment.Only

/-! ## Values of expressions -/

/-- From variables with the property the expression has no other values. -/
def Expr.Yields (K : Value → Prop) (e : Expr) : Prop :=
  ∀ env v, env.Only K → e.eval env = .ok v → K v

def Stmt.Yields (K : Value → Prop) (stmt : Stmt) : Prop := ∀ e ∈ stmt.expressions, e.Yields K

section

variable {K : Value → Prop} {stmt : Stmt}

/-- Literals with the property, and operators that keep it. -/
theorem Stmt.yields (hint : ∀ n, K (.int n))
    (hfloat : ∀ text, .float text ∈ stmt.leaves → ∀ x, K (.float x))
    (hstr : ∀ text, .string text ∈ stmt.leaves → K (.str text))
    (hoperators : ∀ op ∈ stmt.operators, ∀ v w u, K v → K w → v.combine op w = .ok u → K u) :
    stmt.Yields K := by
  intro e he env v henv hv
  have hmeets : Meets K (fun _ => True) (e.eval env) := by
    refine e.eval_meets ?_ ?_
    · refine fun l hl => ⟨fun v hv => ?_, fun _ _ => trivial⟩
      have hleaf : l ∈ stmt.leaves := List.mem_flatMap.2 ⟨e, he, hl⟩
      rcases Expr.leaf_value (e.leaves_primary l hl) hv with
        ⟨x, -, hx⟩ | ⟨n, rfl⟩ | ⟨text, x, rfl, rfl⟩ | ⟨text, rfl, rfl⟩
      · exact henv.get? hx
      · exact hint n
      · exact hfloat text hleaf x
      · exact hstr text hleaf
    · refine fun op hop v w hv hw => ⟨fun u hu => ?_, fun _ _ => trivial⟩
      have hmem : op ∈ stmt.operators := List.mem_flatMap.2 ⟨e, he, hop⟩
      exact hoperators op hmem v w u hv hw hu
  exact hmeets.value v hv

theorem Stmt.yields_noFloat (h : ∀ text, .float text ∉ stmt.leaves) :
    stmt.Yields fun v => ∀ x, v ≠ .float x := by
  refine yields (fun _ => nofun) (fun text ht => absurd ht (h text)) (fun _ _ => nofun) ?_
  rintro op - v w _ hv hw hc x rfl
  cases Value.combined_of hc with
  | float _ hfloat =>
    rcases hfloat with ⟨y, rfl⟩ | ⟨y, rfl⟩
    · exact hv y rfl
    · exact hw y rfl

theorem Stmt.yields_noString (h : ∀ text, .string text ∉ stmt.leaves) :
    stmt.Yields fun v => ∀ text, v ≠ .str text := by
  refine yields (fun _ => nofun) (fun _ _ _ => nofun) (fun text ht => absurd ht (h text)) ?_
  rintro op - v w _ hv hw hc text rfl
  cases Value.combined_of hc with
  | join _ hstr =>
    rcases hstr with ⟨s, rfl⟩ | ⟨s, rfl⟩
    · exact hv s rfl
    · exact hw s rfl

theorem Stmt.yields_noBool (h : ∀ o : Operator, o.compares = true → o.text ∉ stmt.operators) :
    stmt.Yields fun v => ∀ b, v ≠ .bool b := by
  refine yields (fun _ => nofun) (fun _ _ _ => nofun) (fun _ _ => nofun) ?_
  rintro op hop v w _ - - hc b rfl
  cases Value.combined_of hc with
  | bool _ hcompares => exact h _ hcompares hop

end

/-! ## Steps and states -/

open Progress

section

variable {K : Value → Prop} {limit : Nat} {s t : Session} {stmt : Stmt}

theorem Session.Goes.only {more : Block} (h : s.Goes stmt more t) (hstmt : stmt.Yields K)
    (hs : s.environment.Only K) : t.environment.Only K := by
  cases h with
  | @declare _ value v u he | @assign _ value v u he =>
    obtain ⟨hv, hu⟩ := evaluate_quiet he
    have hvalue : K v := hstmt value (List.mem_singleton.2 rfl) s.environment v hs hv.symm
    exact Environment.Only.set (hu.1 ▸ hs) hvalue
  | print he =>
    have hu := (evaluate_quiet he).2.1
    exact (hu ▸ hs : Environment.Only K _)
  | consequence hc | alternative hc | neither hc =>
    have hu := (ask_quiet hc).2.1
    exact (hu ▸ hs : Environment.Only K _)
  | again hc | done hc | round hc | finish hc => exact (test_quiet hc).2.1 ▸ hs
  | init | define => exact hs

/-- The frame of a call gets its values from the arguments. -/
theorem Session.move_call_only {body : Block} (hm : s.move limit stmt = ⟨.ok (.call body), t⟩)
    (hstmt : stmt.Yields K) (hs : s.environment.Only K) : t.environment.Only K := by
  obtain ⟨name, arguments, f, frame, u, rfl, hp, -, rfl⟩ := move_call hm
  obtain ⟨values, hvalues, rfl⟩ := prepare_frame hp
  have hall : ∀ v ∈ values, K v := evalAll_values hvalues fun e he v => hstmt e he s.environment v hs
  have hu : u.environment.Only K := (prepare_quiet hp).1 ▸ hs
  refine hu.push fun x v hx => hall v ?_
  exact (List.of_mem_zip (Table.mem_of_ofList hx)).2

end

namespace Progress

/-- All variables have values with the property, and no code in sight yields others. -/
structure Keeps (K : Value → Prop) (p : Progress) : Prop where
  values : p.session.environment.Only K
  functions : p.session.Throughout (Stmt.Yields K)
  code : ∀ block ∈ p.blocks, Throughout (Stmt.Yields K) block

variable {K : Value → Prop} {limit : Nat} {p q : Progress}

theorem Step.keeps (hs : Step limit p q) (h : p.Keeps K) : q.Keeps K := by
  obtain ⟨hvalues, hfunctions, hcode⟩ := h
  obtain ⟨hfunctions', hcode'⟩ := hs.inSight ⟨hfunctions, hcode⟩
  refine ⟨?_, hfunctions', hcode'⟩
  cases hs with
  | go hm => exact (Session.move_go hm).only (hcode _ (.head _)).first hvalues
  | call hm => exact Session.move_call_only hm (hcode _ (.head _)).first hvalues
  | fail hm => exact (Session.move_error_quiet hm).1 ▸ hvalues
  | back => exact hvalues.pop
  | out => exact hvalues.pop

end Progress

section

variable {K : Value → Prop} {limit : Nat} {program : Block} {p q : Progress}

theorem Reached.keeps (hprogram : Throughout (Stmt.Yields K) program)
    (h : Reached limit (running program [] .fresh) p) : p.Keeps K := by
  induction h with
  | start =>
    refine ⟨?_, nofun, List.forall_mem_cons.2 ⟨hprogram, nofun⟩⟩
    -- the only frame is the empty one of the globals
    exact List.forall_mem_cons.2 ⟨nofun, nofun⟩
  | step _ hs ih => exact hs.keeps ih

/-! ## Loops without a logical condition -/

/-- After a step that fails, the error is on its way out and nothing else happens. -/
theorem Reached.of_fail {e : RunError} {callers : List Block} {u : Session}
    (hs : Step limit p (failing e callers u)) (h : Reached limit p q) :
    q = p ∨ ∃ callers u, q = failing e callers u := by
  induction h with
  | start => exact .inl rfl
  | step _ hnext ih =>
    right
    rcases ih with rfl | ⟨callers, u, rfl⟩
    · exact ⟨_, _, hnext.unique hs⟩
    · cases hnext
      exact ⟨_, _, rfl⟩

/-- A loop that evaluates its condition next. -/
def Stmt.tests : Stmt → Bool
  | .whilst _ _ | .count none _ _ _ => true
  | _ => false

theorem Session.test_fails {s : Session} {c : Expr} (hs : s.environment.Only fun v => ∀ b, v ≠ .bool b)
    (hc : c.Yields fun v => ∀ b, v ≠ .bool b) : ∃ e u, s.test c = ⟨.error e, u⟩ := by
  rcases hv : s.evaluate c with ⟨err | v, u⟩
  · exact ⟨err, u, by rw [test, hv]⟩
  · have hvalue := hc s.environment v hs (evaluate_quiet hv).1.symm
    refine ⟨.notLogical v, u, ?_⟩
    rw [test, hv]
    cases v with
    | bool b => exact absurd rfl (hvalue b)
    | int _ | float _ | str _ => rfl

theorem Session.move_test_fails {s : Session} {stmt : Stmt} (htests : stmt.tests = true)
    (hs : s.environment.Only fun v => ∀ b, v ≠ .bool b)
    (hstmt : stmt.Yields fun v => ∀ b, v ≠ .bool b) : ∃ e u, s.move limit stmt = ⟨.error e, u⟩ := by
  rcases stmt with _ | _ | _ | ⟨c, body⟩ | ⟨_ | init, c, step, body⟩ | _ | _ | _ <;> cases htests
  case whilst | count.none =>
    obtain ⟨e, u, ht⟩ := test_fails hs (hstmt c (List.mem_singleton.2 rfl))
    exact ⟨e, u, by simp only [move, ht, Outcome.proceed]⟩

/-- In every state that a run from a fresh session comes to, no frame holds a double, a string or a
logical value that the program has no source for; and without comparisons a loop that comes to its
condition fails, its body is not run, and the run ends with the error. -/
theorem kind_has_source (h : Reached limit (running program [] .fresh) p) :
    (Throughout (fun stmt => ∀ text, .float text ∉ stmt.leaves) program →
      p.session.environment.Only fun v => ∀ x, v ≠ .float x) ∧
    (Throughout (fun stmt => ∀ text, .string text ∉ stmt.leaves) program →
      p.session.environment.Only fun v => ∀ text, v ≠ .str text) ∧
    (Throughout (fun stmt => ∀ o : Operator, o.compares = true → o.text ∉ stmt.operators) program →
      (p.session.environment.Only fun v => ∀ b, v ≠ .bool b) ∧
      ∀ stmt rest callers t, stmt.tests = true → p = running (stmt :: rest) callers t →
        ∃ e, (∀ q, Reached limit p q → q = p ∨ ∃ callers u, q = failing e callers u) ∧
          ∃ u, Ends limit program .fresh ⟨.error e, u⟩) := by
  refine ⟨fun hfloat => ?_, fun hstring => ?_, fun hcompares => ?_⟩
  · exact (h.keeps fun stmt hstmt => Stmt.yields_noFloat (hfloat stmt hstmt)).values
  · exact (h.keeps fun stmt hstmt => Stmt.yields_noString (hstring stmt hstmt)).values
  · have hkeeps := h.keeps fun stmt hstmt => Stmt.yields_noBool (hcompares stmt hstmt)
    refine ⟨hkeeps.values, ?_⟩
    rintro stmt rest callers t htests rfl
    have hstmt : stmt.Yields fun v => ∀ b, v ≠ .bool b := (hkeeps.code _ (.head _)).first
    obtain ⟨e, u, hm⟩ : ∃ e u, t.move limit stmt = ⟨.error e, u⟩ :=
      Session.move_test_fails htests hkeeps.values hstmt
    have hfail : Step limit (running (stmt :: rest) callers t) (failing e callers u) := .fail hm
    obtain ⟨v, hout⟩ := Reached.out e callers u
    exact ⟨e, fun q hq => hq.of_fail hfail,
      v, ends_iff_reached.2 ⟨_, (h.step hfail).trans hout, rfl⟩⟩

end

/-- A function with a loop that tests its parameter, and no comparison anywhere: in its body the two
frames hold integers only, and the loop ends the run with an error. -/
theorem kind_has_source_loop :
    let fewer : Expr := .chain (.name "n") [("-", .number "1")]
    let loop : Stmt := .whilst (.name "n") [.assign "n" fewer]
    let program : Block := [.define "f" ["n"] [loop], .call "f" [.number "3"]]
    ∃ t, Reached 5 (running program [] .fresh) (running [loop] [[]] t) ∧
      t.environment.get? "n" = some (.int 3) ∧ (t.environment.Only fun v => ∀ x, v ≠ .float x) ∧
      (t.environment.Only fun v => ∀ text, v ≠ .str text) ∧
      (t.environment.Only fun v => ∀ b, v ≠ .bool b) ∧ ∃ e u, Ends 5 program .fresh ⟨.error e, u⟩ := by
  intro fewer loop program
  have hreached : Reached 5 (running program [] .fresh) (running [loop] [[]] _) :=
    .step (.step .start (.go rfl)) (.call rfl)
  have hcode : code program = [.define "f" ["n"] [loop], loop, .assign "n" fewer,
      .call "f" [.number "3"]] := rfl
  obtain ⟨hfloat, hstring, hcompares⟩ := kind_has_source hreached
  have hleaves : ∀ stmt ∈ code program, stmt.leaves ⊆ [.name "n", .number "1", .number "3"] := by
    rw [hcode]
    simp [Stmt.leaves, Stmt.expressions, Expr.leaves, linkLeaves, loop, fewer]
  have hoperators : ∀ stmt ∈ code program, stmt.operators ⊆ ["-"] := by
    rw [hcode]
    simp [Stmt.operators, Stmt.expressions, Expr.operators, linkOperators, loop, fewer]
  have hnocompare : Throughout
      (fun stmt => ∀ o : Operator, o.compares = true → o.text ∉ stmt.operators) program := by
    intro stmt hstmt o ho hmem
    have hsub := o.ofText?_text
    rw [List.mem_singleton.1 (hoperators stmt hstmt hmem)] at hsub
    cases hsub
    cases ho
  obtain ⟨hbool, hloops⟩ := hcompares hnocompare
  obtain ⟨e, -, u, hends⟩ := hloops loop [] [[]] _ rfl rfl
  refine ⟨_, hreached, rfl, hfloat ?_, hstring ?_, hbool, e, u, hends⟩
  · exact fun stmt hstmt text htext => by simpa using hleaves stmt hstmt htext
  · exact fun stmt hstmt text htext => by simpa using hleaves stmt hstmt htext

end MarathiScript
