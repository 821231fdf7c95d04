/-
  MarathiScript.Proofs.Values.Chains — what a chain of operators stands for.

  A chain is flat, but it means a tree: operators of one rank are put together from the left, so
  `a - b * c` is `(a - b) * c`. The naive rule evaluates the left side of an operator, then the right
  side, and then applies the operator; the first of the three that fails is the failure of the whole
  (`OperatorTree.value`). A chain on the left of `Expr.binary` is extended in place, and a chain on
  the right stays an operand of its own; evaluating a chain takes the operands one by one, so that
  both keep the naive rule (`Expr.eval_binary`).

  Proved:
  - `chains_nested`: an expression built from a tree of operators has the value of the tree. Every
    expression of a parsed program is a chain of operands, and its value is the fold of its
    operators from the left. Where an operator fails, no later operand is looked at.
  - `strings_absorb`: from the first string on, on the left of an operator or on its right, a chain
    is the texts of its operands joined, whatever the operators are.
-/

import MarathiScript.Proofs.Syntax.Lexemes
import MarathiScript.Proofs.Values.Operators

namespace MarathiScript

/-! ## Chains -/

section

variable {env : Environment}

theorem evalLinks_append (v : Value) (links more : List (String × Expr)) :
    evalLinks env v (links ++ more) = evalLinks env v links >>= fun u => evalLinks env u more := by
  induction links generalizing v with
  | nil => rfl
  | cons link links ih =>
    obtain ⟨operator, operand⟩ := link
    rw [List.cons_append, evalLinks, evalLinks]
    rcases operand.eval env with e | w
    · rfl
    · simp only
      rcases v.combine operator w with e | u
      · rfl
      · exact ih u

theorem Expr.eval_chain (first : Expr) (links : List (String × Expr)) :
    (chain first links).eval env = first.eval env >>= fun v => evalLinks env v links := by
  rw [eval]
  rcases first.eval env with e | v <;> rfl

theorem Expr.eval_ofLinks (first : Expr) (links : List (String × Expr)) :
    (ofLinks first links).eval env = first.eval env >>= fun v => evalLinks env v links := by
  cases links with
  | nil =>
    rw [ofLinks]
    rcases first.eval env with e | v <;> rfl
  | cons link links => exact eval_chain first (link :: links)

theorem evalLinks_single (v : Value) (operator : String) (operand : Expr) :
    evalLinks env v [(operator, operand)] = operand.eval env >>= fun w => v.combine operator w := by
  rw [evalLinks]
  rcases operand.eval env with e | w
  · rfl
  · simp only [bind, Except.bind]
    rcases v.combine operator w with e | u <;> rfl

theorem evalLinks_eq_foldlM (v : Value) (links : List (String × Expr)) :
    evalLinks env v links = links.foldlM
      (fun v link => do
        let w ← link.2.eval env
        v.combine link.1 w) v := by
  induction links generalizing v with
  | nil => rfl
  | cons link links ih =>
    have happend : link :: links = [link] ++ links := rfl
    rw [happend, evalLinks_append, evalLinks_single, List.singleton_append, List.foldlM_cons]
    exact bind_congr ih

/-- The naive rule, on whichever side a chain stands. -/
theorem Expr.eval_binary (left : Expr) (operator : String) (right : Expr) :
    (left.binary operator right).eval env = (do
      let v ← left.eval env
      let w ← right.eval env
      v.combine operator w) := by
  cases left with
  | chain first links =>
    rw [binary_chain, eval_chain, eval_chain, bind_assoc]
    refine bind_congr fun v => ?_
    rw [evalLinks_append]
    exact bind_congr fun u => evalLinks_single u operator right
  | name | number | float | string =>
    rw [binary_primary rfl, eval_chain]
    exact bind_congr fun v => evalLinks_single v operator right

end

/-- A chain goes on from the value of the part before. -/
theorem Expr.eval_chain_append {env : Environment} {first : Expr}
    {before : List (String × Expr)} {v : Value} (h : (ofLinks first before).eval env = .ok v)
    (links : List (String × Expr)) :
    (chain first (before ++ links)).eval env = evalLinks env v links := by
  simp only [eval_chain, evalLinks_append]
  rw [← bind_assoc, ← eval_ofLinks, h]
  rfl

/-! ## Trees of operators -/

/-- Operators between two sides each, over operands that may be any expressions. -/
inductive OperatorTree where
  | operand (e : Expr)
  | node (left : OperatorTree) (operator : String) (right : OperatorTree)

namespace OperatorTree

/-- The value by the naive rule. -/
def value (env : Environment) : OperatorTree → Except RunError Value
  | operand e => e.eval env
  | node left operator right => do
    let v ← left.value env
    let w ← right.value env
    v.combine operator w

/-- The expression that is built from the operands upwards. -/
def expr : OperatorTree → Expr
  | operand e => e
  | node left operator right => left.expr.binary operator right.expr

/-- The tree that grows to the left: `(..((p0 op1 p1) op2 p2)..) opn pn`. -/
def ofLinks (first : Expr) (links : List (String × Expr)) : OperatorTree :=
  links.foldl (fun tree link => node tree link.1 (operand link.2)) (operand first)

theorem eval_expr (env : Environment) (tree : OperatorTree) : tree.expr.eval env = tree.value env := by
  induction tree with
  | operand e => rfl
  | node left operator right ihl ihr => rw [expr, Expr.eval_binary, ihl, ihr, value]

theorem value_foldl (env : Environment) (tree : OperatorTree) (links : List (String × Expr)) :
    (links.foldl (fun tree link => node tree link.1 (operand link.2)) tree).value env =
      tree.value env >>= fun v => evalLinks env v links := by
  induction links generalizing tree with
  | nil =>
    rw [List.foldl_nil]
    exact (bind_pure _).symm
  | cons link links ih =>
    have happend : link :: links = [link] ++ links := rfl
    rw [List.foldl_cons, ih, value, bind_assoc]
    refine bind_congr fun v => ?_
    rw [happend, evalLinks_append, evalLinks_single]
    rfl

theorem value_ofLinks (env : Environment) (first : Expr) (links : List (String × Expr)) :
    (ofLinks first links).value env = (Expr.ofLinks first links).eval env := by
  rw [ofLinks, value_foldl, Expr.eval_ofLinks, value]

end OperatorTree

/-! ## Expressions of a program -/

theorem Expr.wellFormed_of_literal {e : Expr} (h : e.isLiteral = true) : e.wellFormed = true := by
  cases e with
  | number | float | string => rfl
  | name | chain => cases h

theorem Stmt.wellFormed_of_opens {stmt : Stmt} (h : stmt.opens = true) : stmt.wellFormed = true := by
  cases stmt with
  | declare name value | assign name value => rw [wellFormed]; exact h
  | _ => cases h

/-- What opens a loop, or steps, is well-formed and has nothing inside. -/
theorem Stmt.clause_wellFormed {stmt : Stmt} (h : stmt.opens = true) :
    ∀ inner ∈ stmt :: stmt.inside, inner.wellFormed = true := by
  rw [(evaluated_clause h).1]
  exact List.forall_mem_singleton.2 (wellFormed_of_opens h)

mutual

theorem Stmt.inside_wellFormed : (stmt : Stmt) → stmt.wellFormed = true →
    ∀ inner ∈ stmt.inside, inner.wellFormed = true
  | .branch _ consequence none, h => by
    rw [Stmt.wellFormed] at h
    rw [Stmt.inside]
    exact code_wellFormed consequence h
  | .branch _ consequence (some alternative), h => by
    rw [Stmt.wellFormed, Bool.and_eq_true] at h
    rw [Stmt.inside, List.forall_mem_append]
    exact ⟨code_wellFormed consequence h.1, code_wellFormed alternative h.2⟩
  | .whilst _ body, h => by
    rw [Stmt.wellFormed, Bool.and_eq_true] at h
    rw [Stmt.inside]
    exact code_wellFormed body h.2
  | .count none _ step body, h => by
    simp only [Stmt.wellFormed, Bool.and_eq_true] at h
    rw [Stmt.inside, List.forall_mem_append]
    exact ⟨Stmt.clause_wellFormed (Stmt.opens_of_steps h.1.2), code_wellFormed body h.2⟩
  | .count (some init) condition step body, h => by
    simp only [Stmt.wellFormed, Bool.and_eq_true] at h
    have hloop : (Stmt.count none condition step body).wellFormed = true := by
      simp [Stmt.wellFormed, h]
    have hinit : init.opens = true := h.1.1.1
    have hround : ∀ inner ∈ step :: step.inside ++ code body, inner.wellFormed = true :=
      List.forall_mem_append.2
        ⟨Stmt.clause_wellFormed (Stmt.opens_of_steps h.1.2), code_wellFormed body h.2⟩
    rw [Stmt.inside, List.forall_mem_append]
    exact ⟨Stmt.clause_wellFormed hinit, List.forall_mem_cons.2 ⟨hloop, hround⟩⟩
  | .define _ _ body, h => by
    rw [Stmt.wellFormed] at h
    rw [Stmt.inside]
    exact code_wellFormed body h
  | .declare _ _, _ | .assign _ _, _ | .call _ _, _ | .print _, _ => by
    rw [Stmt.inside]
    exact nofun

theorem code_wellFormed : (block : Block) → wellFormed block = true →
    ∀ stmt ∈ code block, stmt.wellFormed = true
  | [], _ => by
    rw [code_nil]
    exact nofun
  | stmt :: block, h => by
    rw [wellFormed, Bool.and_eq_true] at h
    rw [code_cons, List.forall_mem_cons, List.forall_mem_append]
    exact ⟨h.1, stmt.inside_wellFormed h.1, code_wellFormed block h.2⟩

end

theorem Stmt.expressions_wellFormed {stmt : Stmt} (h : stmt.wellFormed = true) :
    ∀ e ∈ stmt.expressions, e.wellFormed = true := by
  intro e he
  cases stmt with
  | declare name value =>
    rw [wellFormed] at h
    cases List.mem_singleton.1 he
    exact Expr.wellFormed_of_literal h
  | assign name value | print value =>
    rw [wellFormed] at h
    cases List.mem_singleton.1 he
    exact h
  | whilst condition body | count init condition step body =>
    cases List.mem_singleton.1 he
    simp only [wellFormed, Bool.and_eq_true] at h
    simp [h]
  | call name arguments =>
    rw [wellFormed, List.all_eq_true] at h
    exact h e he
  | branch | define => cases he

/-- Every expression of a parsed program is an operand, or a chain of operands. -/
theorem chain_of_parse {ts : List Token} {program : Block} (h : parse ts = .ok program) {stmt : Stmt}
    (hstmt : stmt ∈ code program) {e : Expr} (he : e ∈ stmt.expressions) :
    ∃ first links, first.isPrimary = true ∧ (∀ link ∈ links, link.2.isPrimary = true) ∧
      e = Expr.ofLinks first links :=
  Parse.wellFormed_iff_ofLinks.1
    (Stmt.expressions_wellFormed (code_wellFormed program (spelt_of_parse h).1 stmt hstmt) e he)

/-! ## The naive rule -/

/-- An expression built with an operator has the value that the naive rule gives from its two sides,
and so has one built from a tree of operators. Every expression of a program is a chain of operands;
it has the value of the tree that grows to the left, which is the fold of its operators over the
operands as they come. So an operator that fails does so before any later operand can. -/
theorem chains_nested (env : Environment) :
    (∀ (left right : Expr) (op : String), (left.binary op right).eval env = (do
      let v ← left.eval env
      let w ← right.eval env
      v.combine op w)) ∧
    (∀ tree : OperatorTree, tree.expr.eval env = tree.value env) ∧
    (∀ ts program, parse ts = .ok program → ∀ stmt ∈ code program, ∀ e ∈ stmt.expressions,
      ∃ first links, e = .ofLinks first links ∧ first.isPrimary = true ∧
        (∀ link ∈ links, link.2.isPrimary = true) ∧
        e.eval env = (OperatorTree.ofLinks first links).value env ∧
        e.eval env = (do
          let v ← first.eval env
          links.foldlM (fun v link => do
            let w ← link.2.eval env
            v.combine link.1 w) v)) ∧
    ∀ first before op operand after v w e, (Expr.ofLinks first before).eval env = .ok v →
      operand.eval env = .ok w → v.combine op w = .error e →
        (Expr.chain first (before ++ (op, operand) :: after)).eval env = .error e := by
  refine ⟨fun left right op => left.eval_binary op right, OperatorTree.eval_expr env, ?_, ?_⟩
  · intro ts program h stmt hstmt e he
    obtain ⟨first, links, hfirst, hlinks, rfl⟩ := chain_of_parse h hstmt he
    refine ⟨first, links, rfl, hfirst, hlinks, (OperatorTree.value_ofLinks env first links).symm, ?_⟩
    rw [Expr.eval_ofLinks]
    exact bind_congr fun v => evalLinks_eq_foldlM v links
  · intro first before op operand after v w e hbefore hoperand hop
    rw [Expr.eval_chain_append hbefore, evalLinks, hoperand]
    simp only [hop]

/-- A division by zero before a name that stands for nothing. -/
theorem chains_nested_division :
    let e := Expr.chain (.number "4") [("/", .number "0"), ("+", .name "y")]
    parse (unparse [.print e]) = .ok [.print e] ∧
      (∃ first links, e = .ofLinks first links ∧
        e.eval .empty = (OperatorTree.ofLinks first links).value .empty) ∧
      (Expr.name "y").eval .empty = .error (.undefinedVariable "y") ∧
      e.eval .empty = .error .divisionByZero := by
  intro e
  obtain ⟨-, -, hparsed, hfails⟩ := chains_nested .empty
  have hparse : parse (unparse [.print e]) = .ok [.print e] := parse_ok ⟨rfl, .refl _⟩
  have hcode : .print e ∈ code [.print e] := by simp
  obtain ⟨first, links, he, -, -, hvalue, -⟩ := hparsed _ _ hparse _ hcode e (.head _)
  have hdivision := hfails (.number "4") [] "/" (.number "0") [("+", .name "y")] (.int 4) (.int 0)
    .divisionByZero rfl rfl rfl
  exact ⟨hparse, ⟨first, links, he, hvalue⟩, rfl, hdivision⟩

/-! ## Strings -/

section

variable {env : Environment}

theorem evalAll_cons_ok {e : Expr} {es : List Expr} {vs : List Value}
    (h : evalAll env (e :: es) = .ok vs) :
    ∃ v rest, vs = v :: rest ∧ e.eval env = .ok v ∧ evalAll env es = .ok rest := by
  rw [evalAll] at h
  rcases hv : e.eval env with err | v <;> rw [hv] at h
  · cases h
  · rcases hrest : evalAll env es with err | rest <;> rw [hrest] at h <;> cases h
    exact ⟨v, rest, rfl, rfl, rfl⟩

/-- Once the part before is a string, the operands have their texts joined to it. -/
theorem evalLinks_string (s : String) {links : List (String × Expr)} {values : List Value}
    (h : evalAll env (links.map Prod.snd) = .ok values) :
    evalLinks env (.str s) links = .ok (.str (s ++ String.join (values.map Value.text))) := by
  induction links generalizing s values with
  | nil =>
    cases h
    rw [evalLinks, List.map_nil, String.join_nil, String.append_empty]
  | cons link links ih =>
    obtain ⟨op, operand⟩ := link
    obtain ⟨w, rest, rfl, hw, hrest⟩ := evalAll_cons_ok h
    have hjoin : (Value.str s).combine op w = .ok (.str (s ++ w.text)) := rfl
    rw [evalLinks, hw]
    simp only [hjoin]
    rw [ih (s ++ w.text) hrest, List.map_cons, String.join_cons, String.append_assoc]

theorem evalLinks_joins {v : Value} {links : List (String × Expr)} {values : List Value}
    (hvalues : evalAll env (links.map Prod.snd) = .ok values)
    (hstring : v.isString = true ∨ ∃ w, values.head? = some w ∧ w.isString = true) :
    evalLinks env v links = .ok (.str (v.text ++ String.join (values.map Value.text))) := by
  cases links with
  | nil =>
    cases hvalues
    rcases hstring with h | ⟨w, hw, -⟩
    · cases v <;> cases h
      exact evalLinks_string _ rfl
    · cases hw
  | cons link links =>
    obtain ⟨op, operand⟩ := link
    obtain ⟨w, rest, rfl, hw, hrest⟩ := evalAll_cons_ok hvalues
    have heither : v.isString = true ∨ w.isString = true := by simpa using hstring
    have hjoin : v.combine op w = .ok (.str (v.text ++ w.text)) := Value.Rule.combine (.join heither)
    rw [evalLinks, hw]
    simp only [hjoin]
    rw [evalLinks_string (v.text ++ w.text) hrest, List.map_cons, String.join_cons, String.append_assoc]

end

/-- If the part of a chain before some link has a value and the operands from there on have values,
and the one before or the first of the others is a string, then the chain is the texts of all of them
joined. It does not matter what the operators from there on are. -/
theorem strings_absorb {env : Environment} {first : Expr} {before links : List (String × Expr)}
    {v : Value} {values : List Value} (hbefore : (Expr.ofLinks first before).eval env = .ok v)
    (hvalues : evalAll env (links.map Prod.snd) = .ok values)
    (hstring : v.isString = true ∨ ∃ w, values.head? = some w ∧ w.isString = true) :
    (Expr.chain first (before ++ links)).eval env =
        .ok (.str (v.text ++ String.join (values.map Value.text))) ∧
      ∀ others : List (String × Expr), others.map Prod.snd = links.map Prod.snd →
        (Expr.chain first (before ++ others)).eval env =
          (Expr.chain first (before ++ links)).eval env := by
  have joined : ∀ others : List (String × Expr), others.map Prod.snd = links.map Prod.snd →
      (Expr.chain first (before ++ others)).eval env =
        .ok (.str (v.text ++ String.join (values.map Value.text))) := by
    intro others hothers
    rw [Expr.eval_chain_append hbefore]
    exact evalLinks_joins (hothers ▸ hvalues) hstring
  exact ⟨joined links rfl, fun others h => (joined others h).trans (joined links rfl).symm⟩

/-- A sum before a string, and after it an operator that no numbers have and a division by zero. -/
theorem strings_absorb_numbers :
    (Expr.ofLinks (.number "1") [("+", .number "2")]).eval .empty = .ok (.int 3) ∧
      evalAll .empty [.string "a", .number "0"] = .ok [.str "a", .int 0] ∧
      (Expr.chain (.number "1") [("+", .number "2"), ("=", .string "a"), ("/", .number "0")]).eval
        .empty = .ok (.str "3a0") := by
  have hbefore : (Expr.ofLinks (.number "1") [("+", .number "2")]).eval .empty = .ok (.int 3) := rfl
  have hvalues : evalAll .empty ([("=", .string "a"), ("/", .number "0")].map Prod.snd) =
      .ok [.str "a", .int 0] := rfl
  exact ⟨hbefore, hvalues, (strings_absorb hbefore hvalues (.inr ⟨_, rfl, rfl⟩)).1⟩

end MarathiScript
