/-
  MarathiScript.Proofs.Rejections — the literals and operators that a run rejects.

  A run reads literals and looks up operators only when it evaluates, so it is then that a program
  fails which the scanner and the parser have passed. Of the forms that the scanner knows little is
  left to fail for: digits spell an integer, so only their value can be too large
  (`tooLarge_of_number`); digits with a point always spell a double (`floatValue_of_float`); and of the
  eleven operators expressions know all but one, and conditions five (`operator_unknown`,
  `comparison_unknown`).

  Proved (`scanned_rejections`): a run of a source that rejects a literal rejects digits beyond 64
  bits, and one that rejects an operator comes to a statement that does, by an expression with `=`
  or by a condition with one of six. Without these in its conditions it is `=`.
-/

import MarathiScript.Proofs.Run.Origin
import MarathiScript.Proofs.Syntax.Lexemes
import MarathiScript.Proofs.Source

namespace MarathiScript

open Progress

/-! ## Literals -/

namespace Decimal

variable {text whole part : List Char}

/-- Digits have no sign before them. -/
theorem sign_digits {c : Char} (hc : c.isDigit = true) : sign (c :: text) = (false, c :: text) := by
  unfold sign
  split
  case h_1 heq => cases heq; cases hc
  case h_2 heq => cases heq; cases hc
  case h_3 => rfl

theorem whole?_digits (hne : text ≠ []) (hdigits : ∀ c ∈ text, c.isDigit = true) :
    whole? text = some (ofDigits text : Int) := by
  obtain ⟨c, rest, rfl⟩ := List.exists_cons_of_ne_nil hne
  have hall : (c :: rest).all Char.isDigit = true := List.all_eq_true.2 hdigits
  rw [whole?, sign_digits (hdigits c (.head _))]
  simp only [hall, ne_eq, reduceCtorEq, not_false_eq_true, and_self, if_true, Bool.false_eq_true, if_false]

/-- Digits, a point and digits or none spell a number without an exponent. -/
theorem ofChars?_decimal (hne : whole ≠ []) (hwhole : ∀ c ∈ whole, c.isDigit = true)
    (hpart : ∀ c ∈ part, c.isDigit = true) :
    ∃ s, Scientific.ofChars? (whole ++ '.' :: part) = some s := by
  have hbefore : (whole ++ '.' :: part).takeWhile Char.isDigit = whole :=
    takeWhile_stops hwhole (by rintro c ⟨⟩; rfl)
  have hpoint : (whole ++ '.' :: part).dropWhile Char.isDigit = '.' :: part := by
    rw [List.dropWhile_append_of_pos hwhole]
    rfl
  have hrest : part.dropWhile Char.isDigit = [] := by
    rw [← List.append_nil part, List.dropWhile_append_of_pos hpart]
    rfl
  simp [Scientific.ofChars?, hbefore, hpoint, hrest, hne, Scientific.exponentOf?]

theorem float?_decimal (hne : whole ≠ []) (hwhole : ∀ c ∈ whole, c.isDigit = true)
    (hpart : ∀ c ∈ part, c.isDigit = true) : ∃ x, float? (whole ++ '.' :: part) = some x := by
  obtain ⟨s, hs⟩ := ofChars?_decimal hne hwhole hpart
  obtain ⟨c, rest, rfl⟩ := List.exists_cons_of_ne_nil hne
  rw [List.cons_append] at hs ⊢
  simp only [float?, sign_digits (hwhole c (.head _)), hs]
  exact ⟨_, rfl⟩

end Decimal

/-- Digits that spell an integer beyond 64 bits. -/
structure TooLarge (text : String) : Prop where
  nonempty : text ≠ ""
  digits : ∀ c ∈ text.toList, c.isDigit = true
  value : 9223372036854775807 < Decimal.ofDigits text.toList

/-- An integer literal that has no value is too large. -/
theorem tooLarge_of_number {text : String} (h : TokenKind.number.Admits text.toList)
    (hnone : int64OfText? text = none) : TooLarge text := by
  obtain ⟨hne, hdigits⟩ := h
  rw [int64OfText?, Decimal.whole?_digits hne hdigits, Option.bind_some, int64?] at hnone
  refine ⟨fun h => hne (by rw [h]; rfl), hdigits, ?_⟩
  split at hnone
  · cases hnone
  · rename_i hrange
    have hmin : Int64.minValue.toInt = -9223372036854775808 := by decide
    have hmax : Int64.maxValue.toInt = 9223372036854775807 := by decide
    omega

/-- A literal with a point has a value. -/
theorem floatValue_of_float {text : String} (h : TokenKind.float.Admits text.toList) :
    ∃ x, floatValue text = .ok (.float x) := by
  obtain ⟨whole, part, hne, hwhole, hpart, htext⟩ := h
  obtain ⟨x, hx⟩ := Decimal.float?_decimal hne hwhole hpart
  exact ⟨x, by rw [floatValue, htext, hx]⟩

/-! ## Operators -/

/-- The operators that a source can have. -/
def operators : List String := ["==", "!=", "<=", ">=", "<", ">", "=", "+", "-", "*", "/"]

/-- The operators that conditions know. -/
def comparisons : List String := ["==", "<", ">", "<=", ">="]

/-- The operators that no condition knows. -/
def noComparisons : List String := ["=", "!=", "+", "-", "*", "/"]

theorem mem_operators {op : String} (h : TokenKind.operator.Admits op.toList) : op ∈ operators := by
  have hall : ∀ symbol ∈ doubleOperators ++ singleOperators.map ([·]), String.ofList symbol ∈ operators := by
    decide
  have hmem : String.ofList op.toList ∈ operators := by
    refine hall _ (List.mem_append.2 ?_)
    rcases h with h | ⟨c, hc, h⟩
    · exact .inl h
    · exact .inr (List.mem_map.2 ⟨c, hc, h.symm⟩)
  rwa [String.ofList_toList] at hmem

/-- Expressions know all operators but one. -/
theorem operator_unknown {op : String} (h : op ∈ operators) (hnone : Operator.ofText? op = none) :
    op = "=" := by
  have hall : ∀ op ∈ operators, Operator.ofText? op = none → op = "=" := by decide
  exact hall op h hnone

theorem comparison_unknown {op : String} {a b : Int64} (h : op ∈ operators)
    (hnone : Condition.compare? op a b = none) : op ∈ noComparisons := by
  have hall : ∀ op ∈ operators, op ∈ noComparisons ∨ op ∈ comparisons := by decide
  rcases hall op h with h | h
  · exact h
  · simp only [comparisons, List.mem_cons, List.not_mem_nil, or_false] at h
    rcases h with rfl | rfl | rfl | rfl | rfl <;> cases hnone

/-! ## Statements that fail -/

/-- The error rejects no literal but one that is too large, and no operator but an unknown one. -/
structure RunError.Justified (unknown : String → Prop) (e : RunError) : Prop where
  literal : ∀ text, e = .invalidLiteral text → TooLarge text
  operator : ∀ op, e = .unsupportedOperator op → unknown op

/-- The step of the statement fails for this operator: in one of its expressions, or in its condition. -/
inductive Session.Rejects (s : Session) : Stmt → String → Prop
  | expression {stmt : Stmt} {a : Expr} : a ∈ stmt.expressions →
      a.eval s.environment = .error (.unsupportedOperator "=") → Rejects s stmt "="
  | condition {c : Condition} {consequence : Block} {alternative : Option Block} {v : Value} :
      c.operator ∈ noComparisons → s.environment.get? c.name = some v →
        c.verdict v = .error (.unsupportedOperator c.operator) →
          Rejects s (.branch c consequence alternative) c.operator

section

variable {limit : Nat} {s : Session} {stmt : Stmt} {env : Environment} {e : RunError}

theorem RunError.Justified.other {unknown : String → Prop} (hliteral : ∀ text, e ≠ .invalidLiteral text)
    (hoperator : ∀ op, e ≠ .unsupportedOperator op) : e.Justified unknown :=
  ⟨fun text h => absurd h (hliteral text), fun op h => absurd h (hoperator op)⟩

theorem Expr.leaf_justified {l : Expr} {unknown : String → Prop} (hl : l.isPrimary = true)
    (h : Formed l.unparse) (he : l.eval env = .error e) : e.Justified unknown := by
  rcases leaf_error hl he with ⟨x, -, -, rfl⟩ | ⟨text, rfl | rfl, rfl⟩
  · exact .other nofun nofun
  · refine ⟨?_, nofun⟩
    rintro _ ⟨⟩
    have hnone : int64OfText? text = none := by
      rw [eval, numberValue] at he
      split at he
      · cases he
      · assumption
    exact tooLarge_of_number (h _ (.head _) rfl) hnone
  · obtain ⟨x, hx⟩ := floatValue_of_float (h _ (.head _) rfl)
    cases he.symm.trans hx

/-- An expression made of lexemes rejects the one operator that it does not know. -/
theorem Expr.eval_justified {a : Expr} (h : Formed a.unparse) (he : a.eval env = .error e) :
    e.Justified (· = "=") := by
  have hmeets : Meets (fun _ => True) (RunError.Justified (· = "=")) (a.eval env) := by
    refine a.eval_meets (fun l hl => ⟨fun _ _ => trivial, fun err herr => ?_⟩)
      fun op hop v w _ _ => ⟨fun _ _ => trivial, fun err herr => ?_⟩
    · exact leaf_justified (a.leaves_primary l hl) (h.subset (a.leaves_unparse l hl)) herr
    · cases Value.combined_of herr with
      | unsupported hnone =>
        refine ⟨nofun, ?_⟩
        rintro _ ⟨⟩
        exact operator_unknown (mem_operators (h _ (a.operators_unparse op hop) rfl)) hnone
      | notNumber | division | overflow => exact .other nofun nofun
  exact hmeets.error e he

/-- A condition made of lexemes rejects an operator that is no comparison. -/
theorem Condition.verdict_justified {c : Condition} {v : Value} (h : Formed c.unparse)
    (he : c.verdict v = .error e) :
    e.Justified fun op => op = c.operator ∧ op ∈ noComparisons := by
  have hoperator : TokenKind.operator.Admits c.operator.toList :=
    h (.written .operator c.operator) (by simp [unparse]) rfl
  have hvalue : TokenKind.number.Admits c.value.toList :=
    h (.written .number c.value) (by simp [unparse]) rfl
  rw [verdict] at he
  split at he
  · cases he
    exact .other nofun nofun
  split at he
  · rename_i hnone
    cases he
    refine ⟨?_, nofun⟩
    rintro _ ⟨⟩
    exact tooLarge_of_number hvalue hnone
  split at he
  · rename_i hnone
    cases he
    refine ⟨nofun, ?_⟩
    rintro _ ⟨⟩
    exact ⟨rfl, comparison_unknown (mem_operators hoperator) hnone⟩
  · cases he

/-- A statement made of lexemes fails for a literal that is too large or an operator that is unknown, if
it is for a literal or an operator that it fails. -/
theorem Session.Fails.justified (h : s.Fails limit stmt e) (hstmt : Formed stmt.evaluated) :
    e.Justified (s.Rejects stmt) := by
  cases h with
  | expression ha hv =>
    have hform := hstmt.expression ha
    refine ⟨(Expr.eval_justified hform hv).literal, ?_⟩
    rintro op rfl
    cases (Expr.eval_justified hform hv).operator op rfl
    exact .expression ha hv
  | @undecided _ _ v _ ha hv hbool => cases v <;> cases hbool <;> exact .other nofun nofun
  | @verdict c _ _ v _ hget hverdict =>
    have hform : Formed c.unparse := hstmt.condition (.head _)
    refine ⟨(Condition.verdict_justified hform hverdict).literal, ?_⟩
    rintro op rfl
    obtain ⟨rfl, hunknown⟩ := (Condition.verdict_justified hform hverdict).operator op rfl
    exact .condition hunknown hget hverdict
  | unbound | unknown | arity | depth => exact .other nofun nofun

end

/-! ## Runs of a source -/

/-- If the run of a source fails for a literal, that is digits beyond 64 bits, and every literal with a
point has a value. If it fails for an operator, the run came to a statement of the program that rejects
it, for `=` in an expression or for what is no comparison in a condition; so it is `=` if all
conditions compare. -/
theorem scanned_rejections {limit fuel : Nat} {source : String} {e : RunError}
    (h : runSource limit fuel source = some (.error (.run e))) :
    ∃ program, Spells source program ∧
      (∀ text, e = .invalidLiteral text → TooLarge text) ∧
      (∀ ts, scan source = .ok ts → ∀ t ∈ ts, t.kind = .float →
        ∃ x, floatValue t.lexeme = .ok (.float x)) ∧
      (∀ op, e = .unsupportedOperator op → ∃ stmt rest callers s t,
        Reached limit (running program [] .fresh) (running (stmt :: rest) callers s) ∧
          stmt ∈ code program ∧ s.move limit stmt = ⟨.error e, t⟩ ∧ s.Rejects stmt op) ∧
      ((∀ stmt ∈ code program, ∀ c ∈ stmt.conditions, c.operator ∈ comparisons) →
        ∀ op, e = .unsupportedOperator op → op = "=") := by
  obtain ⟨program, u, hspells, hends⟩ := ends_of_runSource h
  obtain ⟨stmt, rest, callers, s, t, hreached, hfails⟩ := (ends_iff_ran.1 hends).origin rfl []
  have hsight : (running (stmt :: rest) callers s).InSight (· ∈ code program) :=
    hreached.inSight ⟨nofun, List.forall_mem_cons.2 ⟨fun _ => id, nofun⟩⟩
  have hstmt : stmt ∈ code program := (hsight.code _ (.head _)).first
  have hjustified := (Session.move_error hfails).justified (hspells.formed stmt hstmt)
  refine ⟨program, hspells, hjustified.literal, fun ts hscan t ht hk => ?_, fun op hop => ?_,
    fun hconditions op hop => ?_⟩
  · have hadmits := scan_admits hscan t ht
    rw [hk] at hadmits
    exact floatValue_of_float hadmits
  · exact ⟨stmt, rest, callers, s, t, hreached, hstmt, hfails, hjustified.operator op hop⟩
  · cases hjustified.operator op hop with
    | expression => rfl
    | @condition c _ _ _ hunknown =>
      have hall : ∀ op ∈ comparisons, op ∉ noComparisons := by decide
      exact absurd hunknown (hall _ (hconditions _ hstmt c (.head _)))

/-- A condition in the body of a function, with an operator that an expression would know. -/
theorem scanned_rejections_body :
    let source := "Karya f(n) \x7b Jar (n != 1) \x7b \x7d \x7d f(1);"
    runSource 5 10 source = some (.error (.run (.unsupportedOperator "!="))) ∧
      ∃ program, Spells source program ∧ ∃ stmt rest callers s t,
        Reached 5 (running program [] .fresh) (running (stmt :: rest) callers s) ∧
          stmt ∈ code program ∧ s.move 5 stmt = ⟨.error (.unsupportedOperator "!="), t⟩ ∧
            s.Rejects stmt "!=" := by
  intro source
  have hscan : scan source = .ok [⟨.define, "Karya", 0⟩, ⟨.identifier, "f", 6⟩, ⟨.leftParen, "(", 7⟩,
      ⟨.identifier, "n", 8⟩, ⟨.rightParen, ")", 9⟩, ⟨.leftBrace, "\x7b", 11⟩, ⟨.branch, "Jar", 13⟩,
      ⟨.leftParen, "(", 17⟩, ⟨.identifier, "n", 18⟩, ⟨.operator, "!=", 20⟩, ⟨.number, "1", 23⟩,
      ⟨.rightParen, ")", 24⟩, ⟨.leftBrace, "\x7b", 26⟩, ⟨.rightBrace, "\x7d", 28⟩,
      ⟨.rightBrace, "\x7d", 30⟩, ⟨.identifier, "f", 32⟩, ⟨.leftParen, "(", 33⟩, ⟨.number, "1", 34⟩,
      ⟨.rightParen, ")", 35⟩, ⟨.semicolon, ";", 36⟩] := scan_ok_iff.2 (by decide +kernel)
  have hrun : runSource 5 10 source = some (.error (.run (.unsupportedOperator "!="))) := by
    rw [runSource, load_eq, hscan]
    rfl
  obtain ⟨program, hspells, -, -, hoperator, -⟩ := scanned_rejections hrun
  exact ⟨hrun, program, hspells, hoperator _ rfl⟩

end MarathiScript
