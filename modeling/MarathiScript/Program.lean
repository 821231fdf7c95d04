/-
  MarathiScript.Program — the tree of a program.

  A program is a block: a list of statements. An expression is a name, a literal kept as it
  is written, or a chain: a first operand, and then operators with an operand each, all of
  one rank and applied from left to right. `Expr.binary` puts an operator between two
  expressions: a chain on the left grows by one link (`binary_chain`), anything else
  becomes the first operand of a new chain, and the right side stays as it is. The condition
  of an `if` is not an expression: it compares a variable with a number.
-/

namespace MarathiScript

inductive Expr where
  | name (x : String)
  /-- An integer literal as it is written. -/
  | number (text : String)
  /-- A literal with a decimal point as it is written. -/
  | float (text : String)
  | string (text : String)
  /-- A first operand, and the operators and operands that follow it. -/
  | chain (first : Expr) (links : List (String × Expr))
  deriving Repr, Inhabited

/-- The comparison of a variable with a number literal. -/
structure Condition where
  name : String
  operator : String
  value : String
  deriving DecidableEq, Repr

inductive Stmt where
  | declare (name : String) (value : Expr)
  | assign (name : String) (value : Expr)
  | branch (condition : Condition) (consequence : List Stmt) (alternative : Option (List Stmt))
  | whilst (condition : Expr) (body : List Stmt)
  /-- A loop with a statement before it and a statement after each round of its body. -/
  | count (init : Option Stmt) (condition : Expr) (step : Stmt) (body : List Stmt)
  | define (name : String) (parameters : List String) (body : List Stmt)
  | call (name : String) (arguments : List Expr)
  | print (value : Expr)
  deriving Repr

abbrev Block := List Stmt

namespace Expr

/-- `operator` between two expressions. -/
def binary : Expr → String → Expr → Expr
  | chain first links, operator, right => chain first (links ++ [(operator, right)])
  | left, operator, right => chain left [(operator, right)]

/-- A first operand with the links that follow it, which may be none. -/
def ofLinks (first : Expr) : List (String × Expr) → Expr
  | [] => first
  | links => chain first links

/-- An expression without operators. -/
def isPrimary : Expr → Bool
  | chain _ _ => false
  | _ => true

theorem binary_chain (first : Expr) (links : List (String × Expr)) (operator : String)
    (right : Expr) :
    binary (chain first links) operator right = chain first (links ++ [(operator, right)]) := rfl

theorem binary_primary {left : Expr} (h : left.isPrimary = true) (operator : String)
    (right : Expr) : binary left operator right = chain left [(operator, right)] := by
  cases left <;> first | rfl | cases h

end Expr

end MarathiScript
