/-
  MarathiScript.Program.Outline — the parts of tokens and programs as dumps name them.

  Each kind of statement and of expression has a name and, for a statement, named fields in a
  fixed order. A chain lists its links as pairs of an operator and an operand.
-/

import MarathiScript.Token
import MarathiScript.Program
import MarathiScript.Text.Outline

namespace MarathiScript

open Text

/-- A token as an object of its kind, its lexeme and its offset. -/
def Token.json (t : Token) : Json :=
  .object [("kind", .text t.kind.name), ("lexeme", .text t.lexeme), ("offset", .number t.offset)]

mutual

def Expr.outline : Expr → Outline
  | .name x => .wrap "Variable" (.text x)
  | .number text => .wrap "Number" (.text text)
  | .float text => .wrap "Float" (.text text)
  | .string text => .wrap "String" (.text text)
  | .chain first links =>
    .form "Binary" [("first", first.outline), ("rest", .list (linkOutlines links))]

def linkOutlines : List (String × Expr) → List Outline
  | [] => []
  | (operator, operand) :: links => .group [.text operator, operand.outline] :: linkOutlines links

end

def Condition.outline (c : Condition) : Outline :=
  .record "Condition" [("name", .text c.name), ("operator", .text c.operator),
    ("value", .text c.value)]

/-- The outline of a block whose statements have these outlines. -/
def blockRecord (stmts : List Outline) : Outline := .record "Block" [("statements", .list stmts)]

mutual

def Stmt.outline : Stmt → Outline
  | .declare name value =>
    .form "VariableDeclaration" [("name", .text name), ("value", value.outline)]
  | .assign name value => .form "Assignment" [("name", .text name), ("value", value.outline)]
  | .branch condition consequence none =>
    .form "If" [("condition", condition.outline),
      ("consequence", blockRecord (stmtOutlines consequence)), ("alternative", .absent)]
  | .branch condition consequence (some alternative) =>
    .form "If" [("condition", condition.outline),
      ("consequence", blockRecord (stmtOutlines consequence)),
      ("alternative", .present (blockRecord (stmtOutlines alternative)))]
  | .whilst condition body =>
    .form "While" [("condition", condition.outline), ("body", blockRecord (stmtOutlines body))]
  | .count none condition step body =>
    .form "For" [("init", .absent), ("condition", condition.outline),
      ("increment", step.outline), ("body", blockRecord (stmtOutlines body))]
  | .count (some init) condition step body =>
    .form "For" [("init", .present init.outline), ("condition", condition.outline),
      ("increment", step.outline), ("body", blockRecord (stmtOutlines body))]
  | .define name parameters body =>
    .form "FunctionDeclaration" [("name", .text name),
      ("parameters", .list (parameters.map .text)), ("body", blockRecord (stmtOutlines body))]
  | .call name arguments =>
    .form "FunctionCall" [("name", .text name),
      ("arguments", .list (arguments.map Expr.outline))]
  | .print value => .form "Print" [("value", value.outline)]

def stmtOutlines : List Stmt → List Outline
  | [] => []
  | stmt :: block => stmt.outline :: stmtOutlines block

end

def blockOutline (block : Block) : Outline := blockRecord (stmtOutlines block)

end MarathiScript
