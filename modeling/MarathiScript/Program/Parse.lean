/-
  MarathiScript.Program.Parse — the grammar of programs.

  Each parser here reads one construct from its first token on, with one token of lookahead:
  - `expression`: an operand, and any number of operators with an operand each.
  - `declaration`, `assignTo`: the two statements that may also stand at the head of a
    counting loop, without their semicolon.
  - `callOf`, `print`, `define`, `branch`, `whilst`, `count`: the other statements. Those with
    a block in braces are given the parser of the block.
  - `block`: statements up to a closing brace or the end of the tokens.
  Every statement takes a token, so a block inside a statement, and the statements after it,
  have fewer tokens ahead: `block` recurs on the list of these tokens. `parse` reads a whole
  program: a block with nothing after it.
-/

import MarathiScript.Program
import MarathiScript.Program.Reader

namespace MarathiScript

namespace Parse

/-- The expression that an operand's token stands for. -/
def operandOf (t : Token) : Expr :=
  match t.kind with
  | .number => .number t.lexeme
  | .float => .float t.lexeme
  | .string => .string t.lexeme
  | _ => .name t.lexeme

def operand : Parse Expr := operandOf <$> take .operand

def expression : Parse Expr := do
  let first ← operand
  let links ← linked .operator operand
  pure (.ofLinks first links)

def identifier : Parse String := Token.lexeme <$> take (.kind .identifier)

/-- A token of kind `k` whose lexeme does not matter. -/
def mark (k : TokenKind) : Parse Unit := discard (take (.kind k))

/-- `item` in parentheses. -/
def parenthesised {α : Type} (item : Parse α) : Parse α := do
  mark .leftParen
  let a ← item
  mark .rightParen
  pure a

/-- Items with commas between them; none before a closing parenthesis. -/
def items {α : Type} (item : Parse α) : Parse (List α) := do
  if ← sees (.kind .rightParen) then pure [] else commaList item

def braced (inner : Parse Block) : Parse Block := do
  mark .leftBrace
  let body ← inner
  mark .rightBrace
  pure body

def declaration : Parse Stmt := do
  mark .declare
  let name ← identifier
  discard (take .equals)
  let value ← take .literal
  pure (.declare name (operandOf value))

/-- The rest of an assignment after its name. -/
def assignTo (name : String) : Parse Stmt := do
  discard (take .equals)
  let value ← expression
  pure (.assign name value)

/-- The rest of a call after its name. -/
def callOf (name : String) : Parse Stmt := do
  let arguments ← parenthesised (items expression)
  pure (.call name arguments)

/-- A statement that starts with a name. -/
def named : Parse Stmt := do
  let name ← identifier
  let stmt ← if ← sees .equals then assignTo name else callOf name
  mark .semicolon
  pure stmt

def print : Parse Stmt := do
  mark .print
  let value ← parenthesised expression
  mark .semicolon
  pure (.print value)

def define (inner : Parse Block) : Parse Stmt := do
  mark .define
  let name ← identifier
  let parameters ← parenthesised (items identifier)
  let body ← braced inner
  pure (.define name parameters body)

def condition : Parse Condition := do
  let name ← identifier
  let operator ← take (.kind .operator)
  let value ← take (.kind .number)
  pure ⟨name, operator.lexeme, value.lexeme⟩

def branch (inner : Parse Block) : Parse Stmt := do
  mark .branch
  let test ← parenthesised condition
  let consequence ← braced inner
  if ← sees (.kind .otherwise) then
    mark .otherwise
    let alternative ← braced inner
    pure (.branch test consequence (some alternative))
  else
    pure (.branch test consequence none)

def whilst (inner : Parse Block) : Parse Stmt := do
  mark .whilst
  let test ← parenthesised expression
  let body ← braced inner
  pure (.whilst test body)

/-- The statement that may open a counting loop. -/
def opening : Parse (Option Stmt) := do
  if ← sees (.kind .declare) then some <$> declaration
  else if ← sees (.kind .identifier) then do
    let name ← identifier
    some <$> assignTo name
  else pure none

def count (inner : Parse Block) : Parse Stmt := do
  mark .count
  mark .leftParen
  let init ← opening
  mark .semicolon
  let test ← expression
  mark .semicolon
  let name ← identifier
  let step ← assignTo name
  mark .rightParen
  let body ← braced inner
  pure (.count init test step body)

/-- No statement can begin here: a closing brace stands next, or nothing does. -/
def atEnd : Parse Bool := fun r =>
  match r.ahead with
  | [] => .ok true r
  | t :: _ => .ok (t.kind == .rightBrace) r

/-- A statement; the blocks in it are read by `inner`. -/
def statement (inner : Parse Block) : Parse Stmt := do
  match ← begin with
  | .declare => do
    let stmt ← declaration
    mark .semicolon
    pure stmt
  | .print => print
  | .define => define inner
  | .branch => branch inner
  | .whilst => whilst inner
  | .count => count inner
  | _ => named

/-- Statements after those `read` (latest first), up to a closing brace or the end. The tokens
in `bound` bound both their number and how deep they nest. -/
def statements : List Token → List Stmt → Parse Block
  | [], read => pure read.reverse
  | _ :: bound, read => do
    if ← atEnd then pure read.reverse
    else do
      let stmt ← statement (statements bound [])
      statements bound (stmt :: read)

/-- Statements up to a closing brace or the end of the tokens. -/
def block : Parse Block := fun r => statements r.ahead [] r

/-- A block with nothing after it. -/
def program : Parse Block := do
  let body ← block
  finish
  pure body

end Parse

/-- Reads a program from the tokens ahead. -/
def Reader.program (r : Reader) : Except ParseError Block × Reader :=
  match Parse.program r with
  | .ok body r' => (.ok body, r')
  | .error e r' => (.error e, r')

/-- The program that the tokens spell. -/
def parse (tokens : List Token) : Except ParseError Block :=
  (Reader.ofTokens tokens).program.1

end MarathiScript
