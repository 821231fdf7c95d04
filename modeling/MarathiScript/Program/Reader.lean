/-
  MarathiScript.Program.Reader — the place of a parser in its tokens, and its one way to move.

  A reader holds the tokens ahead, and those at which it began a statement. A parser goes on
  only by `take`, which takes the next token if that is one of those wanted there; `sees`
  and `begin` look at the next token without taking it. So a parser fails only where the
  next token, or the end of the tokens, is not wanted, and the reader then stands before
  that very token.
-/

import MarathiScript.Token

namespace MarathiScript

/-- What a parser may want at some place. -/
inductive Wanted where
  | kind (k : TokenKind)
  /-- The operator `=`. -/
  | equals
  /-- A number or a string. -/
  | literal
  /-- A name, a number or a string. -/
  | operand
  /-- The first token of a statement. -/
  | statement
  deriving DecidableEq, Repr

inductive ParseError where
  | expected (wanted : Wanted) (found : Token)
  | unexpected (found : Token)
  | endOfInput (wanted : Wanted)
  deriving DecidableEq, Repr

namespace Wanted

def text : Wanted → String
  | kind k => k.name
  | equals => "OPERATOR(=)"
  | literal => "NUMBER, FLOAT or STRING"
  | operand => "expression"
  | statement => "statement"

def admits : Wanted → Token → Bool
  | kind k, t => t.kind == k
  | equals, t => t.kind == .operator && t.lexeme == "="
  | literal, t => t.kind == .number || t.kind == .float || t.kind == .string
  | operand, t =>
    t.kind == .identifier || t.kind == .number || t.kind == .float || t.kind == .string
  | statement, t =>
    t.kind == .declare || t.kind == .print || t.kind == .count || t.kind == .branch ||
      t.kind == .whilst || t.kind == .define || t.kind == .identifier

/-- The error where the next token is not wanted. An operand and a statement can start in
many ways, so the token found is named alone. -/
def refusal : Wanted → Token → ParseError
  | operand, t | statement, t => .unexpected t
  | w, t => .expected w t

end Wanted

def ParseError.message : ParseError → String
  | .expected wanted found =>
    "expected " ++ wanted.text ++ " but found " ++ found.kind.name ++ ": " ++ found.lexeme ++
      " (byte " ++ toString found.offset ++ ")"
  | .unexpected found =>
    "unexpected token " ++ found.kind.name ++ ": " ++ found.lexeme ++
      " (byte " ++ toString found.offset ++ ")"
  | .endOfInput wanted => "unexpected end of input, expected " ++ wanted.text

structure Reader where
  ahead : List Token
  /-- The tokens at which a statement began, the latest first. -/
  begun : List Token
  deriving DecidableEq, Repr

def Reader.ofTokens (tokens : List Token) : Reader := ⟨tokens, []⟩

/-- A parser: where it fails, the reader stays where it came to. -/
abbrev Parse := EStateM ParseError Reader

namespace Parse

variable {α β : Type}

def sees (wanted : Wanted) : Parse Bool := fun r => .ok (r.ahead.head?.any wanted.admits) r

/-- Takes the next token, which has to be wanted. -/
def take (wanted : Wanted) : Parse Token := fun r =>
  match r.ahead with
  | [] => .error (.endOfInput wanted) r
  | t :: rest =>
    if wanted.admits t then .ok t { r with ahead := rest } else .error (wanted.refusal t) r

/-- Notes that a statement begins at the next token, and tells its kind. -/
def begin : Parse TokenKind := fun r =>
  match r.ahead with
  | [] => .error (.endOfInput .statement) r
  | t :: rest =>
    if Wanted.statement.admits t then .ok t.kind ⟨t :: rest, t :: r.begun⟩
    else .error (Wanted.statement.refusal t) ⟨t :: rest, t :: r.begun⟩

/-- Succeeds at the end of the tokens only. -/
def finish : Parse Unit := fun r =>
  match r.ahead with
  | [] => .ok () r
  | t :: _ => .error (.unexpected t) r

/-- Runs `item` after each token of kind `mark`, as long as one stands next; there are at most
as many rounds as tokens in `bound`, and what was `read` before (latest first) comes first. -/
def afterEach (mark : TokenKind) (item : Parse α) : List Token → List (String × α) →
    Parse (List (String × α))
  | [], read => pure read.reverse
  | _ :: bound, read => do
    if ← sees (.kind mark) then
      let t ← take (.kind mark)
      let a ← item
      afterEach mark item bound ((t.lexeme, a) :: read)
    else
      pure read.reverse

/-- `item` after each token of kind `mark`, with the lexemes of these tokens. Each round takes a
token, so the tokens ahead bound the rounds. -/
def linked (mark : TokenKind) (item : Parse α) : Parse (List (String × α)) := fun r =>
  afterEach mark item r.ahead [] r

/-- One `item` or more with commas between them. -/
def commaList (item : Parse α) : Parse (List α) := do
  let first ← item
  let others ← linked .comma item
  pure (first :: others.map (·.2))

theorem bind_run (p : Parse α) (f : α → Parse β) (r : Reader) :
    (p >>= f) r = match p r with
      | .ok a r' => f a r'
      | .error e r' => .error e r' := by
  show EStateM.bind p f r = _
  unfold EStateM.bind
  cases p r <;> rfl

theorem take_ok {wanted : Wanted} {r r' : Reader} {t : Token} (h : take wanted r = .ok t r') :
    r.ahead = t :: r'.ahead ∧ wanted.admits t = true ∧ r'.begun = r.begun := by
  unfold take at h
  split at h
  · cases h
  · rename_i u rest hr
    split at h
    · rename_i hw
      cases h
      exact ⟨hr, hw, rfl⟩
    · cases h

end Parse

end MarathiScript
