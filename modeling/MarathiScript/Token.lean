/-
  MarathiScript.Token — the words of the language and where they stand.

  A token has a kind, a lexeme and the byte offset at which it starts. The lexeme of a
  string token is the text between its quotes; every other lexeme is the text itself, so
  the text that a token takes up is `TokenKind.raw`. Eight keywords are written in the
  source as in `keywords`; a keyword of two words holds exactly one space.
-/

namespace MarathiScript

inductive TokenKind where
  | declare
  | branch
  | otherwise
  | print
  | whilst
  | count
  | define
  | call
  | identifier
  | number
  | float
  | string
  | operator
  | leftParen
  | rightParen
  | leftBrace
  | rightBrace
  | semicolon
  | comma
  deriving DecidableEq, Repr, Inhabited

/-- The name under which dumps and messages show a kind. -/
def TokenKind.name : TokenKind → String
  | .declare => "VAR_DECL"
  | .branch => "IF"
  | .otherwise => "ELSE"
  | .print => "PRINT"
  | .whilst => "WHILE"
  | .count => "FOR"
  | .define => "FUNCTION_DECL"
  | .call => "CALL_KEYWORD"
  | .identifier => "IDENTIFIER"
  | .number => "NUMBER"
  | .float => "FLOAT"
  | .string => "STRING"
  | .operator => "OPERATOR"
  | .leftParen => "LPAREN"
  | .rightParen => "RPAREN"
  | .leftBrace => "LBRACE"
  | .rightBrace => "RBRACE"
  | .semicolon => "SEMICOLON"
  | .comma => "COMMA"

/-- The keywords, in the order in which they are tried. -/
def keywords : List (String × TokenKind) :=
  [("He aahe", .declare), ("Jar", .branch), ("Nahitar", .otherwise), ("Chapa", .print),
   ("joparyant", .whilst), ("Suruwaat", .count), ("Karya", .define), ("Bolav", .call)]

/-- The characters that a token of this kind and lexeme takes up in the source. -/
def TokenKind.raw : TokenKind → List Char → List Char
  | .string, lexeme => '"' :: (lexeme ++ ['"'])
  | _, lexeme => lexeme

structure Token where
  kind : TokenKind
  lexeme : String
  /-- The byte at which the token starts; a string starts at its opening quote. -/
  offset : Nat
  deriving DecidableEq, Repr, Inhabited

def Token.raw (t : Token) : List Char := t.kind.raw t.lexeme.toList

/-- A token as dumps and log records show it: `NUMBER(5)`. -/
def Token.text (t : Token) : String := t.kind.name ++ "(" ++ t.lexeme ++ ")"

end MarathiScript
