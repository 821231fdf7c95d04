/-
  MarathiScript.Token.Cursor — reading the tokens of a source one after the other.

  A cursor holds the text still to be read, the byte offset of its head and the line that
  the head stands on, counted from 1. `Cursor.next` skips blanks and reads one token. Where
  it fails the cursor still moves on in its own way: a stray character is not passed, an
  unclosed string takes the rest of the text, a malformed number is passed as a whole; so
  reading may go on after a fault. A call that returns a token leaves a shorter rest
  (`Cursor.next_rest_lt`), so reading a source ends (`Cursor.readAll`).
-/

import MarathiScript.Token.Piece

namespace MarathiScript

/-- Why a source has no tokens from some point on. -/
inductive ScanError where
  | unexpectedCharacter (ch : Char) (offset line : Nat)
  /-- A string that no quote closes: where its opening quote stands. -/
  | unterminatedString (offset line : Nat)
  /-- A number with a second decimal point: its digits and dots, and where that point stands. -/
  | malformedNumber (lexeme : String) (offset line : Nat)
  deriving DecidableEq, Repr

def ScanError.message : ScanError → String
  | .unexpectedCharacter ch offset line =>
    "unexpected character '" ++ ch.toString ++ "' at byte " ++ toString offset ++
      " (line " ++ toString line ++ ")"
  | .unterminatedString offset line =>
    "unterminated string literal starting at byte " ++ toString offset ++
      " (line " ++ toString line ++ ")"
  | .malformedNumber lexeme offset line =>
    "malformed number '" ++ lexeme ++ "': extra decimal point at byte " ++ toString offset ++
      " (line " ++ toString line ++ ")"

/-- The number of bytes that a text takes up in UTF-8. -/
def byteLength (text : List Char) : Nat := text.foldr (fun c n => c.utf8Size + n) 0

@[simp] theorem byteLength_nil : byteLength [] = 0 := rfl

@[simp] theorem byteLength_cons (c : Char) (text : List Char) :
    byteLength (c :: text) = c.utf8Size + byteLength text := rfl

@[simp] theorem byteLength_append (text more : List Char) :
    byteLength (text ++ more) = byteLength text + byteLength more := by
  induction text with
  | nil => simp
  | cons c text ih => simp [ih, Nat.add_assoc]

structure Cursor where
  rest : List Char
  offset : Nat
  line : Nat
  deriving DecidableEq, Repr

namespace Cursor

def ofText (source : String) : Cursor := ⟨source.toList, 0, 1⟩

/-- Passes `text`, which the rest starts with. -/
def advance (c : Cursor) (text : List Char) : Cursor :=
  ⟨c.rest.drop text.length, c.offset + byteLength text, c.line + text.count '\n'⟩

def skipBlanks (c : Cursor) : Cursor := c.advance (c.rest.takeWhile isBlank)

/-- Reads one piece that starts at the cursor. -/
def take (c : Cursor) : Piece → Except ScanError (Option Token) × Cursor
  | .token kind lexeme =>
    (.ok (some ⟨kind, String.ofList lexeme, c.offset⟩), c.advance (kind.raw lexeme))
  | .stray ch => (.error (.unexpectedCharacter ch c.offset c.line), c)
  | .unclosed => (.error (.unterminatedString c.offset c.line), c.advance c.rest)
  | .dotted run before =>
    (.error (.malformedNumber (String.ofList run) (c.offset + byteLength before) c.line),
      c.advance run)

/-- Reads the next token; `none` at the end of the text. -/
def next (c : Cursor) : Except ScanError (Option Token) × Cursor :=
  match c.skipBlanks.rest with
  | [] => (.ok none, c.skipBlanks)
  | ch :: rest => c.skipBlanks.take (piece ch rest)

theorem advance_rest (c : Cursor) (text : List Char) :
    (c.advance text).rest = c.rest.drop text.length := rfl

theorem skipBlanks_rest_le (c : Cursor) : c.skipBlanks.rest.length ≤ c.rest.length := by
  simp [skipBlanks, advance]

/-- A token takes at least one character off the rest. -/
theorem next_rest_lt {c c' : Cursor} {t : Token} (h : c.next = (.ok (some t), c')) :
    c'.rest.length < c.rest.length := by
  unfold next at h
  split at h
  · simp at h
  · rename_i ch rest hrest
    have hle := c.skipBlanks_rest_le
    unfold take at h
    split at h <;> simp only [Prod.mk.injEq, Except.ok.injEq, reduceCtorEq, false_and] at h
    rename_i kind lexeme hp
    have hne := List.length_pos_iff.2 (piece_token hp).2
    rw [← h.2, advance_rest, List.length_drop, hrest] at *
    simp only [List.length_cons] at *
    omega

/-- The tokens from the cursor on, put after those `seen` (latest first), and the fault that
stopped the reading. -/
def readAll (c : Cursor) (seen : List Token) : List Token × Option ScanError :=
  match _ : c.next with
  | (.ok (some token), c') => c'.readAll (token :: seen)
  | (.ok none, _) => (seen.reverse, none)
  | (.error fault, _) => (seen.reverse, some fault)
termination_by c.rest.length
decreasing_by exact next_rest_lt (by assumption)

theorem readAll_token {c c' : Cursor} {token : Token} (h : c.next = (.ok (some token), c'))
    (seen : List Token) : c.readAll seen = c'.readAll (token :: seen) := by
  rw [readAll]
  split <;> simp_all

theorem readAll_end {c c' : Cursor} (h : c.next = (.ok none, c')) (seen : List Token) :
    c.readAll seen = (seen.reverse, none) := by
  rw [readAll]
  split <;> simp_all

end Cursor

/-- What reading a whole source gives: the tokens, and the fault that cut them off. -/
structure Scan where
  tokens : List Token
  fault : Option ScanError
  deriving DecidableEq, Repr

def Scan.ofText (source : String) : Scan :=
  let (tokens, fault) := (Cursor.ofText source).readAll []
  ⟨tokens, fault⟩

namespace Scan

/-- The tokens, if nothing cut them off. -/
def result (s : Scan) : Except ScanError (List Token) :=
  match s.fault with
  | none => .ok s.tokens
  | some fault => .error fault

end Scan

/-- The tokens of a source without faults. -/
def scan (source : String) : Except ScanError (List Token) := (Scan.ofText source).result

end MarathiScript
