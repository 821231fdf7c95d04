/-
  MarathiScript.Script — from a source text to its printed lines.

  A source is scanned, its tokens are parsed, and the program is run in a session. Each of the
  three can fail, and the first failure is that of the script (`ScriptError`). `load` goes
  from the text to the program and tells what the log hears of it: a record for every token
  read and for every statement begun, also when a fault follows. `runSource` runs a source in
  a fresh session and answers with its lines.
-/

import MarathiScript.Token.Cursor
import MarathiScript.Program.Parse
import MarathiScript.Session.Execution

namespace MarathiScript

inductive ScriptError where
  | scan (e : ScanError)
  | parse (e : ParseError)
  | run (e : RunError)
  deriving Repr

def ScriptError.message : ScriptError → String
  | .scan e => "LexError: " ++ e.message
  | .parse e => "ParseError: " ++ e.message
  | .run e => e.kind ++ ": " ++ e.message

/-- How many calls may be in progress at a time, if nothing else is asked for. -/
def defaultCallLimit : Nat := 100

/-! ## Loading -/

def Scan.records (s : Scan) : List Record :=
  s.tokens.map fun t => ⟨.trace, .scanning, "token " ++ t.text⟩

def Reader.records (r : Reader) : List Record :=
  r.begun.reverse.map fun t => ⟨.trace, .parsing, "statement starting at " ++ t.text⟩

/-- The tokens of a source, with the records of reading them. -/
def loadTokens (source : String) : Except ScriptError (List Token) × List Record :=
  let read := Scan.ofText source
  (read.result.mapError .scan, read.records)

/-- The program that tokens spell, with the records of parsing it. -/
def loadProgram (tokens : List Token) : Except ScriptError Block × List Record :=
  let (result, reader) := (Reader.ofTokens tokens).program
  (result.mapError .parse, reader.records)

def load (source : String) : Except ScriptError Block × List Record :=
  match loadTokens source with
  | (.error e, records) => (.error e, records)
  | (.ok tokens, records) =>
    let (result, more) := loadProgram tokens
    (result, records ++ more)

/-! ## Running -/

namespace Session

def lines (s : Session) : List String := s.printed.toList

def records (s : Session) : List Record := s.log.toList.map Event.record

/-- All printed lines as one text. -/
def outputText (s : Session) : String := "\n".intercalate s.lines

/-- The printed lines under a heading. -/
def report (s : Session) : String :=
  "PROGRAM OUTPUT :" ++ String.join (s.lines.map fun line => "\n                 " ++ line)

end Session

/-- The lines that a program prints in a fresh session. -/
def runProgram (limit fuel : Nat) (program : Block) : Option (Except RunError (List String)) :=
  (exec limit fuel program .fresh).map fun o => o.result.map fun _ => o.session.lines

/-- The lines that a source prints in a fresh session. -/
def runSource (limit fuel : Nat) (source : String) : Option (Except ScriptError (List String)) :=
  match (load source).1 with
  | .error e => some (.error e)
  | .ok program => (runProgram limit fuel program).map (·.mapError .run)

end MarathiScript
