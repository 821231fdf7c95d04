/-
  MarathiScript.CommandLine.Response — what a command writes, and its exit code.

  A command is given what its path leads to and answers with the text of both outputs and an
  exit code: 0 for success, 1 for a failure. A failure is told on the error output after the
  log. `run` writes the printed lines, also those before an error; `tokens` and `ast` write
  dumps; `test` runs every test that it finds, tells of each whether it ran without an error,
  counts, and tells how long it took.

  Two things come from outside. Which words ask for which command is for the reader of words
  (`WordReader`), which answers itself where they ask for none. The time that `test` took is
  known only when it has ended, so a command answers for each text of that time.
-/

import MarathiScript.CommandLine
import MarathiScript.Files
import MarathiScript.Program.Outline
import MarathiScript.Script

namespace MarathiScript

structure Response where
  code : Nat
  out : String
  err : String
  deriving DecidableEq, Repr

/-- How the words of a command line are read: as an invocation, or as words that are answered
without one. -/
abbrev WordReader := List String → Except Response Invocation

/-- Lines, each with its end. -/
def unlines (lines : List String) : String := String.join (lines.map (· ++ "\n"))

@[simp] theorem unlines_nil : unlines [] = "" := rfl

@[simp] theorem unlines_cons (line : String) (lines : List String) :
    unlines (line :: lines) = line ++ "\n" ++ unlines lines := by
  rw [unlines, List.map_cons, String.join_cons]
  rfl

theorem unlines_append (lines more : List String) :
    unlines (lines ++ more) = unlines lines ++ unlines more := by
  rw [unlines, List.map_append, String.join_append]
  rfl

theorem unlines_flatMap {α : Type} (xs : List α) (f : α → List String) :
    unlines (xs.flatMap f) = String.join (xs.map fun x => unlines (f x)) := by
  induction xs with
  | nil => rfl
  | cons x xs ih => rw [List.flatMap_cons, unlines_append, ih, List.map_cons, String.join_cons]

/-- Who listens to the log at a verbosity. -/
def listener : Nat → Option Level
  | 0 => none
  | 1 => some .debug
  | _ => some .trace

/-- On the error output level names are five columns wide, and a message goes on four columns in
after a line break. -/
def errorLayout : LogLayout := ⟨5, 4⟩

/-- The log on the error output. -/
def logText (verbosity : Nat) (records : List Record) : String :=
  match listener verbosity with
  | none => ""
  | some level => unlines ((level.heard records).map (Record.lineIn errorLayout))

/-- What a command came to: its output, the records on the way, and its failure. -/
structure Finding where
  out : String
  records : List Record
  failure : Option String
  deriving DecidableEq, Repr

def Finding.response (verbosity : Nat) (f : Finding) : Response :=
  let log := logText verbosity f.records
  match f.failure with
  | none => ⟨0, f.out, log⟩
  | some message => ⟨1, f.out, log ++ "Error: " ++ message ++ "\n"⟩

def readingFailure (path : String) (e : PathError) : String :=
  "Error reading " ++ path ++ ": " ++ e.message

def readRecord (path : String) (size : Nat) : Record :=
  ⟨.debug, .tool, "read " ++ toString size ++ " bytes from " ++ path⟩

/-! ## Commands on one file -/

/-- Goes on with the text of a file. -/
def withText (path : String) (subject : Except PathError Entry)
    (next : String → Option Finding) : Option Finding :=
  match readSubject subject with
  | .error e => some ⟨"", [], some (readingFailure path e)⟩
  | .ok (text, size) =>
    (next text).map fun f => { f with records := readRecord path size :: f.records }

def runFinding (fuel limit : Nat) (report : Bool) (source : String) : Option Finding :=
  match load source with
  | (.error e, records) => some ⟨"", records, some e.message⟩
  | (.ok program, records) =>
    (exec limit fuel program .fresh).map fun o =>
      let out := if report then o.session.report ++ "\n" else unlines o.session.lines
      let failure := match o.result with
        | .ok _ => none
        | .error e => some (ScriptError.run e).message
      ⟨out, records ++ o.session.records, failure⟩

def tokensFinding (json : Bool) (source : String) : Finding :=
  match loadTokens source with
  | (.error e, records) => ⟨"", records, some e.message⟩
  | (.ok tokens, records) =>
    let out :=
      if json then (Text.Json.list (tokens.map Token.json)).pretty ++ "\n"
      else unlines ("Tokens:" :: tokens.map Token.text)
    ⟨out, records, none⟩

def treeFinding (json : Bool) (source : String) : Finding :=
  match load source with
  | (.error e, records) => ⟨"", records, some e.message⟩
  | (.ok program, records) =>
    let outline := blockOutline program
    let out := if json then outline.json.pretty ++ "\n" else "AST:\n" ++ outline.indented ++ "\n"
    ⟨out, records, none⟩

/-! ## Tests -/

/-- The records of running a source, and why it failed. -/
def sourceFinding (fuel : Nat) (source : String) : Option (List Record × Option String) :=
  (runFinding fuel defaultCallLimit false source).map fun f => (f.records, f.failure)

/-- Runs a test; its failure is `none` if it ran without an error. -/
def TestFile.run (fuel : Nat) (t : TestFile) : Option (List Record × Option String) :=
  match t.text with
  | .error e => some ([], some (readingFailure t.path e))
  | .ok (text, size) =>
    (sourceFinding fuel text).map fun (records, failure) =>
      (readRecord t.path size :: records, failure)

/-- Runs tests one after the other; each keeps its own verdict. -/
def runTests (fuel : Nat) : List TestFile →
    Option (List (TestFile × List Record × Option String))
  | [] => some []
  | t :: ts => do
    let verdict ← t.run fuel
    let verdicts ← runTests fuel ts
    pure ((t, verdict) :: verdicts)

def testLines : TestFile × List Record × Option String → List String
  | (t, _, none) => ["Running " ++ t.path ++ " ... OK"]
  | (t, _, some message) => ["Running " ++ t.path ++ " ... FAILED", "  Error: " ++ message]

/-- The answer of `test`, for each text of the time that it took. -/
def testResponse (fuel verbosity : Nat) (path : String) (subject : Except PathError Entry) :
    Option (String → Response) :=
  (runTests fuel (subjectTests path subject)).map fun verdicts elapsed =>
    let passed := verdicts.countP fun verdict => verdict.2.2.isNone
    let failed := verdicts.countP fun verdict => verdict.2.2.isSome
    { code := if failed = 0 then 0 else 1
      out := unlines (verdicts.flatMap testLines ++
        ["", "Test Summary:", "  Passed: " ++ toString passed, "  Failed: " ++ toString failed,
          "  Time:   " ++ elapsed])
      err := logText verbosity (verdicts.flatMap (·.2.1)) }

/-! ## All commands -/

/-- The answer to an invocation whose path leads to `subject`, for each text of the time that it
took; `none` if a program ran out of fuel. -/
def Invocation.respond (fuel : Nat) (i : Invocation) (subject : Except PathError Entry) :
    Option (String → Response) :=
  match i.command with
  | .run file limit report =>
    (withText file subject (runFinding fuel limit report)).map fun f _ => f.response i.verbosity
  | .tokens file json =>
    (withText file subject fun text => some (tokensFinding json text)).map fun f _ =>
      f.response i.verbosity
  | .tree file json =>
    (withText file subject fun text => some (treeFinding json text)).map fun f _ =>
      f.response i.verbosity
  | .test path => testResponse fuel i.verbosity path subject
  | .version => some fun _ => ⟨0, "marathi v0.1.0\n", ""⟩

/-- The answer to the words of a command line in a directory, for each text of the time that it
took. -/
def respondIn (read : WordReader) (fuel : Nat) (root : Entry) (words : List String) :
    Option (String → Response) :=
  match read words with
  | .error r => some fun _ => r
  | .ok i => i.respond fuel (root.find (i.command.path?.getD "."))

end MarathiScript
