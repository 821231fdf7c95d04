/-
  MarathiScript.CommandLine.Words — a reader of the words of a command line.

  The first word that is no option names the command. Options may stand anywhere; `-v` and
  `--verbose` belong to every command and count, each other option is for the commands that
  know it and is given once. After `--` every word is a path. A command takes at most one
  path, which is not empty; there are no abbreviations. An option `-v` after the command makes
  those before it void.

  Words are read from the left, and the first that asks for help or makes no sense ends the
  reading with an answer of the reader: `-h` and `--help` ask for help wherever an option may
  stand, and the command `help` does, alone or before the name of a command. The exit code is 0
  for help and 2 for words that make no sense. What the tool does with an invocation does not
  depend on this reader (see `WordReader`).
-/

import MarathiScript.CommandLine.Response

namespace MarathiScript

/-- How the tool is used. -/
def usage : String := "usage: marathi [-v] run|tokens|ast|test|version [PATH]\n"

/-- The answer to words that ask for help. -/
def Response.help : Response := ⟨0, usage, ""⟩

/-- The answer to words that make no command. -/
def Response.notUnderstood : Response := ⟨2, "", usage⟩

inductive Verb where
  | run
  | tokens
  | tree
  | test
  | version
  deriving DecidableEq, Repr

/-- The options that only some commands know. -/
inductive Flag where
  | limit
  | report
  | json
  deriving DecidableEq, Repr

namespace Verb

def ofWord? : String → Option Verb
  | "run" => some run
  | "tokens" => some tokens
  | "ast" => some tree
  | "test" => some test
  | "version" => some version
  | _ => none

def knows : Verb → Flag → Bool
  | run, .limit | run, .report | tokens, .json | tree, .json => true
  | _, _ => false

def takesPath (v : Verb) : Bool := v != version

end Verb

/-- The file that is read where none is named. -/
def defaultFile : String := "test.marathi"

/-- Where tests are looked for where no place is named. -/
def defaultTestPath : String := "."

/-- What the words after a command have said so far. -/
structure Given where
  verbosity : Nat
  path : Option String
  limit : Option Nat
  report : Bool
  json : Bool
  deriving DecidableEq, Repr

namespace Given

def nothing : Given := ⟨0, none, none, false, false⟩

def withPath (g : Given) (v : Verb) (word : String) : Except Response Given :=
  if v.takesPath ∧ g.path = none ∧ word ≠ "" then .ok { g with path := some word }
  else .error .notUnderstood

/-- A call limit is a number of 64 bits, which may have a plus. -/
def limitOf? (word : String) : Option Nat :=
  let digits := match word.toList with
    | '+' :: digits => digits
    | digits => digits
  if digits ≠ [] ∧ digits.all Char.isDigit ∧ Decimal.ofDigits digits ≤ 0xffffffffffffffff then
    some (Decimal.ofDigits digits)
  else none

def withLimit (g : Given) (v : Verb) (word : String) : Except Response Given :=
  match limitOf? word with
  | some n =>
    if v.knows .limit ∧ g.limit = none then .ok { g with limit := some n }
    else .error .notUnderstood
  | none => .error .notUnderstood

def withReport (g : Given) (v : Verb) : Except Response Given :=
  if v.knows .report ∧ g.report = false then .ok { g with report := true }
  else .error .notUnderstood

def withJson (g : Given) (v : Verb) : Except Response Given :=
  if v.knows .json ∧ g.json = false then .ok { g with json := true } else .error .notUnderstood

def louder (g : Given) (times : Nat) : Given := { g with verbosity := g.verbosity + times }

end Given

/-- How often the letters of a word such as `-vv` ask for more of the log. -/
def loudnessOf : List Char → Except Response Nat
  | [] => .ok 0
  | 'v' :: letters => (loudnessOf letters).map (· + 1)
  | 'h' :: _ => .error .help
  | _ => .error .notUnderstood

/-- How often a word asks for more of the log, if it is an option of every command. -/
def loudness? (word : String) : Option (Except Response Nat) :=
  match word with
  | "--verbose" => some (.ok 1)
  | "--help" => some (.error .help)
  | _ =>
    match word.toList with
    | '-' :: '-' :: _ => none
    | '-' :: letter :: letters => some (loudnessOf (letter :: letters))
    | _ => none

/-- The value in a word such as `--name=value`. -/
def valueIn? (name word : String) : Option String :=
  let opening := (name ++ "=").toList
  if opening.isPrefixOf word.toList then some (String.ofList (word.toList.drop opening.length))
  else none

def isOption (word : String) : Bool :=
  match word.toList with
  | '-' :: _ :: _ => true
  | _ => false

/-- Reads words that are all paths. -/
def readPaths (v : Verb) : List String → Given → Except Response Given
  | [], g => .ok g
  | word :: words, g => (g.withPath v word).bind (readPaths v words)

/-- Reads the words after a command. -/
def readWords (v : Verb) : List String → Given → Except Response Given
  | [], g => .ok g
  | "--" :: words, g => readPaths v words g
  | "--report" :: words, g => (g.withReport v).bind (readWords v words)
  | "--json" :: words, g => (g.withJson v).bind (readWords v words)
  | "--max-call-depth" :: value :: words, g => (g.withLimit v value).bind (readWords v words)
  | word :: words, g =>
    match loudness? word, valueIn? "--max-call-depth" word with
    | some times, _ => times.bind fun n => readWords v words (g.louder n)
    | none, some value => (g.withLimit v value).bind (readWords v words)
    | none, none =>
      if isOption word then .error .notUnderstood
      else (g.withPath v word).bind (readWords v words)

/-- Help may be asked for on one command, which `help` is too. -/
def helpOn : List String → Response
  | [] => .help
  | [word] => if (Verb.ofWord? word).isSome ∨ word = "help" then .help else .notUnderstood
  | _ => .notUnderstood

namespace Invocation

def commandOf (v : Verb) (g : Given) : Command :=
  let file := g.path.getD defaultFile
  match v with
  | .run => .run file (g.limit.getD defaultCallLimit) g.report
  | .tokens => .tokens file g.json
  | .tree => .tree file g.json
  | .test => .test (g.path.getD defaultTestPath)
  | .version => .version

/-- Reads a command line whose words before these asked `before` times for more of the log. -/
def ofWordsAfter (before : Nat) : List String → Except Response Invocation
  | [] => .error .notUnderstood
  | "help" :: words => .error (helpOn words)
  | word :: words =>
    match loudness? word, Verb.ofWord? word with
    | some times, _ => times.bind fun n => ofWordsAfter (before + n) words
    | none, some v =>
      (readWords v words .nothing).map fun g =>
        ⟨if g.verbosity = 0 then before else g.verbosity, commandOf v g⟩
    | none, none => .error .notUnderstood

def ofWords : WordReader := ofWordsAfter 0

end Invocation

end MarathiScript
