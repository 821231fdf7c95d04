/-
  MarathiScript.CommandLine — what a command line may ask for.

  A command names the file or the place that it is about, and what it makes of it. Which words
  ask for which command is for a reader of words to say (see `MarathiScript.CommandLine.Words`).
-/

namespace MarathiScript

inductive Command where
  | run (file : String) (limit : Nat) (report : Bool)
  | tokens (file : String) (json : Bool)
  | tree (file : String) (json : Bool)
  | test (path : String)
  | version
  deriving DecidableEq, Repr

/-- The path that a command reads. -/
def Command.path? : Command → Option String
  | .run file _ _ | .tokens file _ | .tree file _ => some file
  | .test path => some path
  | .version => none

/-- A command with the number of times that more of the log is asked for. -/
structure Invocation where
  verbosity : Nat
  command : Command
  deriving DecidableEq, Repr

end MarathiScript
