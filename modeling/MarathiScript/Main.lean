/-
  MarathiScript.Main — the program `marathi`.

  It reads what the command's path leads to, and writes the response to it.
-/

import MarathiScript.CommandLine.Words

namespace MarathiScript

/-- Fuel for a run: more than any machine will use up. -/
def endless : Nat := 0x4000000000000000

def pathErrorOf : IO.Error → PathError
  | .permissionDenied .. => .denied
  | .inappropriateType .. => .notDirectory
  | _ => .missing

/-- Whether a path leads to a directory. -/
def leadsToDirectory (path : String) : IO Bool := do
  try (← IO.FS.realPath path).isDir catch _ => pure false

/-- What a path leads to; a directory is read with all that is below it if `deep`. -/
partial def entryAt (deep : Bool) (path : String) : IO (Except PathError Entry) := do
  if ← leadsToDirectory path then
    let mut entries := []
    if deep then
      for item in ← (← IO.FS.realPath path).readDir do
        let entry ← match ← entryAt deep (joinPath path item.fileName) with
          | .ok entry => pure entry
          | .error e => pure (.unreadable e)
        entries := (item.fileName, entry) :: entries
    return .ok (.directory entries)
  try
    return .ok (.file (← IO.FS.readBinFile path))
  catch e =>
    return .error (pathErrorOf e)

def subjectOf (i : Invocation) : IO (Except PathError Entry) :=
  match i.command with
  | .test path => entryAt true path
  | .run path _ _ | .tokens path _ | .tree path _ => entryAt false path
  | .version => pure (.error .missing)

/-- A time in its greatest unit that makes a whole, with two decimals. -/
def elapsedText (nanoseconds : Nat) : String :=
  let (size, unit) :=
    if 1000000000 ≤ nanoseconds then (1000000000, "s")
    else if 1000000 ≤ nanoseconds then (1000000, "ms")
    else if 1000 ≤ nanoseconds then (1000, "µs")
    else (1, "ns")
  let hundredths := Decimal.roundHalfEven (100 * nanoseconds) size
  let decimals := toString (hundredths % 100)
  toString (hundredths / 100) ++ "." ++ "".pushn '0' (2 - decimals.length) ++ decimals ++ unit

def respondTo (i : Invocation) : IO Response := do
  let start ← IO.monoNanosNow
  match i.respond endless (← subjectOf i) with
  | some answer => do
    let now ← IO.monoNanosNow
    pure (answer (elapsedText (now - start)))
  | none => pure ⟨1, "", "Error: out of fuel\n"⟩

end MarathiScript

open MarathiScript in
def main (args : List String) : IO UInt32 := do
  let response ← match Invocation.ofWords args with
    | .ok i => respondTo i
    | .error r => pure r
  (← IO.getStdout).putStr response.out
  (← IO.getStderr).putStr response.err
  return UInt32.ofNat response.code
