/-
  MarathiScript.Files — files, directories and the paths to them.

  An entry is a file with its bytes, a file that cannot be read, or a directory with named
  entries in no special order.
  `Entry.find` follows a path from a directory: a name goes down, `..` goes up, and `.` and
  an empty part stay, but they too may only follow a directory. `isTestPath` tells by the
  last name of a path whether a test is meant, and `Entry.tests` lists the tests at or below
  a path: the entries of a directory in the order of their names, a directory's tests in the
  place of the directory.
-/

namespace MarathiScript

/-- Why there is nothing to read at a path. -/
inductive PathError where
  | missing
  | denied
  | notDirectory
  | isDirectory
  /-- The bytes are no text in UTF-8. -/
  | notText
  deriving DecidableEq, Repr

inductive Entry where
  | file (bytes : ByteArray)
  | unreadable (e : PathError)
  | directory (entries : List (String × Entry))

def PathError.message : PathError → String
  | missing => "No such file or directory (os error 2)"
  | denied => "Permission denied (os error 13)"
  | notDirectory => "Not a directory (os error 20)"
  | isDirectory => "Is a directory (os error 21)"
  | notText => "stream did not contain valid UTF-8"

/-- The parts of a path between its slashes. -/
def pathParts (path : String) : List (List Char) := path.toList.splitOn '/'

/-- A name inside a directory. -/
def joinPath (path name : String) : String :=
  if path.toList.getLast? = some '/' then path ++ name else path ++ "/" ++ name

/-- The last name in a path, if the path does not end by going up. -/
def lastName? (path : String) : Option (List Char) :=
  ((pathParts path).filter fun part => part ≠ [] ∧ part ≠ ['.']).getLast?.bind fun part =>
    if part = ['.', '.'] then none else some part

/-- A test is a file of the language whose name starts with `test_`. -/
def isTestPath (path : String) : Bool :=
  (lastName? path).any fun name =>
    "test_".toList.isPrefixOf name && ".marathi".toList.isSuffixOf name

namespace Entry

/-- Goes one part of a path on from `here`, which lies below the directories `above`. -/
def go (above : List Entry) (here : Entry) (part : List Char) :
    Except PathError (List Entry × Entry) :=
  match here with
  | file _ | unreadable _ => .error .notDirectory
  | directory entries =>
    if part = [] ∨ part = ['.'] then .ok (above, here)
    else if part = ['.', '.'] then
      match above with
      | [] => .error .missing
      | up :: above => .ok (above, up)
    else
      match entries.find? fun entry => entry.1.toList == part with
      | some (_, entry) => .ok (here :: above, entry)
      | none => .error .missing

def goAll (above : List Entry) (here : Entry) : List (List Char) → Except PathError Entry
  | [] => .ok here
  | part :: parts =>
    match go above here part with
    | .ok (above, next) => goAll above next parts
    | .error e => .error e

/-- What a path from the directory `root` leads to. Nothing outside it can be reached. -/
def find (root : Entry) (path : String) : Except PathError Entry :=
  if path.toList.head? = some '/' then .error .missing else goAll [] root (pathParts path)

/-- The text of a file, with the number of its bytes. -/
def readText : Entry → Except PathError (String × Nat)
  | directory _ => .error .isDirectory
  | unreadable e => .error e
  | file bytes =>
    match String.fromUTF8? bytes with
    | some text => .ok (text, bytes.size)
    | none => .error .notText

end Entry

/-- The text at a path, given what the path leads to. -/
def readSubject (subject : Except PathError Entry) : Except PathError (String × Nat) :=
  match subject with
  | .ok entry => entry.readText
  | .error e => .error e

/-! ## Tests -/

/-- A test to be run: its path, and its text if it can be read. -/
structure TestFile where
  path : String
  text : Except PathError (String × Nat)

/-- The test that a path means, if it means one. -/
def testsAt (path : String) (text : Except PathError (String × Nat)) : List TestFile :=
  if isTestPath path then [⟨path, text⟩] else []

namespace Entry

mutual

/-- The tests at or below an entry. -/
def tests (path : String) : Entry → List TestFile
  | file bytes => testsAt path (readText (file bytes))
  | unreadable e => testsAt path (.error e)
  | directory entries =>
    ((testsBelow path entries).mergeSort fun a b => a.1 ≤ b.1).flatMap (·.2)

/-- The tests of each entry of a directory, with the entry's name. -/
def testsBelow (path : String) : List (String × Entry) → List (String × List TestFile)
  | [] => []
  | (name, entry) :: entries => (name, entry.tests (joinPath path name)) :: testsBelow path entries

end

end Entry

/-- The tests that a path leads to. A path that leads nowhere is tried if it names a test. -/
def subjectTests (path : String) : Except PathError Entry → List TestFile
  | .ok entry => entry.tests path
  | .error e => testsAt path (.error e)

end MarathiScript
