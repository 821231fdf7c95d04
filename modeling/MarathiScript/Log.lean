/-
  MarathiScript.Log — the records that the stages leave while they work.

  A record has a level, the stage it comes from and a message. It is shown as a header, the
  level and the stage's target in brackets, and the message after it. How wide the level is
  and how far in a message goes on after a line break is for the layout to say
  (`LogLayout`). A listener asks for a level and gets the records of that level and of the
  more severe ones (`Level.admits`).
-/

namespace MarathiScript

/-- Levels from the most severe to the least. -/
inductive Level where
  | info
  | debug
  | trace
  deriving DecidableEq, Repr, Inhabited

def Level.name : Level → String
  | .info => "INFO"
  | .debug => "DEBUG"
  | .trace => "TRACE"

def Level.rank : Level → Nat
  | .info => 0
  | .debug => 1
  | .trace => 2

/-- A listener at level `l` hears a record of level `m`. -/
def Level.admits (l m : Level) : Bool := m.rank ≤ l.rank

/-- The part of the program that a record comes from. -/
inductive Stage where
  | scanning
  | parsing
  | running
  | tool
  deriving DecidableEq, Repr

def Stage.target : Stage → String
  | .scanning => "marathi_language::lexer"
  | .parsing => "marathi_language::parser"
  | .running => "marathi_interp::interpreter"
  | .tool => "marathi"

structure Record where
  level : Level
  stage : Stage
  message : String
  deriving DecidableEq, Repr

structure LogLayout where
  /-- The columns that the name of a level is filled up to. -/
  levelWidth : Nat
  /-- The blanks before every line of a message but its first. -/
  margin : Nat
  deriving DecidableEq, Repr

/-- A text with `margin` blanks after every line break. -/
def hanging (margin : Nat) (text : String) : String :=
  String.ofList <| text.toList.flatMap fun c =>
    if c = '\n' then '\n' :: List.replicate margin ' ' else [c]

def Record.lineIn (layout : LogLayout) (r : Record) : String :=
  "[" ++ r.level.name.pushn ' ' (layout.levelWidth - r.level.name.length) ++ " " ++
    r.stage.target ++ "] " ++ hanging layout.margin r.message

/-- The records that a listener hears, in order. -/
def Level.heard (l : Level) (records : List Record) : List Record :=
  records.filter fun r => l.admits r.level

end MarathiScript
