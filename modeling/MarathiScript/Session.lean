/-
  MarathiScript.Session — what a run changes, and its single steps.

  A session holds the variables, the functions declared so far, the printed lines and the
  events noted for the log; it lives on from one run to the next. Each step here is one thing
  that a statement does: bind a variable, print a value, declare a function, answer a
  condition, get ready for a call. A step that can fail gives an outcome: its result, and the
  session in which that leaves the run.

  Evaluating notes every chain that came to a value, the inner ones first
  (`Session.evaluate`); the value is that of `Expr.eval` (`evaluate_result`), and nothing
  but the log changes (`evaluate_session`). A call is refused for the first of four reasons:
  an unknown function, a wrong number of arguments, an argument without a value, too many
  calls in progress (`Session.prepare`).
-/

import MarathiScript.Evaluation
import MarathiScript.Log

namespace MarathiScript

/-- What a run tells the log. -/
inductive Event where
  | printed (text : String)
  | bound (name : String) (v : Value)
  | asked (condition : Condition) (v : Value)
  | choseConsequence
  | choseAlternative
  | defined (name : String) (parameters : List String)
  | called (name : String) (depth : Nat)
  /-- A chain with this number of operators has this value. -/
  | combined (operators : Nat) (v : Value)
  deriving Repr

namespace Event

def level : Event → Level
  | printed _ => .info
  | combined _ _ => .trace
  | _ => .debug

def message : Event → String
  | printed text => "output: " ++ text
  | bound name v => "bind " ++ name ++ " = " ++ v.text
  | asked c v =>
    "if condition: " ++ c.name ++ " (" ++ v.text ++ ") " ++ c.operator ++ " " ++ c.value
  | choseConsequence => "if: then branch"
  | choseAlternative => "if: else branch"
  | defined name parameters =>
    "declare function " ++ name ++ "(" ++ ", ".intercalate parameters ++ ")"
  | called name depth => "call " ++ name ++ " at depth " ++ toString depth
  | combined operators v => toString operators ++ " operator(s) => " ++ v.text

def record (e : Event) : Record := ⟨e.level, .running, e.message⟩

end Event

structure Function where
  parameters : List String
  body : Block
  deriving Repr

structure Session where
  environment : Environment
  functions : Table Function
  printed : Array String
  log : Array Event
  deriving Repr

/-- What a step or a run came to, and the session it leaves. -/
structure Outcome (α : Type) where
  result : Except RunError α
  session : Session
  deriving Repr

namespace Outcome

variable {α β : Type}

/-- Goes on after a success; a failure ends the run. -/
@[inline] def andThen (o : Outcome α) (next : α → Session → Option (Outcome β)) :
    Option (Outcome β) :=
  match o with
  | ⟨.ok a, s⟩ => next a s
  | ⟨.error e, s⟩ => some ⟨.error e, s⟩

@[simp] theorem andThen_ok (a : α) (s : Session) (next : α → Session → Option (Outcome β)) :
    (⟨.ok a, s⟩ : Outcome α).andThen next = next a s := rfl

@[simp] theorem andThen_error (e : RunError) (s : Session)
    (next : α → Session → Option (Outcome β)) :
    (⟨.error e, s⟩ : Outcome α).andThen next = some ⟨.error e, s⟩ := rfl

end Outcome

/-! ## Evaluating with the log -/

mutual

/-- The value of an expression, and the log with the chains noted that came to a value. -/
def Expr.noted (env : Environment) (log : Array Event) :
    Expr → Except RunError Value × Array Event
  | .chain first links =>
    match first.noted env log with
    | (.error e, log) => (.error e, log)
    | (.ok v, log) =>
      match notedLinks env log v links with
      | (.error e, log) => (.error e, log)
      | (.ok u, log) => (.ok u, log.push (.combined links.length u))
  | e => (e.eval env, log)

def notedLinks (env : Environment) (log : Array Event) (v : Value) :
    List (String × Expr) → Except RunError Value × Array Event
  | [] => (.ok v, log)
  | (operator, operand) :: links =>
    match operand.noted env log with
    | (.error e, log) => (.error e, log)
    | (.ok w, log) =>
      match v.combine operator w with
      | .error e => (.error e, log)
      | .ok u => notedLinks env log u links

end

def notedAll (env : Environment) (log : Array Event) :
    List Expr → Except RunError (List Value) × Array Event
  | [] => (.ok [], log)
  | e :: es =>
    match e.noted env log with
    | (.error err, log) => (.error err, log)
    | (.ok v, log) =>
      match notedAll env log es with
      | (.error err, log) => (.error err, log)
      | (.ok vs, log) => (.ok (v :: vs), log)

mutual

theorem Expr.noted_fst (env : Environment) (log : Array Event) :
    (e : Expr) → (e.noted env log).1 = e.eval env
  | .chain first links => by
    have hf := first.noted_fst env log
    rw [Expr.noted, Expr.eval, ← hf]
    rcases first.noted env log with ⟨_ | v, log⟩
    · rfl
    · have hl := notedLinks_fst env log v links
      simp only
      rw [← hl]
      rcases notedLinks env log v links with ⟨_ | u, log⟩ <;> rfl
  | .name _ | .number _ | .float _ | .string _ => rfl

theorem notedLinks_fst (env : Environment) (log : Array Event) (v : Value) :
    (links : List (String × Expr)) → (notedLinks env log v links).1 = evalLinks env v links
  | [] => rfl
  | (operator, operand) :: links => by
    have ho := operand.noted_fst env log
    rw [notedLinks, evalLinks, ← ho]
    rcases operand.noted env log with ⟨_ | w, log⟩
    · rfl
    · simp only
      rcases v.combine operator w with _ | u
      · rfl
      · exact notedLinks_fst env log u links

end

theorem notedAll_fst (env : Environment) (log : Array Event) (es : List Expr) :
    (notedAll env log es).1 = evalAll env es := by
  induction es generalizing log with
  | nil => rfl
  | cons e es ih =>
    have he := e.noted_fst env log
    rw [notedAll, evalAll, ← he]
    rcases e.noted env log with ⟨_ | v, log⟩
    · rfl
    · have := ih log
      simp only [bind, Except.bind]
      rw [← this]
      rcases notedAll env log es with ⟨_ | vs, log⟩ <;> rfl

namespace Session

def fresh : Session := ⟨.empty, .empty, #[], #[]⟩

def note (s : Session) (e : Event) : Session := { s with log := s.log.push e }

def evaluate (s : Session) (e : Expr) : Outcome Value :=
  let (result, log) := e.noted s.environment s.log
  ⟨result, { s with log := log }⟩

theorem evaluate_result (s : Session) (e : Expr) :
    (s.evaluate e).result = e.eval s.environment := e.noted_fst s.environment s.log

theorem evaluate_session (s : Session) (e : Expr) :
    (s.evaluate e).session = { s with log := (e.noted s.environment s.log).2 } := rfl

/-- Whether a loop goes on. -/
def test (s : Session) (e : Expr) : Outcome Bool :=
  match s.evaluate e with
  | ⟨.ok v, s⟩ => ⟨v.asBool, s⟩
  | ⟨.error err, s⟩ => ⟨.error err, s⟩

/-- Whether the condition of a branch holds; the value that it looks at is noted. -/
def ask (s : Session) (c : Condition) : Outcome Bool :=
  match s.environment.read c.name with
  | .error err => ⟨.error err, s⟩
  | .ok v => ⟨c.verdict v, s.note (.asked c v)⟩

def bind (s : Session) (name : String) (v : Value) : Session :=
  { s.note (.bound name v) with environment := s.environment.set name v }

def print (s : Session) (v : Value) : Session :=
  { s.note (.printed v.text) with printed := s.printed.push v.text }

def define (s : Session) (name : String) (f : Function) : Session :=
  { s.note (.defined name f.parameters) with functions := s.functions.insert name f }

/-! ## Calls -/

/-- The function to be called and its frame: parameters bound to arguments from left to right,
so of two parameters of one name the later counts. -/
def prepare (limit : Nat) (s : Session) (name : String) (arguments : List Expr) :
    Outcome (Function × Frame) :=
  match s.functions.get? name with
  | none => ⟨.error (.undefinedFunction name), s⟩
  | some f =>
    if arguments.length ≠ f.parameters.length then
      ⟨.error (.arity name f.parameters.length arguments.length), s⟩
    else
      match notedAll s.environment s.log arguments with
      | (.error err, log) => ⟨.error err, { s with log := log }⟩
      | (.ok values, log) =>
        if limit ≤ s.environment.depth then
          ⟨.error (.depthExceeded limit), { s with log := log }⟩
        else ⟨.ok (f, Table.ofList (f.parameters.zip values)), { s with log := log }⟩

def enter (s : Session) (name : String) (frame : Frame) : Session :=
  { s.note (.called name (s.environment.depth + 1)) with
    environment := s.environment.push frame }

def leave (s : Session) : Session := { s with environment := s.environment.pop }

end Session

end MarathiScript
