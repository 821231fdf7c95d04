/-
  MarathiScript.Environment — the variables of a run, in frames.

  The outermost frame holds the globals and is always there; a call puts a frame with its
  parameters on top and takes it off at its end. A name is looked up from the top frame
  outwards (`get?`); a variable is always set in the top frame (`set`). Popping with no call
  frame left changes nothing.
-/

import MarathiScript.Table
import MarathiScript.Value

namespace MarathiScript

abbrev Frame := Table Value

structure Environment where
  top : Frame
  /-- The frames below, the globals last. -/
  outer : List Frame
  deriving Repr

namespace Environment

def empty : Environment := ⟨.empty, []⟩

/-- The number of call frames. -/
def depth (env : Environment) : Nat := env.outer.length

def get? (env : Environment) (x : String) : Option Value :=
  (env.top :: env.outer).findSome? (·.get? x)

def set (env : Environment) (x : String) (v : Value) : Environment :=
  { env with top := env.top.insert x v }

def push (env : Environment) (frame : Frame) : Environment := ⟨frame, env.top :: env.outer⟩

def pop (env : Environment) : Environment :=
  match env.outer with
  | [] => env
  | frame :: frames => ⟨frame, frames⟩

theorem depth_pop (env : Environment) : env.pop.depth = env.depth - 1 := by
  unfold pop depth
  split <;> simp_all

theorem get?_eq (env : Environment) (x : String) :
    env.get? x = (env.top.get? x).or (env.outer.findSome? (·.get? x)) := by
  cases h : env.top.get? x <;> simp [get?, h]

theorem get?_set (env : Environment) (x y : String) (v : Value) :
    (env.set x v).get? y = if x = y then some v else env.get? y := by
  by_cases h : x = y <;> simp [get?_eq, set, Table.get?_insert, h]

theorem get?_push (env : Environment) (frame : Frame) (x : String) :
    (env.push frame).get? x = (frame.get? x).or (env.get? x) := by
  rw [get?_eq]; rfl

end Environment

end MarathiScript
