/-
  MarathiScript.Proofs.Run.Copies — frames as complete copies of the variables.

  A frame holds only what was set in it; all else is looked up further out. One can also keep, for
  each call, all that is visible in it. `Copies` is such a stack of lookups, at least one: a variable
  is set in the top one, a call puts a copy of the top one with its parameters on top, and the end of
  a call takes the top one off, unless it is the only one. Or the frames can be kept as a bare list
  (`bareFrames`). If that list came to be empty, what is set would be lost, and the number of calls,
  one less than the frames, would fall below zero.

  `Store` is what these three ways to keep variables have in common, and a `Use` is one thing that is
  done with them. If each operation can be seen through a view of one store as another, so can every
  sequence of uses, and the replies are the same (`Store.Shown.replies`). An environment is viewed as
  copies by looking up from each of its frames outwards: the copies below the top one have to be right
  too, since a call that ends uncovers them.

  Proved: a new environment replies to every sequence of uses as a single empty copy does, and its
  frames, kept as a bare list, never run out (`frames_answer_as_copies`).
-/

import MarathiScript.Proofs.Run.Lookup

namespace MarathiScript

/-- A way to keep variables. -/
structure Store (σ : Type) where
  set : σ → String → Value → σ
  push : σ → Frame → σ
  pop : σ → σ
  get? : σ → String → Option Value
  /-- The number of calls in progress. -/
  depth : σ → Nat

inductive Use where
  | set (x : String) (v : Value)
  | push (bindings : Frame)
  | pop
  | get (x : String)
  deriving Repr

/-- The value of the name that a use asks for, if it asks, and the number of calls after it. -/
abbrev Reply := Option (Option Value) × Nat

namespace Store

variable {σ τ : Type} {S : Store σ} {T : Store τ} {view : σ → τ}

def use (S : Store σ) (s : σ) : Use → σ
  | .set x v => S.set s x v
  | .push bindings => S.push s bindings
  | .pop => S.pop s
  | .get _ => s

def reply (S : Store σ) (s : σ) : Use → Reply
  | .get x => (some (S.get? s x), S.depth s)
  | _ => (none, S.depth s)

/-- Where the uses, one after the other, lead. -/
def run (S : Store σ) (s : σ) (uses : List Use) : σ := uses.foldl S.use s

def replies (S : Store σ) : σ → List Use → List Reply
  | _, [] => []
  | s, u :: uses => S.reply (S.use s u) u :: S.replies (S.use s u) uses

/-- Seen through `view`, the states of `S` behave as those of `T`. -/
structure Shown (S : Store σ) (T : Store τ) (view : σ → τ) : Prop where
  set : ∀ s x v, view (S.set s x v) = T.set (view s) x v
  push : ∀ s bindings, view (S.push s bindings) = T.push (view s) bindings
  pop : ∀ s, view (S.pop s) = T.pop (view s)
  get? : ∀ s x, S.get? s x = T.get? (view s) x
  depth : ∀ s, S.depth s = T.depth (view s)

theorem Shown.use (h : Shown S T view) (s : σ) (u : Use) : view (S.use s u) = T.use (view s) u := by
  cases u with
  | set x v => exact h.set s x v
  | push bindings => exact h.push s bindings
  | pop => exact h.pop s
  | get x => rfl

theorem Shown.reply (h : Shown S T view) (s : σ) (u : Use) : S.reply s u = T.reply (view s) u := by
  cases u <;> simp only [Store.reply, h.get?, h.depth]

theorem Shown.run (h : Shown S T view) (s : σ) (uses : List Use) :
    view (S.run s uses) = T.run (view s) uses := by
  induction uses generalizing s with
  | nil => rfl
  | cons u uses ih =>
    show view (S.run (S.use s u) uses) = T.run (T.use (view s) u) uses
    rw [ih, h.use]

theorem Shown.replies (h : Shown S T view) (s : σ) (uses : List Use) :
    S.replies s uses = T.replies (view s) uses := by
  induction uses generalizing s with
  | nil => rfl
  | cons u uses ih => rw [Store.replies, Store.replies, ih, h.reply, h.use]

end Store

/-! ## Complete copies -/

structure Copies where
  top : Lookup
  below : List Lookup

namespace Copies

/-- One copy, with no variable in it. -/
def single : Copies := ⟨fun _ => none, []⟩

def height (c : Copies) : Nat := c.below.length + 1

def set (c : Copies) (x : String) (v : Value) : Copies :=
  { c with top := fun y => if x = y then some v else c.top y }

def push (c : Copies) (bindings : Frame) : Copies :=
  ⟨fun x => (bindings.get? x).or (c.top x), c.top :: c.below⟩

def pop (c : Copies) : Copies :=
  match c.below with
  | [] => c
  | top :: below => ⟨top, below⟩

def store : Store Copies where
  set := set
  push := push
  pop := pop
  get? c x := c.top x
  depth c := c.height - 1

end Copies

/-! ## Frames -/

/-- Frames in a bare list, the top one first. -/
def bareFrames : Store (List Frame) where
  set
    | [], _, _ => []
    | frame :: frames, x, v => frame.insert x v :: frames
  push frames bindings := bindings :: frames
  pop frames := if 1 < frames.length then frames.tail else frames
  get? frames x := frames.findSome? (·.get? x)
  depth frames := frames.length - 1

namespace Environment

def store : Store Environment where
  set := set
  push := push
  pop := pop
  get? := get?
  depth := depth

def frames (env : Environment) : List Frame := env.top :: env.outer

/-- What is visible from each of the frames. -/
def views : List Frame → List Lookup
  | [] => []
  | frame :: frames => (Environment.mk frame frames).get? :: views frames

def copies (env : Environment) : Copies := ⟨env.get?, views env.outer⟩

theorem length_views (frames : List Frame) : (views frames).length = frames.length := by
  induction frames with
  | nil => rfl
  | cons frame frames ih => rw [views, List.length_cons, List.length_cons, ih]

theorem shown_frames : store.Shown bareFrames frames where
  set _ _ _ := rfl
  push _ _ := rfl
  pop env := by
    rcases env with ⟨top, _ | ⟨frame, outer⟩⟩
    · rfl
    · simp [store, bareFrames, frames, pop]
  get? _ _ := rfl
  depth _ := rfl

theorem shown_copies : store.Shown Copies.store copies where
  set env x v := by
    have htop : (env.set x v).get? = fun y => if x = y then some v else env.get? y :=
      funext fun y => env.get?_set x y v
    show Copies.mk (env.set x v).get? _ = _
    rw [htop]
    rfl
  push env bindings := by
    have htop : (env.push bindings).get? = fun x => (bindings.get? x).or (env.get? x) :=
      funext fun x => env.get?_push bindings x
    show Copies.mk (env.push bindings).get? _ = _
    rw [htop]
    rfl
  pop env := by
    rcases env with ⟨top, _ | ⟨frame, outer⟩⟩
    · rfl
    · rfl
  get? _ _ := rfl
  depth env := (length_views env.outer).symm

end Environment

/-- To whatever is done with them, frames reply as complete copies do. There is always a frame, even
if more are dropped than were put on, so what is set is not lost. -/
theorem frames_answer_as_copies (uses : List Use) :
    Environment.store.replies .empty uses = Copies.store.replies .single uses ∧
      (∀ x, (Environment.store.run .empty uses).get? x = (Copies.store.run .single uses).top x) ∧
      (Environment.store.run .empty uses).depth = (Copies.store.run .single uses).height - 1 ∧
      bareFrames.replies [.empty] uses = Environment.store.replies .empty uses ∧
      bareFrames.run [.empty] uses ≠ [] ∧
      (Environment.store.run .empty uses).depth + 1 = (bareFrames.run [.empty] uses).length ∧
      ∀ x v, bareFrames.get? (bareFrames.set (bareFrames.run [.empty] uses) x v) x = some v := by
  have hcopies : (Environment.store.run .empty uses).copies = Copies.store.run .single uses :=
    Environment.shown_copies.run .empty uses
  have hbare : (Environment.store.run .empty uses).frames = bareFrames.run [.empty] uses :=
    Environment.shown_frames.run .empty uses
  refine ⟨Environment.shown_copies.replies .empty uses, fun x => ?_, ?_,
    (Environment.shown_frames.replies .empty uses).symm, ?_⟩
  · rw [← hcopies]
    exact Environment.shown_copies.get? _ x
  · rw [← hcopies]
    exact Environment.shown_copies.depth _
  · rw [← hbare]
    refine ⟨nofun, rfl, fun x v => ?_⟩
    rw [← Environment.shown_frames.set, ← Environment.shown_frames.get?]
    exact (Environment.get?_set _ x x v).trans (if_pos rfl)

/-- A call that sets a variable of its caller, after a drop with no call in progress. -/
example : Environment.store.replies .empty [.pop, .set "x" (.int 1), .push ⟨[("y", .int 2)]⟩,
      .set "x" (.int 3), .get "x", .pop, .get "x", .get "y"] =
    [(none, 0), (none, 0), (none, 1), (none, 1), (some (some (.int 3)), 1), (none, 0),
      (some (some (.int 1)), 0), (some none, 0)] := rfl

end MarathiScript
