/-
  MarathiScript.Proofs.Run.Termination — programs without loops end.

  Functions may call themselves and each other without end, and declare one another anew while
  they run; what ends them is the limit of calls. Two things go down. A call that is made uses
  up one of the calls still allowed, so its body is run with fewer of them
  (`Session.move_call_depth`). Any other statement that is no loop asks for less code than it
  stood for, with as many calls allowed as before (`Session.Goes.shorter`); and after a call the
  rest is less code too, and the frame of the call is gone. That no loop comes in on the way is
  `Ran.throughout`.

  Proved (`loopFree_ends`): from every session whose functions have no loops, a program without
  loops comes to an end, under any limit.
-/

import MarathiScript.Proofs.Run.Code

namespace MarathiScript

def Stmt.isLoop : Stmt → Bool
  | .whilst _ _ | .count _ _ _ _ => true
  | _ => false

/-- No statement of the block is a loop, at any depth and in no body of a function. -/
def LoopFree (block : Block) : Prop := Throughout (·.isLoop = false) block

instance (block : Block) : Decidable (LoopFree block) :=
  inferInstanceAs (Decidable (∀ stmt ∈ code block, stmt.isLoop = false))

/-- No function declared so far has a loop. -/
def Session.LoopFree (s : Session) : Prop := s.Throughout (·.isLoop = false)

section

variable {limit : Nat} {stmt : Stmt} {more body : Block} {s t : Session}

/-- A statement that is no loop and no call asks for part of the code inside of it. -/
theorem Session.Goes.shorter (h : s.Goes stmt more t) (hloop : stmt.isLoop = false) :
    (MarathiScript.code more).length ≤ stmt.inside.length := by
  cases h with
  | declare | assign | print | neither | define => simp
  | @consequence _ _ alternative => cases alternative <;> simp [Stmt.inside]
  | alternative => simp [Stmt.inside]
  | again | done | init | round | finish => cases hloop

end

/-- By the calls still allowed first, and then by the length of the code. -/
theorem exists_ran (limit : Nat) : (block : Block) → (s : Session) → LoopFree block → s.LoopFree →
    ∃ o, Ran limit block s o
  | [], s, _, _ => ⟨_, .nil s⟩
  | stmt :: rest, s, hblock, hs => by
    rcases hm : s.move limit stmt with ⟨e | more | body, t⟩
    case error => exact ⟨_, .fail hm⟩
    case ok.go =>
      obtain ⟨hmore, ht⟩ := Session.move_go_throughout hm hblock.head hs
      have hdepth := (Session.move_go hm).depth
      have hshorter := (Session.move_go hm).shorter hblock.first
      have hnext : LoopFree (more ++ rest) := throughout_append.2 ⟨hmore, hblock.tail⟩
      obtain ⟨o, hr⟩ := exists_ran limit (more ++ rest) t hnext ht
      exact ⟨o, .go hm hr⟩
    case ok.call =>
      obtain ⟨hbody, ht⟩ := Session.move_call_throughout hm hs
      obtain ⟨hallowed, hdepth⟩ := Session.move_call_depth hm
      obtain ⟨⟨e | _, u⟩, hb⟩ := exists_ran limit body t hbody ht
      · exact ⟨_, .callFail hm hb⟩
      · have hu : u.leave.LoopFree := hb.throughout hbody ht
        have henv : u.leave.environment = s.environment := hb.leave_environment hm
        obtain ⟨o, hr⟩ := exists_ran limit rest u.leave hblock.tail hu
        exact ⟨o, .call hm hb hr⟩
termination_by block s => (limit - s.environment.depth, (code block).length)
decreasing_by
  -- as many calls allowed, and less code
  · rw [hdepth]
    refine Prod.Lex.right _ ?_
    simp only [code_append, code_cons, List.length_append, List.length_cons]
    omega
  -- one call less
  · exact Prod.Lex.left _ _ (by omega)
  -- after the call as many as before it, and less code
  · rw [henv]
    refine Prod.Lex.right _ ?_
    simp only [code_cons, List.length_append, List.length_cons]
    omega

/-- A program without loops ends, well or with an error, whatever its functions call and declare. -/
theorem loopFree_ends (limit : Nat) (program : Block) (s : Session) (hprogram : LoopFree program)
    (hs : s.LoopFree) : ∃ o, Ends limit program s o := by
  obtain ⟨o, hran⟩ := exists_ran limit program s hprogram hs
  exact ⟨o, ends_iff_ran.2 hran⟩

/-- Two functions that call each other, the one declared before and declared anew in each call of
either: `f` of 40 takes more than 2 ^ 40 calls, and ends. -/
theorem loopFree_ends_doubling :
    let fewer : Expr := .chain (.name "n") [("-", .number "1")]
    let f : Function := ⟨["n"], [.define "f" ["n"] [.call "g" [.name "n"]],
      .branch ⟨"n", ">", "0"⟩ [.call "f" [fewer], .call "g" [fewer]] none]⟩
    let s : Session := ⟨.empty, ⟨[("f", f)]⟩, #[], #[]⟩
    let program : Block := [.define "g" ["n"] f.body, .call "f" [.number "40"]]
    ∃ o, Ends 100 program s o := by
  intro fewer f s program
  have hbody : LoopFree f.body := by decide
  have hprogram : LoopFree program := by decide
  have hs : s.LoopFree := by
    intro name g hg
    simp only [s, Table.get?, Table.lookup] at hg
    split at hg
    · cases hg; exact hbody
    · cases hg
  exact loopFree_ends 100 program s hprogram hs

end MarathiScript
