/-
  MarathiScript.Session.Fuel — what a run comes to does not depend on its fuel.

  A run that ended with some fuel ends in the same way with more (`exec_mono`). So what a
  block comes to from a session is one thing at most (`Ends.unique`), and a program either
  ends in exactly one way or runs for ever.
-/

import MarathiScript.Session.Execution

namespace MarathiScript

/-- The block, run from `s`, comes to an end: to `o`. -/
def Ends (limit : Nat) (block : Block) (s : Session) (o : Outcome Unit) : Prop :=
  ∃ fuel, exec limit fuel block s = some o

/-! ## Sequences of steps -/

theorem andThen_mono {α β : Type} {o : Outcome α} {f g : α → Session → Option (Outcome β)}
    {r : Outcome β} (hfg : ∀ a s r, f a s = some r → g a s = some r) (h : o.andThen f = some r) :
    o.andThen g = some r := by
  rcases o with ⟨_ | a, s⟩
  · exact h
  · exact hfg a s r h

theorem bind_andThen_mono {α β : Type} {p q : Option (Outcome α)}
    {f g : α → Session → Option (Outcome β)} {r : Outcome β}
    (hpq : ∀ o, p = some o → q = some o) (hfg : ∀ a s r, f a s = some r → g a s = some r)
    (h : (p.bind fun o => o.andThen f) = some r) : (q.bind fun o => o.andThen g) = some r := by
  obtain ⟨o, ho, h⟩ := Option.bind_eq_some_iff.1 h
  rw [hpq o ho]
  exact andThen_mono hfg h

/-! ## More fuel -/

theorem exec_succ {limit fuel : Nat} {block : Block} {s : Session} {o : Outcome Unit}
    (h : exec limit fuel block s = some o) : exec limit (fuel + 1) block s = some o := by
  induction fuel generalizing block s o with
  | zero => simp [exec] at h
  | succ n ih =>
    have more : ∀ b s o, exec limit n b s = some o → exec limit (n + 1) b s = some o :=
      fun _ _ _ => ih
    cases block with
    | nil => simpa [exec] using h
    | cons stmt rest =>
      rw [exec.eq_def] at h ⊢
      simp only at h ⊢
      split at h
      · exact andThen_mono (fun _ _ => more _ _) h
      · exact andThen_mono (fun _ _ => more _ _) h
      · exact andThen_mono (fun _ _ => more _ _) h
      · refine andThen_mono (fun holds s r h => ?_) h
        split at h
        · exact bind_andThen_mono (more _ _) (fun _ _ => more _ _) h
        · exact bind_andThen_mono (more _ _) (fun _ _ => more _ _) h
        · exact more _ _ _ h
      · refine andThen_mono (fun holds s r h => ?_) h
        split at h <;> rename_i hh <;> simp only [hh, if_true]
        · exact bind_andThen_mono (more _ _) (fun _ _ => more _ _) h
        · exact more _ _ _ h
      · exact bind_andThen_mono (more _ _) (fun _ _ => more _ _) h
      · refine andThen_mono (fun holds s r h => ?_) h
        split at h <;> rename_i hh <;> simp only [hh, if_true]
        · exact bind_andThen_mono (more _ _)
            (fun _ _ _ h => bind_andThen_mono (more _ _) (fun _ _ => more _ _) h) h
        · exact more _ _ _ h
      · exact more _ _ _ h
      · refine andThen_mono (fun call s r h => ?_) h
        obtain ⟨o, ho, h⟩ := Option.bind_eq_some_iff.1 h
        simp only [more _ _ _ ho, Option.bind_some]
        exact andThen_mono (fun _ _ => more _ _) h

theorem exec_mono {limit n m : Nat} (hnm : n ≤ m) {block : Block} {s : Session} {o : Outcome Unit}
    (h : exec limit n block s = some o) : exec limit m block s = some o := by
  induction hnm with
  | refl => exact h
  | step _ ih => exact exec_succ ih

/-- What stays the same with more fuel is the same with any. -/
theorem eq_of_mono {α : Type} (run : Nat → Option α)
    (hmono : ∀ n m a, n ≤ m → run n = some a → run m = some a) {n m : Nat} {a b : α}
    (hn : run n = some a) (hm : run m = some b) : a = b := by
  have hn := hmono n (max n m) a (Nat.le_max_left n m) hn
  have hm := hmono m (max n m) b (Nat.le_max_right n m) hm
  exact Option.some.inj (hn.symm.trans hm)

theorem Ends.unique {limit : Nat} {block : Block} {s : Session} {o o' : Outcome Unit}
    (h : Ends limit block s o) (h' : Ends limit block s o') : o = o' := by
  obtain ⟨n, hn⟩ := h
  obtain ⟨m, hm⟩ := h'
  exact eq_of_mono (fun fuel => exec limit fuel block s) (fun _ _ _ hle => exec_mono hle) hn hm

end MarathiScript
