/-
  MarathiScript.Proofs.Syntax.Reads — parsers that look one token ahead, as grammars.

  `Reads n p Spells stop` says all that a caller needs of a parser `p`: which tokens spell which
  results, and before which next token a sentence is over.
  (1) What `p` accepts is a sentence, and so is some continuation of what it read before an
      error; at the end of the tokens a continuation that adds something.
  (2) An error names the token at which `p` stands.
  (3) How `p` ends depends only on the tokens it has read and the one after them (`Settled`).
  (4) A sentence of at most `n` tokens is read where `stop` allows the token after it. The
      bound is for loops that carry one; every other parser has `Reads n` for all `n`.

  The rules follow the ways to build a parser: `take`, `pure`, `bind`, a choice by the next
  token (`Reads.ite`), and a loop whose bound is the tokens ahead (`Reads.of_bound`).
-/

import MarathiScript.Program.Reader

namespace MarathiScript

/-- The token that an error names; at the end of the tokens there is none. -/
def ParseError.found? : ParseError → Option Token
  | .expected _ t | .unexpected t => some t
  | .endOfInput _ => none

namespace Wanted

theorem found?_refusal (w : Wanted) (t : Token) : (w.refusal t).found? = some t := by
  cases w <;> rfl

theorem exists_admits (w : Wanted) : ∃ t, w.admits t = true := by
  cases w with
  | kind k => exact ⟨⟨k, "", 0⟩, by simp [admits]⟩
  | equals => exact ⟨⟨.operator, "=", 0⟩, rfl⟩
  | literal => exact ⟨⟨.number, "", 0⟩, rfl⟩
  | operand => exact ⟨⟨.number, "", 0⟩, rfl⟩
  | statement => exact ⟨⟨.print, "", 0⟩, rfl⟩

end Wanted

namespace Parse

variable {α β κ : Type}

/-- How a parser ends, and the tokens that it leaves. -/
def outcome (p : Parse α) (r : Reader) : Except ParseError α × List Token :=
  match p r with
  | .ok a r' => (.ok a, r'.ahead)
  | .error e r' => (.error e, r'.ahead)

/-- On all tokens that start with `used` and go on with `next`, the parser ends with `result`
right after `used`. -/
def Settled (p : Parse α) (used : List Token) (next : Option Token)
    (result : Except ParseError α) : Prop :=
  ∀ r rest, r.ahead = used ++ rest → rest.head? = next → p.outcome r = (result, rest)

structure Reads (n : Nat) (p : Parse α) (Spells : α → List Token → Prop)
    (stop : Option Token → Prop) : Prop where
  accepts : ∀ {r a rest}, p.outcome r = (.ok a, rest) →
    ∃ used, r.ahead = used ++ rest ∧ Spells a used ∧ p.Settled used rest.head? (.ok a)
  refuses : ∀ {r e rest}, p.outcome r = (.error e, rest) →
    ∃ used, r.ahead = used ++ rest ∧ e.found? = rest.head? ∧
      p.Settled used rest.head? (.error e) ∧
      ∃ a more, Spells a (used ++ more) ∧ (rest = [] → more ≠ [])
  spelled : ∃ a used, Spells a used
  completes : ∀ {a used rest r}, Spells a used → used.length ≤ n → stop rest.head? →
    r.ahead = used ++ rest → p.outcome r = (.ok a, rest)

/-! ## Steps -/

theorem outcome_bind (p : Parse α) (f : α → Parse β) (r : Reader) :
    (p >>= f).outcome r = match p r with
      | .ok a r' => (f a).outcome r'
      | .error e r' => (.error e, r'.ahead) := by
  rw [outcome, bind_run]
  cases p r <;> rfl

/-- A sequence fails in its first part, or ends as its second part does. -/
theorem outcome_bind_cases {p : Parse α} {f : α → Parse β} {r : Reader}
    {result : Except ParseError β} {rest : List Token} (h : (p >>= f).outcome r = (result, rest)) :
    (∃ e, p.outcome r = (.error e, rest) ∧ result = .error e) ∨
      ∃ a r', p r = .ok a r' ∧ p.outcome r = (.ok a, r'.ahead) ∧
        (f a).outcome r' = (result, rest) := by
  rw [outcome_bind] at h
  rcases hp : p r with ⟨a, r'⟩ | ⟨e, r'⟩ <;> rw [hp] at h
  · exact .inr ⟨a, r', rfl, by rw [outcome, hp], h⟩
  · cases h
    exact .inl ⟨e, by rw [outcome, hp], rfl⟩

theorem outcome_bind_ok {p : Parse α} {f : α → Parse β} {r : Reader} {a : α} {rest : List Token}
    {x : Except ParseError β × List Token} (hp : p.outcome r = (.ok a, rest))
    (hf : ∀ r', r'.ahead = rest → (f a).outcome r' = x) : (p >>= f).outcome r = x := by
  rw [outcome] at hp
  rw [outcome_bind]
  rcases hr : p r with ⟨b, r'⟩ | ⟨e, r'⟩ <;> rw [hr] at hp <;>
    simp only [Prod.mk.injEq, Except.ok.injEq, reduceCtorEq, false_and] at hp
  obtain ⟨rfl, hrest⟩ := hp
  exact hf r' hrest

theorem outcome_bind_error {p : Parse α} {f : α → Parse β} {r : Reader} {e : ParseError}
    {rest : List Token} (hp : p.outcome r = (.error e, rest)) :
    (p >>= f).outcome r = (.error e, rest) := by
  rw [outcome] at hp
  rw [outcome_bind]
  rcases hr : p r with ⟨b, r'⟩ | ⟨e', r'⟩ <;> rw [hr] at hp <;>
    simp only [Prod.mk.injEq, Except.error.injEq, reduceCtorEq, false_and] at hp
  obtain ⟨rfl, rfl⟩ := hp
  rfl

theorem head?_append_congr {rest rest' : List Token} (h : rest'.head? = rest.head?)
    (v : List Token) : (v ++ rest').head? = (v ++ rest).head? := by
  cases v with
  | nil => exact h
  | cons t v => rfl

theorem Settled.bind {p : Parse α} {f : α → Parse β} {u v rest : List Token} {a : α}
    {result : Except ParseError β} (hp : p.Settled u (v ++ rest).head? (.ok a))
    (hf : (f a).Settled v rest.head? result) : (p >>= f).Settled (u ++ v) rest.head? result := by
  intro r rest' hr hnext
  refine outcome_bind_ok (hp r (v ++ rest') (by simpa using hr) (head?_append_congr hnext v)) ?_
  intro r' hr'
  exact hf r' rest' hr' hnext

theorem Settled.bind_error {p : Parse α} {f : α → Parse β} {u rest : List Token} {e : ParseError}
    (hp : p.Settled u rest.head? (.error e)) : (p >>= f).Settled u rest.head? (.error e) :=
  fun r rest' hr hnext => outcome_bind_error (hp r rest' hr hnext)

/-! ## Rules -/

namespace Reads

variable {n m : Nat} {p : Parse α} {f : α → Parse β} {S : α → List Token → Prop}
  {T : α → β → List Token → Prop} {stop stop' : Option Token → Prop}

/-- The same sentences, said in another way; up to `n` tokens the new way may say no more. -/
theorem widen {S' : α → List Token → Prop} (h : Reads n p S stop)
    (hS : ∀ a used, S a used → S' a used)
    (hS' : ∀ a used, used.length ≤ n → S' a used → S a used)
    (hstop : ∀ next, stop' next → stop next) : Reads n p S' stop' where
  accepts hr := by
    obtain ⟨used, hu, hs, hset⟩ := h.accepts hr
    exact ⟨used, hu, hS _ _ hs, hset⟩
  refuses hr := by
    obtain ⟨used, hu, hf, hset, a, more, hs, hmore⟩ := h.refuses hr
    exact ⟨used, hu, hf, hset, a, more, hS _ _ hs, hmore⟩
  spelled := by
    obtain ⟨a, used, hs⟩ := h.spelled
    exact ⟨a, used, hS _ _ hs⟩
  completes hs hn hnext hr := h.completes (hS' _ _ hn hs) hn (hstop _ hnext) hr

theorem congr {S' : α → List Token → Prop} (h : Reads n p S stop)
    (hS : ∀ a used, S a used ↔ S' a used) (hstop : ∀ next, stop' next → stop next) :
    Reads n p S' stop' :=
  h.widen (fun a used => (hS a used).1) (fun a used _ => (hS a used).2) hstop

theorem shorten (h : Reads n p S stop) (hm : m ≤ n) : Reads m p S stop where
  accepts := h.accepts
  refuses := h.refuses
  spelled := h.spelled
  completes hs hn := h.completes hs (Nat.le_trans hn hm)

theorem pure (a : α) : Reads n (pure a : Parse α) (fun b used => b = a ∧ used = []) stop where
  accepts hr := by
    cases hr
    exact ⟨[], rfl, ⟨rfl, rfl⟩, fun r rest hr _ => by cases hr; rfl⟩
  refuses hr := by cases hr
  spelled := ⟨a, [], rfl, rfl⟩
  completes := by
    intro b used rest r h _ _ hr
    obtain ⟨rfl, rfl⟩ := h
    cases hr
    rfl

theorem take_end {w : Wanted} {r : Reader} (h : r.ahead = []) :
    (take w).outcome r = (.error (.endOfInput w), []) := by
  simp [outcome, Parse.take, h]

theorem take_admits {w : Wanted} {r : Reader} {t : Token} {rest : List Token}
    (h : r.ahead = t :: rest) (ht : w.admits t = true) : (take w).outcome r = (.ok t, rest) := by
  simp [outcome, Parse.take, h, ht]

theorem take_refuses {w : Wanted} {r : Reader} {t : Token} {rest : List Token}
    (h : r.ahead = t :: rest) (ht : ¬ w.admits t = true) :
    (take w).outcome r = (.error (w.refusal t), t :: rest) := by
  simp [outcome, Parse.take, h, ht]

theorem take (w : Wanted) :
    Reads n (take w) (fun t used => used = [t] ∧ w.admits t = true) fun _ => True where
  accepts {r t rest} hr := by
    rcases ha : r.ahead with _ | ⟨t', rest'⟩
    · rw [take_end ha] at hr
      cases hr
    by_cases ht : w.admits t' = true
    · rw [take_admits ha ht] at hr
      cases hr
      exact ⟨[t], rfl, ⟨rfl, ht⟩, fun _ _ hr₁ _ => take_admits hr₁ ht⟩
    · rw [take_refuses ha ht] at hr
      cases hr
  refuses {r e rest} hr := by
    obtain ⟨t, ht⟩ := w.exists_admits
    rcases ha : r.ahead with _ | ⟨t', rest'⟩
    · rw [take_end ha] at hr
      cases hr
      refine ⟨[], rfl, rfl, fun r₁ rest₁ hr₁ hnext => ?_, t, [t], ⟨rfl, ht⟩, by simp⟩
      cases List.head?_eq_none_iff.1 hnext
      exact take_end hr₁
    by_cases ht' : w.admits t' = true
    · rw [take_admits ha ht'] at hr
      cases hr
    · rw [take_refuses ha ht'] at hr
      cases hr
      refine ⟨[], rfl, w.found?_refusal t', fun r₁ rest₁ hr₁ hnext => ?_, t, [t], ⟨rfl, ht⟩, by simp⟩
      rcases rest₁ with _ | ⟨u, rest₁⟩ <;> cases hnext
      exact take_refuses hr₁ ht'
  spelled := by
    obtain ⟨t, ht⟩ := w.exists_admits
    exact ⟨t, [t], rfl, ht⟩
  completes := by
    intro t used rest r h _ _ hr
    obtain ⟨rfl, ht⟩ := h
    exact take_admits hr ht

/-- One parser after the other. The second may have a smaller bound by what the first takes. -/
theorem bind {stopF : Option Token → Prop} (hp : Reads n p S stop)
    (hf : ∀ a, Reads m (f a) (T a) stopF) (hlen : ∀ a u, S a u → n ≤ m + u.length)
    (hstop : ∀ a u b v rest, S a u → T a b v → stopF rest.head? → stop (v ++ rest).head?) :
    Reads n (p >>= f) (fun b used => ∃ a u v, S a u ∧ T a b v ∧ used = u ++ v) stopF where
  accepts {r b rest} hr := by
    rcases outcome_bind_cases hr with ⟨e, -, he⟩ | ⟨a, r', -, hpr, hfr⟩
    · cases he
    obtain ⟨u, hu, hs, hsetp⟩ := hp.accepts hpr
    obtain ⟨v, hv, ht, hsetf⟩ := (hf a).accepts hfr
    rw [hv] at hu hsetp
    exact ⟨u ++ v, by simpa using hu, ⟨a, u, v, hs, ht, rfl⟩, hsetp.bind hsetf⟩
  refuses {r e rest} hr := by
    rcases outcome_bind_cases hr with ⟨e', hpr, he⟩ | ⟨a, r', -, hpr, hfr⟩
    · cases he
      obtain ⟨u, hu, hfound, hset, a, more, hs, hmore⟩ := hp.refuses hpr
      obtain ⟨b, v, ht⟩ := (hf a).spelled
      refine ⟨u, hu, hfound, hset.bind_error, b, more ++ v, ⟨a, u ++ more, v, hs, ht, by simp⟩, ?_⟩
      intro hrest
      simp [hmore hrest]
    · obtain ⟨u, hu, hs, hsetp⟩ := hp.accepts hpr
      obtain ⟨v, hv, hfound, hsetf, b, more, ht, hmore⟩ := (hf a).refuses hfr
      rw [hv] at hu hsetp
      exact ⟨u ++ v, by simpa using hu, hfound, hsetp.bind hsetf, b, more,
        ⟨a, u, v ++ more, hs, ht, by simp⟩, hmore⟩
  spelled := by
    obtain ⟨a, u, hs⟩ := hp.spelled
    obtain ⟨b, v, ht⟩ := (hf a).spelled
    exact ⟨b, u ++ v, a, u, v, hs, ht, rfl⟩
  completes := by
    intro b used rest r h hn hnext hr
    obtain ⟨a, u, v, hs, ht, rfl⟩ := h
    have := hlen a u hs
    rw [List.length_append] at hn
    refine outcome_bind_ok (hp.completes hs (by omega) (hstop a u b v rest hs ht hnext)
      (by simpa using hr)) fun r' hr' => ?_
    exact (hf a).completes ht (by omega) hnext hr'

/-- One parser after another one that stops of its own accord. -/
theorem seq {stopF : Option Token → Prop} (hp : Reads n p S fun _ => True)
    (hf : ∀ a, Reads n (f a) (T a) stopF) :
    Reads n (p >>= f) (fun b used => ∃ a u v, S a u ∧ T a b v ∧ used = u ++ v) stopF :=
  hp.bind hf (fun _ _ _ => Nat.le_add_right _ _) fun _ _ _ _ _ _ _ _ => trivial

/-- A parser whose result is handed on. -/
theorem yield {g : α → β} (hp : Reads n p S stop) :
    Reads n (p >>= fun a => Pure.pure (g a)) (fun b used => ∃ a, b = g a ∧ S a used) stop := by
  refine (hp.bind (fun a => Reads.pure (g a)) (fun _ _ _ => Nat.le_add_right _ _) ?_).congr ?_
    fun _ => id
  · intro a u b v rest _ h hnext
    obtain ⟨-, rfl⟩ := h
    exact hnext
  · intro b used
    refine ⟨fun h => ?_, fun h => ?_⟩
    · obtain ⟨a, u, v, hs, ⟨rfl, rfl⟩, rfl⟩ := h
      exact ⟨a, rfl, by simpa using hs⟩
    · obtain ⟨a, rfl, hs⟩ := h
      exact ⟨a, used, [], hs, ⟨rfl, rfl⟩, by simp⟩

theorem map {g : α → β} (hp : Reads n p S stop) :
    Reads n (g <$> p) (fun b used => ∃ a, b = g a ∧ S a used) stop := by
  rw [map_eq_pure_bind]
  exact hp.yield

end Reads

/-! ## Choices -/

/-- `q` looks at the next token, tells `g` of it and leaves the tokens alone. -/
def Looks (q : Parse κ) (g : Option Token → κ) : Prop :=
  ∀ r, ∃ begun, q r = .ok (g r.ahead.head?) ⟨r.ahead, begun⟩

theorem looks_sees (w : Wanted) : Looks (sees w) fun next => next.any w.admits :=
  fun r => ⟨r.begun, rfl⟩

theorem Looks.outcome_bind {q : Parse κ} {g : Option Token → κ} {f : κ → Parse α} (h : Looks q g)
    (r : Reader) : ∃ r', r'.ahead = r.ahead ∧
      (q >>= f).outcome r = (f (g r.ahead.head?)).outcome r' := by
  obtain ⟨begun, hq⟩ := h r
  exact ⟨⟨r.ahead, begun⟩, rfl, by rw [Parse.outcome_bind, hq]⟩

/-- What one branch of a choice ends with, the choice ends with, as long as the same token
stands next. -/
theorem Settled.choose {q : Parse κ} {g : Option Token → κ} {f : κ → Parse α} {used : List Token}
    {rest : List Token} {k : κ} {result : Except ParseError α} (h : Looks q g)
    (hk : g (used ++ rest).head? = k) (hf : (f k).Settled used rest.head? result) :
    (q >>= f).Settled used rest.head? result := by
  intro r₁ rest₁ hr₁ hnext
  obtain ⟨r', hr', hq⟩ := h.outcome_bind (f := f) r₁
  rw [hq, hr₁, head?_append_congr hnext used, hk]
  exact hf r' rest₁ (hr'.trans hr₁) hnext

/-- A choice by the next token, which has to tell the sentences of the branches apart. -/
theorem Reads.choose {n : Nat} {q : Parse κ} {g : Option Token → κ} {f : κ → Parse α}
    [Nonempty κ] (S : κ → α → List Token → Prop) (stop : κ → Option Token → Prop) (h : Looks q g)
    (hf : ∀ k, Reads n (f k) (S k) (stop k))
    (hg : ∀ k a u rest, S k a u → stop k rest.head? → g (u ++ rest).head? = k) :
    Reads n (q >>= f) (fun a used => ∃ k, S k a used) fun next => ∀ k, stop k next where
  accepts {r a rest} hr := by
    obtain ⟨r', hr', hq⟩ := h.outcome_bind (f := f) r
    rw [hq] at hr
    obtain ⟨used, hu, hs, hset⟩ := (hf _).accepts hr
    rw [hr'] at hu
    exact ⟨used, hu, ⟨_, hs⟩, hset.choose h (by rw [hu])⟩
  refuses {r e rest} hr := by
    obtain ⟨r', hr', hq⟩ := h.outcome_bind (f := f) r
    rw [hq] at hr
    obtain ⟨used, hu, hfound, hset, a, more, hs, hmore⟩ := (hf _).refuses hr
    rw [hr'] at hu
    exact ⟨used, hu, hfound, hset.choose h (by rw [hu]), a, more, ⟨_, hs⟩, hmore⟩
  spelled := by
    obtain ⟨k⟩ := ‹Nonempty κ›
    obtain ⟨a, used, hs⟩ := (hf k).spelled
    exact ⟨a, used, k, hs⟩
  completes := by
    intro a used rest r h hn hnext hr
    obtain ⟨k, hs⟩ := h
    obtain ⟨r', hr', hq⟩ := h.outcome_bind (f := f) r
    rw [hq, hr, hg k a used rest hs (hnext k)]
    exact (hf k).completes hs hn (hnext k) (hr'.trans hr)

/-- A choice between two branches. -/
theorem Reads.ite {n : Nat} {q : Parse Bool} {g : Option Token → Bool} {yes no : Parse α}
    {S T : α → List Token → Prop} {stopS stopT : Option Token → Prop} (h : Looks q g)
    (hyes : Reads n yes S stopS) (hno : Reads n no T stopT)
    (hgyes : ∀ a u rest, S a u → stopS rest.head? → g (u ++ rest).head? = true)
    (hgno : ∀ a u rest, T a u → stopT rest.head? → g (u ++ rest).head? = false) :
    Reads n (q >>= fun b => if b = true then yes else no) (fun a used => S a used ∨ T a used)
      fun next => stopS next ∧ stopT next := by
  refine (Reads.choose (fun b => if b = true then S else T)
    (fun b => if b = true then stopS else stopT) h ?_ ?_).congr ?_ ?_
  · intro b
    rcases b with _ | _
    · exact hno
    · exact hyes
  · intro b a u rest hs hnext
    rcases b with _ | _
    · exact hgno a u rest hs hnext
    · exact hgyes a u rest hs hnext
  · intro a used
    simp [or_comm]
  · intro next h b
    obtain ⟨hs, ht⟩ := h
    rcases b with _ | _
    · exact ht
    · exact hs

/-- The kinds of token that a statement can begin with. -/
def starters : List TokenKind := [.declare, .print, .count, .branch, .whilst, .define, .identifier]

theorem admits_statement (t : Token) : Wanted.statement.admits t = true ↔ t.kind ∈ starters := by
  simp [Wanted.admits, starters, or_assoc]

theorem begin_end {r : Reader} (f : TokenKind → Parse α) (h : r.ahead = []) :
    (begin >>= f).outcome r = (.error (.endOfInput .statement), []) := by
  simp [outcome_bind, begin, h]

theorem begin_starts {r : Reader} {t : Token} {rest : List Token} (f : TokenKind → Parse α)
    (h : r.ahead = t :: rest) (ht : t.kind ∈ starters) :
    (begin >>= f).outcome r = (f t.kind).outcome ⟨t :: rest, t :: r.begun⟩ := by
  simp [outcome_bind, begin, h, (admits_statement t).2 ht]

theorem begin_refuses {r : Reader} {t : Token} {rest : List Token} (f : TokenKind → Parse α)
    (h : r.ahead = t :: rest) (ht : t.kind ∉ starters) :
    (begin >>= f).outcome r = (.error (Wanted.statement.refusal t), t :: rest) := by
  have : ¬ Wanted.statement.admits t = true := fun hw => ht ((admits_statement t).1 hw)
  simp [outcome_bind, begin, h, this]

/-- A choice by the kind of the first token, which has to be one that can begin a statement. -/
theorem Reads.dispatch {n : Nat} {f : TokenKind → Parse α} {S : TokenKind → α → List Token → Prop}
    {stop : Option Token → Prop} (hf : ∀ k ∈ starters, Reads n (f k) (S k) stop)
    (hfirst : ∀ k a u, S k a u → ∃ t v, u = t :: v ∧ t.kind = k) :
    Reads n (begin >>= f) (fun a used => ∃ k ∈ starters, S k a used) stop where
  accepts {r a rest} hr := by
    rcases ha : r.ahead with _ | ⟨t, ahead⟩
    · rw [begin_end f ha] at hr
      cases hr
    by_cases ht : t.kind ∈ starters
    · rw [begin_starts f ha ht] at hr
      obtain ⟨used, hu, hs, hset⟩ := (hf _ ht).accepts hr
      refine ⟨used, hu, ⟨_, ht, hs⟩, fun r₁ rest₁ hr₁ hnext => ?_⟩
      obtain ⟨t', v, rfl, hk⟩ := hfirst _ _ _ hs
      cases (List.cons.inj hu).1
      rw [begin_starts f hr₁ ht]
      exact hset _ _ rfl hnext
    · rw [begin_refuses f ha ht] at hr
      cases hr
  refuses {r e rest} hr := by
    have hprint : TokenKind.print ∈ starters := by decide
    rcases ha : r.ahead with _ | ⟨t, ahead⟩
    · rw [begin_end f ha] at hr
      cases hr
      obtain ⟨a, used, hs⟩ := (hf _ hprint).spelled
      refine ⟨[], rfl, rfl, fun r₁ rest₁ hr₁ hnext => ?_, a, used, ⟨_, hprint, hs⟩, ?_⟩
      · cases List.head?_eq_none_iff.1 hnext
        exact begin_end f hr₁
      · obtain ⟨t, v, rfl, -⟩ := hfirst _ _ _ hs
        simp
    by_cases ht : t.kind ∈ starters
    · rw [begin_starts f ha ht] at hr
      obtain ⟨used, hu, hfound, hset, a, more, hs, hmore⟩ := (hf _ ht).refuses hr
      refine ⟨used, hu, hfound, fun r₁ rest₁ hr₁ hnext => ?_, a, more, ⟨_, ht, hs⟩, hmore⟩
      have hhead : r₁.ahead.head? = some t := by
        rw [hr₁, head?_append_congr hnext used, ← hu]
        rfl
      obtain ⟨tail, htail⟩ := List.head?_eq_some_iff.1 hhead
      rw [begin_starts f htail ht]
      exact hset _ _ (htail.symm.trans hr₁) hnext
    · rw [begin_refuses f ha ht] at hr
      cases hr
      obtain ⟨a, used, hs⟩ := (hf _ hprint).spelled
      refine ⟨[], rfl, Wanted.found?_refusal _ t, fun r₁ rest₁ hr₁ hnext => ?_, a, used,
        ⟨_, hprint, hs⟩, by simp⟩
      obtain ⟨tail, rfl⟩ := List.head?_eq_some_iff.1 hnext
      exact begin_refuses f hr₁ ht
  spelled := by
    obtain ⟨a, used, hs⟩ := (hf .print (by decide)).spelled
    exact ⟨a, used, _, by decide, hs⟩
  completes := by
    intro a used rest r h hn hnext hr
    obtain ⟨k, hk, hs⟩ := h
    obtain ⟨t, v, rfl, rfl⟩ := hfirst _ _ _ hs
    rw [begin_starts f hr hk]
    exact (hf _ hk).completes hs hn hnext rfl

/-! ## Loops -/

/-- The two parsers do the same on at most `n` tokens. -/
def Agree (n : Nat) (p q : Parse α) : Prop := ∀ r : Reader, r.ahead.length ≤ n → p r = q r

theorem Agree.bind {n m : Nat} {p q : Parse α} {f g : α → Parse β} (h : Agree n p q)
    (hp : ∀ r a r', r.ahead.length ≤ n → p r = .ok a r' → r'.ahead.length ≤ m)
    (hfg : ∀ a, Agree m (f a) (g a)) : Agree n (p >>= f) (q >>= g) := by
  intro r hr
  rw [bind_run, bind_run, ← h r hr]
  rcases hpr : p r with ⟨a, r'⟩ | ⟨e, r'⟩
  · exact hfg a r' (hp r a r' hr hpr)
  · rfl

theorem Reads.length_le {n : Nat} {p : Parse α} {S : α → List Token → Prop}
    {stop : Option Token → Prop} (h : Reads n p S stop) {k : Nat} (hk : ∀ a u, S a u → k ≤ u.length)
    {r r' : Reader} {a : α} (hr : p r = .ok a r') : r'.ahead.length + k ≤ r.ahead.length := by
  have hout : p.outcome r = (.ok a, r'.ahead) := by rw [outcome, hr]
  obtain ⟨u, hu, hs, -⟩ := h.accepts hout
  have := hk a u hs
  rw [hu, List.length_append]
  omega

/-- How a parser ends depends on the tokens ahead alone. -/
theorem Reads.outcome_eq {n : Nat} {p : Parse α} {S : α → List Token → Prop}
    {stop : Option Token → Prop} (h : Reads n p S stop) {r s : Reader} (hs : s.ahead = r.ahead) :
    p.outcome s = p.outcome r := by
  rcases hr : p.outcome r with ⟨e | a, rest⟩
  · obtain ⟨used, hu, -, hset, -⟩ := h.refuses hr
    exact hset s rest (hs.trans hu) rfl
  · obtain ⟨used, hu, -, hset⟩ := h.accepts hr
    exact hset s rest (hs.trans hu) rfl

theorem Agree.mono {n m : Nat} {p q : Parse α} (h : Agree m p q) (hn : n ≤ m) : Agree n p q :=
  fun r hr => h r (Nat.le_trans hr hn)

theorem Agree.left {n : Nat} {p q : Parse α} {f : α → Parse β} (h : Agree n p q) :
    Agree n (p >>= f) (q >>= f) := by
  intro r hr
  rw [bind_run, bind_run, h r hr]

theorem Agree.after {n : Nat} {p : Parse α} {f g : α → Parse β} {S : α → List Token → Prop}
    {stop : Option Token → Prop} (hp : Reads 0 p S stop) (hfg : ∀ a, Agree n (f a) (g a)) :
    Agree n (p >>= f) (p >>= g) := by
  refine Agree.bind (fun _ _ => rfl) (fun r a r' hr ha => ?_) hfg
  have := hp.length_le (fun _ _ _ => Nat.zero_le _) ha
  omega

/-- A loop whose bound is the tokens ahead reads what it reads with any larger bound. -/
theorem Reads.of_bound {q : List Token → Parse α} {S : α → List Token → Prop}
    {stop : Option Token → Prop} (h : ∀ bound, Reads bound.length (q bound) S stop)
    (hq : ∀ bound bound' : List Token, bound.length ≤ bound'.length →
      Agree bound.length (q bound) (q bound')) (n : Nat) :
    Reads n (fun r => q r.ahead r) S stop := by
  have hout : ∀ (r : Reader) (bound : List Token), r.ahead.length ≤ bound.length →
      outcome (fun r => q r.ahead r) r = (q bound).outcome r := by
    intro r bound hr
    simp only [outcome, hq r.ahead bound hr r (Nat.le_refl _)]
  -- two lists of tokens are compared under a bound that covers both
  have hset : ∀ {r : Reader} {used rest : List Token} {result : Except ParseError α},
      (∀ bound, (q bound).outcome r = (result, rest) → r.ahead = used ++ rest →
        (q bound).Settled used rest.head? result) →
      outcome (fun r => q r.ahead r) r = (result, rest) → r.ahead = used ++ rest →
        Settled (fun r => q r.ahead r) used rest.head? result := by
    intro r used rest result hb hr hu r₁ rest₁ hr₁ hnext
    have h₁ : r₁.ahead.length ≤ (r.ahead ++ r₁.ahead).length := by simp
    have h₂ : r.ahead.length ≤ (r.ahead ++ r₁.ahead).length := by simp
    rw [hout r₁ _ h₁]
    rw [hout r _ h₂] at hr
    exact hb _ hr hu r₁ rest₁ hr₁ hnext
  refine ⟨?_, ?_, (h []).spelled, ?_⟩
  · intro r a rest hr
    obtain ⟨used, hu, hs, -⟩ := (h r.ahead).accepts hr
    refine ⟨used, hu, hs, hset (fun bound hb hu' => ?_) hr hu⟩
    obtain ⟨used', hu'', -, hset'⟩ := (h bound).accepts hb
    cases List.append_cancel_right (hu'.symm.trans hu'')
    exact hset'
  · intro r e rest hr
    obtain ⟨used, hu, hfound, -, hviable⟩ := (h r.ahead).refuses hr
    refine ⟨used, hu, hfound, hset (fun bound hb hu' => ?_) hr hu, hviable⟩
    obtain ⟨used', hu'', -, hset', -⟩ := (h bound).refuses hb
    cases List.append_cancel_right (hu'.symm.trans hu'')
    exact hset'
  · intro a used rest r hs _ hnext hr
    exact (h r.ahead).completes hs (by rw [hr, List.length_append]; omega) hnext hr

/-! ### Items after marks -/

/-- `used` is a mark and an item for each entry of the list. -/
def Linked (mark : TokenKind) (S : α → List Token → Prop) : List (String × α) → List Token → Prop
  | [], used => used = []
  | (x, a) :: links, used =>
    ∃ t u v, t.kind = mark ∧ t.lexeme = x ∧ S a u ∧ Linked mark S links v ∧ used = t :: (u ++ v)

/-- The next token is not of this kind. -/
def NotNext (k : TokenKind) (next : Option Token) : Prop := ∀ t, next = some t → t.kind ≠ k

variable {mark : TokenKind} {item : Parse α} {S : α → List Token → Prop}
  {stop : Option Token → Prop}

theorem agree_afterEach (hitem : Reads 0 item S stop) (bound bound' : List Token)
    (read : List (String × α)) (h : bound.length ≤ bound'.length) :
    Agree bound.length (afterEach mark item bound read) (afterEach mark item bound' read) := by
  have hend (b : List Token) (read : List (String × α)) (r : Reader) (hr : r.ahead = []) :
      afterEach mark item b read r = .ok read.reverse r := by
    cases b with
    | nil => rfl
    | cons t b => simp [afterEach, bind_run, sees, hr]; rfl
  induction bound generalizing bound' read with
  | nil =>
    intro r hr
    have hr : r.ahead = [] := List.eq_nil_of_length_eq_zero (Nat.le_zero.1 hr)
    rw [hend _ _ _ hr, hend _ _ _ hr]
  | cons t bound ih =>
    rcases bound' with _ | ⟨t', bound'⟩
    · simp at h
    have hlen : bound.length ≤ bound'.length := by simpa using h
    refine Agree.bind (m := bound.length + 1) (fun _ _ => rfl) (fun r b r' hr hb => ?_) fun b => ?_
    · cases hb
      exact hr
    rcases b with _ | _
    · exact fun _ _ => rfl
    refine Agree.bind (m := bound.length) (fun _ _ => rfl) (fun r t r' hr ht => ?_) fun t => ?_
    · have := (take_ok ht).1
      simp only [this, List.length_cons] at hr
      omega
    refine Agree.bind (m := bound.length) (fun _ _ => rfl) (fun r a r' hr ha => ?_)
      fun a => ih _ _ hlen
    have := hitem.length_le (fun _ _ _ => Nat.zero_le _) ha
    omega

theorem Linked.first {links : List (String × α)} {used : List Token}
    (h : Linked mark S links used) :
    links = [] ∧ used = [] ∨ ∃ t v, used = t :: v ∧ t.kind = mark := by
  rcases links with _ | ⟨⟨x, a⟩, links⟩
  · exact .inl ⟨rfl, h⟩
  · obtain ⟨t, u, v, ht, -, -, -, rfl⟩ := h
    exact .inr ⟨t, u ++ v, rfl, ht⟩

/-- The loop after `read`, whose bound has a token for each round. -/
theorem Reads.afterEach (hitem : ∀ n, Reads n item S stop)
    (hmark : ∀ t : Token, t.kind = mark → stop (some t)) (bound : List Token)
    (read : List (String × α)) :
    Reads bound.length (afterEach mark item bound read)
      (fun links used => ∃ more, links = read.reverse ++ more ∧ Linked mark S more used)
      fun next => stop next ∧ NotNext mark next := by
  induction bound generalizing read with
  | nil =>
    refine (Reads.pure read.reverse).widen ?_ ?_ fun _ => id
    · intro links used h
      obtain ⟨rfl, rfl⟩ := h
      exact ⟨[], by simp, rfl⟩
    · intro links used hn h
      obtain ⟨more, rfl, hm⟩ := h
      cases List.eq_nil_of_length_eq_zero (Nat.le_zero.1 hn)
      rcases hm.first with ⟨rfl, -⟩ | ⟨t, v, h, -⟩
      · exact ⟨by simp, rfl⟩
      · cases h
  | cons t bound ih =>
    have hround := fun t : Token => (hitem bound.length).bind
      (fun a => ih ((t.lexeme, a) :: read)) (fun _ _ _ => Nat.le_add_right _ _)
      (by
        intro a u b v rest _ h hnext
        obtain ⟨more, -, hm⟩ := h
        rcases hm.first with ⟨-, rfl⟩ | ⟨t, v, rfl, ht⟩
        · exact hnext.1
        · exact hmark t ht)
    have hyes := (Reads.take (n := bound.length + 1) (.kind mark)).bind hround
      (fun t u h => by simp [h.1]) (fun _ _ _ _ _ _ _ _ => trivial)
    have hno : Reads (bound.length + 1) (Pure.pure read.reverse)
        (fun links used => links = read.reverse ∧ used = []) (NotNext mark) := Reads.pure _
    refine (Reads.ite (looks_sees (.kind mark)) hyes hno ?_ ?_).congr ?_ ?_
    · intro links u rest h _
      obtain ⟨t, _, v, ⟨rfl, ht⟩, -, rfl⟩ := h
      exact ht
    · intro links u rest h hnext
      obtain ⟨-, rfl⟩ := h
      rcases rest with _ | ⟨t, rest⟩
      · rfl
      · simpa [Wanted.admits] using hnext t rfl
    · intro links used
      refine ⟨fun h => ?_, fun h => ?_⟩
      · rcases h with ⟨t, _, _, ⟨rfl, ht⟩, ⟨a, u, v, ha, ⟨more, rfl, hm⟩, rfl⟩, rfl⟩ | ⟨rfl, rfl⟩
        · have hkind : t.kind = mark := by simpa [Wanted.admits] using ht
          exact ⟨(t.lexeme, a) :: more, by simp, t, u, v, hkind, rfl, ha, hm, rfl⟩
        · exact ⟨[], by simp, rfl⟩
      · rcases h with ⟨_ | ⟨⟨x, a⟩, more⟩, rfl, hm⟩
        · exact .inr ⟨by simp, hm⟩
        · obtain ⟨t, u, v, ht, rfl, ha, hm, rfl⟩ := hm
          exact .inl ⟨t, [t], u ++ v, ⟨rfl, by simp [Wanted.admits, ht]⟩,
            ⟨a, u, v, ha, ⟨more, by simp, hm⟩, rfl⟩, rfl⟩
    · exact fun next hnext => ⟨hnext, hnext.2⟩

theorem Reads.linked (hitem : ∀ n, Reads n item S stop)
    (hmark : ∀ t : Token, t.kind = mark → stop (some t)) (n : Nat) :
    Reads n (linked mark item) (Linked mark S) fun next => stop next ∧ NotNext mark next := by
  refine Reads.of_bound (q := fun bound => Parse.afterEach mark item bound []) (fun bound => ?_)
    (fun bound bound' => agree_afterEach (hitem 0) bound bound' []) n
  refine (Reads.afterEach hitem hmark bound []).congr ?_ fun _ => id
  intro links used
  simp

/-- Items with commas between them, at least one. -/
theorem Reads.commaList (hitem : ∀ n, Reads n item S stop)
    (hmark : ∀ t : Token, t.kind = .comma → stop (some t)) (n : Nat) :
    Reads n (commaList item)
      (fun all used => ∃ a others u v, all = a :: others.map (·.2) ∧ S a u ∧
        Linked .comma S others v ∧ used = u ++ v)
      fun next => stop next ∧ NotNext .comma next := by
  refine ((hitem n).bind (fun a => (Reads.linked hitem hmark n).yield)
    (fun _ _ _ => Nat.le_add_right _ _) ?_).congr ?_ fun _ => id
  · intro a u all v rest _ h hnext
    obtain ⟨others, rfl, hv⟩ := h
    rcases hv.first with ⟨-, rfl⟩ | ⟨t, v, rfl, ht⟩
    · exact hnext.1
    · exact hmark t ht
  · intro all used
    refine ⟨fun h => ?_, fun h => ?_⟩
    · obtain ⟨a, u, v, ha, ⟨others, rfl, hv⟩, rfl⟩ := h
      exact ⟨a, others, u, v, rfl, ha, hv, rfl⟩
    · obtain ⟨a, others, u, v, rfl, ha, hv, rfl⟩ := h
      exact ⟨a, u, v, ha, ⟨others, rfl, hv⟩, rfl⟩

end Parse

end MarathiScript
