/-
  MarathiScript.Proofs.Sequence — two sources put one after the other.

  A program ends with a semicolon or a closing brace (`closed_of_spelt`), so its source can
  be followed by another one without anything between them: the tokens are those of both
  (`scan_append`), and as the grammar does not see where tokens stand they spell the statements
  of both. A block runs in two parts at any statement (`Ran.append_iff`).

  Proved: the concatenation of two sources is a program if each of them is one, and running
  it is running the one and, if that succeeds, the other in the same session (`run_in_turn`).
-/

import MarathiScript.Proofs.Lexical.Seam
import MarathiScript.Proofs.Syntax.Parse
import MarathiScript.Proofs.Run.Rules

namespace MarathiScript

open Parse

/-! ## The last token of a program -/

theorem Stmt.unparse_last (stmt : Stmt) : ∃ t, stmt.unparse.getLast? = some t ∧ t.Ends := by
  cases stmt with
  | declare name value | assign name value | call name arguments | print value =>
    exact ⟨.fixed .semicolon, by simp [Stmt.unparse, List.getLast?_cons], .inl rfl⟩
  | branch test consequence alternative =>
    refine ⟨.fixed .rightBrace, ?_, .inr rfl⟩
    cases alternative <;> simp [Stmt.unparse, List.getLast?_cons]
  | whilst test body | count init test step body | define name parameters body =>
    exact ⟨.fixed .rightBrace, by simp [Stmt.unparse, List.getLast?_cons], .inr rfl⟩

theorem unparse_closed (block : Block) : Closed (unparse block) := by
  induction block with
  | nil => nofun
  | cons stmt block ih =>
    intro t ht
    rw [unparse, List.getLast?_append] at ht
    rcases hlast : (unparse block).getLast? with _ | u <;> rw [hlast] at ht
    · obtain ⟨u, hu, hends⟩ := stmt.unparse_last
      rw [hu] at ht
      cases ht
      exact hends
    · cases ht
      exact ih t hlast

/-- The tokens of a program end as it is spelt. -/
theorem closed_of_spelt {block : Block} {ts : List Token} (h : BlockSpelt block ts) : Closed ts := by
  intro t ht
  have hsign : (unparse block).getLast?.map Token.sign = some t.sign := by
    rw [← List.getLast?_map, ← h.2, List.getLast?_map, ht]
    rfl
  obtain ⟨u, hu, hsame⟩ := Option.map_eq_some_iff.1 hsign
  have hkind := (Token.sign_eq_iff.1 hsame).1
  have hends := unparse_closed block u hu
  rw [Token.Ends, hkind] at hends
  exact hends

/-! ## Two programs -/

/-- The grammar does not see where tokens stand. -/
theorem Alike.moved {ts us : List Token} (n : Nat) (h : Alike ts us) : Alike (ts.map (·.moved n)) us := by
  rw [Alike, List.map_map]
  exact h

theorem spelt_append {block rest : Block} {ts us : List Token} (h : BlockSpelt block ts)
    (h' : BlockSpelt rest us) : BlockSpelt (block ++ rest) (ts ++ us) := by
  constructor
  · show wellFormed (block ++ rest) = true
    rw [wellFormed_append, h.1, h'.1]
    rfl
  · rw [unparse_append]
    exact h.2.append h'.2

/-- The program that a source spells. -/
def Spells (source : String) (block : Block) : Prop := ∃ ts, scan source = .ok ts ∧ parse ts = .ok block

theorem Spells.append {source source' : String} {block block' : Block} (h : Spells source block)
    (h' : Spells source' block') : Spells (source ++ source') (block ++ block') := by
  obtain ⟨ts, hscan, hparse⟩ := h
  obtain ⟨us, hscan', hparse'⟩ := h'
  have hspelt := spelt_of_parse hparse
  have hspelt' := spelt_of_parse hparse'
  refine ⟨_, scan_append hscan (closed_of_spelt hspelt) hscan', parse_ok (spelt_append hspelt ?_)⟩
  exact ⟨hspelt'.1, hspelt'.2.moved _⟩

/-- Two programs are one when they are written one after the other, and it runs the first and, if
that succeeds, the second in the same session; after an error nothing of the second is run. -/
theorem run_in_turn {source source' : String} {block block' : Block} (h : Spells source block)
    (h' : Spells source' block') :
    Spells (source ++ source') (block ++ block') ∧
      ∀ limit s,
        (∀ t, Ends limit block s ⟨.ok (), t⟩ →
          ∀ o, Ends limit (block ++ block') s o ↔ Ends limit block' t o) ∧
        (∀ e t, Ends limit block s ⟨.error e, t⟩ →
          ∀ o, Ends limit (block ++ block') s o ↔ o = ⟨.error e, t⟩) ∧
        ((∀ o, ¬ Ends limit block s o) → ∀ o, ¬ Ends limit (block ++ block') s o) := by
  refine ⟨h.append h', fun limit s => ?_⟩
  simp only [ends_iff_ran, Ran.append_iff]
  refine ⟨fun t ht o => ?_, fun e t ht o => ?_, fun hnone o => ?_⟩
  · constructor
    · intro ho
      rcases ho with ⟨e, u, hu, -⟩ | ⟨u, hu, ho⟩ <;> cases ht.unique hu
      exact ho
    · intro ho
      exact .inr ⟨t, ht, ho⟩
  · constructor
    · intro ho
      rcases ho with ⟨e', u, hu, rfl⟩ | ⟨u, hu, -⟩ <;> cases ht.unique hu
      rfl
    · intro ho
      exact .inl ⟨e, t, ht, ho⟩
  · intro ho
    rcases ho with ⟨e, u, hu, -⟩ | ⟨u, hu, -⟩ <;> exact hnone _ hu

/-- A branch that has no alternative and right behind its brace a call of no function: the first
part runs to its end, and then the call fails. -/
theorem run_in_turn_branch :
    let block : Block := [.assign "x" (.string "é"), .print (.name "x"), .branch ⟨"y", ">", "2"⟩ [] none]
    let block' : Block := [.call "f" [], .print (.name "x")]
    let s : Session := ⟨⟨⟨[("y", .int 7)]⟩, []⟩, .empty, #[], #[]⟩
    Spells "x=\"é\";Chapa(x);Jar(y>2)\x7b\x7df();Chapa(x);" (block ++ block') ∧
      ∃ o, Ends 5 (block ++ block') s o ∧ o.result = .error (.undefinedFunction "f") ∧
        o.session.printed = #["é"] := by
  intro block block' s
  have hspells : Spells "x=\"é\";Chapa(x);Jar(y>2)\x7b\x7d" block := by
    refine ⟨[⟨.identifier, "x", 0⟩, ⟨.operator, "=", 1⟩, ⟨.string, "é", 2⟩, ⟨.semicolon, ";", 6⟩,
      ⟨.print, "Chapa", 7⟩, ⟨.leftParen, "(", 12⟩, ⟨.identifier, "x", 13⟩, ⟨.rightParen, ")", 14⟩,
      ⟨.semicolon, ";", 15⟩, ⟨.branch, "Jar", 16⟩, ⟨.leftParen, "(", 19⟩, ⟨.identifier, "y", 20⟩,
      ⟨.operator, ">", 21⟩, ⟨.number, "2", 22⟩, ⟨.rightParen, ")", 23⟩, ⟨.leftBrace, "\x7b", 24⟩,
      ⟨.rightBrace, "\x7d", 25⟩], scan_ok_iff.2 (by decide +kernel), rfl⟩
  have hspells' : Spells "f();Chapa(x);" block' := by
    refine ⟨[⟨.identifier, "f", 0⟩, ⟨.leftParen, "(", 1⟩, ⟨.rightParen, ")", 2⟩, ⟨.semicolon, ";", 3⟩,
      ⟨.print, "Chapa", 4⟩, ⟨.leftParen, "(", 9⟩, ⟨.identifier, "x", 10⟩, ⟨.rightParen, ")", 11⟩,
      ⟨.semicolon, ";", 12⟩], scan_ok_iff.2 (by decide +kernel), rfl⟩
  obtain ⟨hboth, hrun⟩ := run_in_turn hspells hspells'
  have hfirst : Ends 5 block s ⟨.ok (), _⟩ := ⟨10, rfl⟩
  have hturn := (hrun 5 s).1 _ hfirst
  exact ⟨hboth, _, (hturn _).2 ⟨10, rfl⟩, rfl, rfl⟩

end MarathiScript
