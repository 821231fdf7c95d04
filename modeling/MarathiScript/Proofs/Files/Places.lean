/-
  MarathiScript.Proofs.Files.Places — where the tests below a path are.

  A place is the names that lead down from an entry (`Entry.at?`). The places in a directory come
  in the order of their names, compared one after the other by their bytes: all that lies below
  an entry comes in its place, as if the tree were walked to the end of each branch first.

  A tree is proper if the entries of each directory have names of their own, which are names that
  an entry can have (`Entry.Proper`). What a path leads to in a proper tree is proper
  (`Entry.Proper.find`), and where it is a file, the path ends with its name
  (`lastName?_of_find`).

  Proved (`Entry.Proper.exists_tests`): the tests at or below a proper entry are those at the places
  of files that have the name of a test, each once, in the order of the places (`TestPlaces`). No
  other list has these places in their order (`TestPlaces.unique`).
-/

import MarathiScript.Proofs.Files.Names
import Mathlib.Data.List.Sort

namespace MarathiScript

namespace Entry

/-- What the names of a place lead to. -/
def at? : Entry → List String → Option Entry
  | entry, [] => some entry
  | directory entries, name :: place =>
    (entries.find? fun entry => entry.1 == name).bind fun entry => entry.2.at? place
  | file _, _ :: _ | unreadable _, _ :: _ => none

/-- A file, readable or not. -/
def IsFile : Entry → Prop
  | file _ | unreadable _ => True
  | directory _ => False

theorem isFile_file (bytes : ByteArray) : (file bytes).IsFile := trivial

theorem isFile_unreadable (e : PathError) : (unreadable e).IsFile := trivial

theorem not_isFile_directory (entries : List (String × Entry)) : ¬ (directory entries).IsFile := id

/-- In each directory the entries have names of their own. -/
inductive Proper : Entry → Prop
  | file (bytes : ByteArray) : Proper (file bytes)
  | unreadable (e : PathError) : Proper (unreadable e)
  | directory {entries : List (String × Entry)} : (entries.map (·.1)).Nodup →
      (∀ entry ∈ entries, EntryName entry.1) → (∀ entry ∈ entries, Proper entry.2) →
        Proper (directory entries)

end Entry

/-- The name of what is at a place below a path. -/
def nameAt (path : String) (place : List String) : List Char :=
  match place.getLast? with
  | some name => name.toList
  | none => (pathParts path).getLast?.getD []

/-- These are the places of the tests below a path that leads to the entry, in their order. -/
structure TestPlaces (entry : Entry) (path : String) (places : List (List String)) : Prop where
  ordered : places.Pairwise fun place other => place.map nameBytes < other.map nameBytes
  mem_iff (place : List String) : place ∈ places ↔
    ∃ file, entry.at? place = some file ∧ file.IsFile ∧ IsTestName (nameAt path place)

/-- The path to a place below a path. -/
def pathAt (path : String) (place : List String) : String := place.foldl joinPath path

/-- The test at a place below a path that leads to the entry. -/
def Entry.testAt (entry : Entry) (path : String) (place : List String) : TestFile :=
  ⟨pathAt path place, (entry.at? place).elim (.error .missing) Entry.readText⟩

/-- Places that come one before the other are determined by which they are. -/
theorem TestPlaces.unique {entry : Entry} {path : String} {places places' : List (List String)}
    (h : TestPlaces entry path places) (h' : TestPlaces entry path places') : places = places' := by
  let before (place other : List String) : Prop := place.map nameBytes < other.map nameBytes
  have hirrefl : Std.Irrefl before := ⟨fun _ => List.lt_irrefl _⟩
  have hantisymm : Std.Antisymm before := ⟨fun _ _ hlt hgt => absurd hgt (List.lt_asymm hlt)⟩
  have hmem (place : List String) : place ∈ places ↔ place ∈ places' :=
    (h.mem_iff place).trans (h'.mem_iff place).symm
  exact List.Pairwise.eq_of_mem_iff (r := before) h.ordered h'.ordered hmem

/-! ## Places in a directory -/

theorem nameAt_cons (path : String) {name : String} (h : EntryName name) (place : List String) :
    nameAt path (name :: place) = nameAt (joinPath path name) place := by
  cases place with
  | nil =>
    obtain ⟨parts, hparts⟩ := pathParts_joinPath path h
    show name.toList = (pathParts (joinPath path name)).getLast?.getD []
    rw [hparts, List.getLast?_concat, Option.getD_some]
  | cons next place => rw [nameAt, List.getLast?_cons_cons]; rfl

section

variable {entry file : Entry} {entries : List (String × Entry)} {path : String} {place : List String}
  {x : String × Entry}

theorem Entry.IsFile.at?_iff (h : entry.IsFile) :
    entry.at? place = some file ↔ place = [] ∧ file = entry := by
  cases place with
  | nil => simp only [Entry.at?, Option.some.injEq, true_and, eq_comm]
  | cons name place => cases entry <;> simp_all [Entry.at?, Entry.IsFile]

theorem name_of_find? {name : String} (h : entries.find? (fun entry => entry.1 == name) = some x) :
    x.1 = name := by
  have hname := List.find?_some h
  exact eq_of_beq hname

theorem Entry.at?_cons (hnodup : (entries.map (·.1)).Nodup) (hx : x ∈ entries) (place : List String) :
    (Entry.directory entries).at? (x.1 :: place) = x.2.at? place := by
  have hfind : entries.find? (fun entry => entry.1 == x.1) = some x := by
    obtain ⟨y, hy⟩ : ∃ y, entries.find? (fun entry => entry.1 == x.1) = some y :=
      Option.isSome_iff_exists.1 (List.find?_isSome.2 ⟨x, hx, beq_self_eq_true x.1⟩)
    have hname : y.1 = x.1 := name_of_find? hy
    rw [hy, List.inj_on_of_nodup_map hnodup (List.mem_of_find?_eq_some hy) hx hname]
  rw [Entry.at?, hfind, Option.bind_some]

theorem Entry.at?_directory (hfile : file.IsFile) (h : (Entry.directory entries).at? place = some file) :
    ∃ x ∈ entries, ∃ rest, place = x.1 :: rest ∧ x.2.at? rest = some file := by
  cases place with
  | nil =>
    rw [Entry.at?, Option.some.injEq] at h
    subst h
    exact absurd hfile (Entry.not_isFile_directory entries)
  | cons name rest =>
    obtain ⟨x, hfind, hrest⟩ := Option.bind_eq_some_iff.1 h
    exact ⟨x, List.mem_of_find?_eq_some hfind, rest, by rw [name_of_find? hfind], hrest⟩

/-! ## Tests in their order -/

/-- The entries of a directory in the order of their names. -/
def sortedByName (entries : List (String × Entry)) : List (String × Entry) :=
  entries.mergeSort fun a b => a.1 ≤ b.1

theorem mem_sortedByName : x ∈ sortedByName entries ↔ x ∈ entries := List.mem_mergeSort

theorem sortedByName_names (hnodup : (entries.map (·.1)).Nodup) :
    (sortedByName entries).Pairwise fun a b => nameBytes a.1 < nameBytes b.1 := by
  have hsorted : (sortedByName entries).Pairwise fun a b => decide (a.1 ≤ b.1) = true := by
    refine List.pairwise_mergeSort (fun a b c hab hbc => ?_) (fun a b => ?_) entries
    · exact decide_eq_true (String.le_trans (of_decide_eq_true hab) (of_decide_eq_true hbc))
    · simp only [Bool.or_eq_true, decide_eq_true_eq, String.le_total]
  have hnames : ((sortedByName entries).map (·.1)).Nodup :=
    ((List.mergeSort_perm entries _).map _).nodup_iff.2 hnodup
  refine (hsorted.and (List.pairwise_map.1 hnames)).imp fun {a b} ⟨hle, hne⟩ => nameBytes_lt ?_
  exact String.not_le.1 fun hge => hne (String.le_antisymm (of_decide_eq_true hle) hge)

theorem Entry.tests_directory (path : String) (entries : List (String × Entry)) :
    (Entry.directory entries).tests path =
      (sortedByName entries).flatMap fun x => x.2.tests (joinPath path x.1) := by
  have hbelow : Entry.testsBelow path entries =
      entries.map fun x => (x.1, x.2.tests (joinPath path x.1)) := by
    induction entries with
    | nil => rfl
    | cons x entries ih => rw [Entry.testsBelow, ih, List.map_cons]
  have hsort : (entries.map fun x => (x.1, x.2.tests (joinPath path x.1))).mergeSort
      (fun a b => a.1 ≤ b.1) =
        (sortedByName entries).map fun x => (x.1, x.2.tests (joinPath path x.1)) := by
    refine (List.map_mergeSort ?_).symm
    exact fun _ _ _ _ => rfl
  rw [Entry.tests, hbelow, hsort, List.flatMap_map]

/-- A file is a test at the empty place, if it has the name of one. -/
theorem Entry.IsFile.exists_tests (h : entry.IsFile) (hname : lastName? path = some (nameAt path [])) :
    ∃ places, TestPlaces entry path places ∧ entry.tests path = places.map (entry.testAt path) := by
  have htests : entry.tests path = testsAt path entry.readText := by
    cases entry with
    | file | unreadable => rfl
    | directory entries => exact absurd h (Entry.not_isFile_directory entries)
  by_cases htest : IsTestName (nameAt path [])
  · refine ⟨[[]], ⟨List.pairwise_singleton _ _, fun place => ?_⟩, ?_⟩
    · rw [List.mem_singleton]
      exact ⟨fun hplace => ⟨entry, h.at?_iff.2 ⟨hplace, rfl⟩, h, hplace ▸ htest⟩,
        fun ⟨_, hat, _⟩ => (h.at?_iff.1 hat).1⟩
    · rw [htests, testsAt, if_pos ((isTestPath_iff hname).2 htest)]
      rfl
  · refine ⟨[], ⟨.nil, fun place => ?_⟩, ?_⟩
    · refine ⟨nofun, fun ⟨_, hat, _, hplace⟩ => (htest ?_).elim⟩
      rwa [(h.at?_iff.1 hat).1] at hplace
    · rw [htests, testsAt, if_neg ((isTestPath_iff hname).not.2 htest), List.map_nil]

/-- The places in a directory are those below its entries, in the order of the names. -/
theorem TestPlaces.directory (hnodup : (entries.map (·.1)).Nodup)
    (hnames : ∀ x ∈ entries, EntryName x.1) {below : String × Entry → List (List String)}
    (hbelow : ∀ x ∈ entries, TestPlaces x.2 (joinPath path x.1) (below x)) :
    TestPlaces (.directory entries) path
      ((sortedByName entries).flatMap fun x => (below x).map (x.1 :: ·)) := by
  constructor
  · -- below one entry the order is that of its own places; of two entries the names decide
    rw [List.pairwise_flatMap]
    refine ⟨fun x hx => ?_, (sortedByName_names hnodup).imp fun {x y} hlt place hplace other hother => ?_⟩
    · rw [List.pairwise_map]
      refine (hbelow x (mem_sortedByName.1 hx)).ordered.imp fun {place other} hlt => ?_
      exact List.cons_lt_cons_iff.2 (.inr ⟨rfl, hlt⟩)
    · obtain ⟨_, -, rfl⟩ := List.mem_map.1 hplace
      obtain ⟨_, -, rfl⟩ := List.mem_map.1 hother
      exact List.cons_lt_cons_iff.2 (.inl hlt)
  · intro place
    simp only [List.mem_flatMap, mem_sortedByName, List.mem_map]
    constructor
    · rintro ⟨x, hx, rest, hrest, rfl⟩
      obtain ⟨file, hat, hfile, htest⟩ := ((hbelow x hx).mem_iff rest).1 hrest
      refine ⟨file, by rw [Entry.at?_cons hnodup hx, hat], hfile, ?_⟩
      rwa [nameAt_cons path (hnames x hx)]
    · rintro ⟨file, hat, hfile, htest⟩
      obtain ⟨x, hx, rest, rfl, hrest⟩ := Entry.at?_directory hfile hat
      rw [nameAt_cons path (hnames x hx)] at htest
      exact ⟨x, hx, rest, ((hbelow x hx).mem_iff rest).2 ⟨file, hrest, hfile, htest⟩, rfl⟩

/-- The tests at or below an entry are those at the places of tests, in their order. -/
theorem Entry.Proper.exists_tests (h : entry.Proper)
    (hname : entry.IsFile → lastName? path = some (nameAt path [])) :
    ∃ places, TestPlaces entry path places ∧ entry.tests path = places.map (entry.testAt path) := by
  induction h generalizing path with
  | file bytes =>
    have hfile := Entry.isFile_file bytes
    exact hfile.exists_tests (hname hfile)
  | unreadable e =>
    have hfile := Entry.isFile_unreadable e
    exact hfile.exists_tests (hname hfile)
  | @directory entries hnodup hnames _ ih =>
    have hbelow : ∀ x ∈ entries, ∃ places, TestPlaces x.2 (joinPath path x.1) places ∧
        x.2.tests (joinPath path x.1) = places.map (x.2.testAt (joinPath path x.1)) := by
      refine fun x hx => ih x hx fun _ => ?_
      rw [← nameAt_cons path (hnames x hx)]
      exact lastName?_joinPath path (hnames x hx)
    choose! below hplaces htests using hbelow
    refine ⟨_, .directory hnodup hnames hplaces, ?_⟩
    -- seen from the directory, the path to an entry is part of the way to each place below it
    rw [Entry.tests_directory, List.map_flatMap]
    refine List.flatMap_congr fun x hx => ?_
    have hx := mem_sortedByName.1 hx
    rw [htests x hx, List.map_map]
    refine List.map_congr_left fun place _ => ?_
    show x.2.testAt (joinPath path x.1) place = (Entry.directory entries).testAt path (x.1 :: place)
    rw [Entry.testAt, Entry.testAt, Entry.at?_cons hnodup hx, pathAt, pathAt, List.foldl_cons]

end

/-! ## What a path leads to -/

/-- One part of a path stays in a directory, goes up from it, or goes down to one of its entries. -/
inductive PathStep (above : List Entry) (entries : List (String × Entry)) (part : List Char) :
    List Entry → Entry → Prop
  | stays : PathStep above entries part above (.directory entries)
  | up {rest : List Entry} {next : Entry} : above = next :: rest → PathStep above entries part rest next
  | down {x : String × Entry} : PlainPart part → x ∈ entries →
      PathStep above entries part (.directory entries :: above) x.2

section

variable {root here entry : Entry} {above : List Entry} {path : String} {part : List Char}
  {parts : List (List Char)}

theorem pathStep_of_go {next : List Entry × Entry} (h : here.go above part = .ok next) :
    ∃ entries, here = .directory entries ∧ PathStep above entries part next.1 next.2 := by
  cases here with
  | file | unreadable => cases h
  | directory entries =>
    refine ⟨entries, rfl, ?_⟩
    simp only [Entry.go] at h
    split_ifs at h with hstay hup
    · cases h
      exact .stays
    · cases above with
      | nil => cases h
      | cons up rest =>
        cases h
        exact .up rfl
    · obtain ⟨hnonempty, hhere⟩ := not_or.1 hstay
      split at h
      · rename_i name entry hfind
        cases h
        exact .down ⟨hnonempty, hhere, hup⟩ (List.mem_of_find?_eq_some hfind)
      · cases h

theorem goAll_cons (h : here.goAll above (part :: parts) = .ok entry) :
    ∃ entries above' next, here = .directory entries ∧ PathStep above entries part above' next ∧
      next.goAll above' parts = .ok entry := by
  rw [Entry.goAll] at h
  split at h
  · rename_i above' next hgo
    obtain ⟨entries, hhere, hstep⟩ := pathStep_of_go hgo
    exact ⟨entries, above', next, hhere, hstep, h⟩
  · cases h

theorem Entry.Proper.inside {entries : List (String × Entry)} {x : String × Entry}
    (h : (Entry.directory entries).Proper) (hx : x ∈ entries) : x.2.Proper := by
  cases h with
  | directory _ _ hentries => exact hentries x hx

theorem goAll_proper (hhere : here.Proper) (habove : ∀ up ∈ above, up.Proper)
    (h : here.goAll above parts = .ok entry) : entry.Proper := by
  induction parts generalizing here above with
  | nil =>
    cases h
    exact hhere
  | cons part parts ih =>
    obtain ⟨entries, above', next, rfl, hstep, hnext⟩ := goAll_cons h
    cases hstep with
    | stays => exact ih hhere habove hnext
    | up hup =>
      obtain ⟨hup, hrest⟩ := List.forall_mem_cons.1 (hup ▸ habove)
      exact ih hup hrest hnext
    | down _ hx => exact ih (hhere.inside hx) (List.forall_mem_cons.2 ⟨hhere, habove⟩) hnext

/-- Where a walk ends at a file, its last part went down. -/
theorem goAll_isFile (habove : ∀ up ∈ above, ¬ up.IsFile) (h : here.goAll above parts = .ok entry)
    (hfile : entry.IsFile) :
    parts = [] ∧ here = entry ∨ ∃ before part, parts = before ++ [part] ∧ PlainPart part := by
  induction parts generalizing here above with
  | nil =>
    cases h
    exact .inl ⟨rfl, rfl⟩
  | cons part parts ih =>
    obtain ⟨entries, above', next, rfl, hstep, hnext⟩ := goAll_cons h
    have hdirectory := Entry.not_isFile_directory entries
    have habove' : ∀ up ∈ above', ¬ up.IsFile := by
      cases hstep with
      | stays => exact habove
      | up hup => exact fun up hmem => habove up (hup ▸ List.mem_cons_of_mem _ hmem)
      | down => exact List.forall_mem_cons.2 ⟨hdirectory, habove⟩
    rcases ih habove' hnext with ⟨rfl, rfl⟩ | ⟨before, last, rfl, hlast⟩
    · cases hstep with
      | stays => exact absurd hfile hdirectory
      | up hup => exact absurd hfile (habove _ (hup ▸ List.mem_cons_self))
      | down hpart => exact .inr ⟨[], part, rfl, hpart⟩
    · exact .inr ⟨part :: before, last, rfl, hlast⟩

theorem goAll_of_find (h : root.find path = .ok entry) : root.goAll [] (pathParts path) = .ok entry := by
  rw [Entry.find] at h
  split_ifs at h
  exact h

theorem Entry.Proper.find (hroot : root.Proper) (h : root.find path = .ok entry) : entry.Proper :=
  goAll_proper hroot (List.forall_mem_nil _) (goAll_of_find h)

theorem lastName?_of_find (h : root.find path = .ok entry) (hfile : entry.IsFile) :
    lastName? path = some (nameAt path []) := by
  rcases goAll_isFile (List.forall_mem_nil _) (goAll_of_find h) hfile with
    ⟨hparts, -⟩ | ⟨before, part, hparts, hpart⟩
  · exact absurd hparts (List.splitOn_ne_nil _ _)
  · rw [lastName?_of_parts hparts hpart, nameAt, List.getLast?_nil, hparts, List.getLast?_concat,
      Option.getD_some]

end

end MarathiScript
