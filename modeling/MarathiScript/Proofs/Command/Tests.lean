/-
  MarathiScript.Proofs.Command.Tests — the tests that `test` tries, and what it tells of them.

  A test has a verdict of its own (`Verdict`): it is told by the path and the file, and no other
  test has a part in it (`Verdict.iff_eq`). A file that is no text or cannot be read fails, as does
  one whose source comes to an error. So the tests that are tried and what comes of them are
  determined by the tree (`TestsTried.unique`).

  What is told of them is stated as the text itself: two lines at most for each test
  (`verdictText`), and then the counts and the time (`summaryText`).

  Proved (`tests_reported`): in a proper tree, where every source that is tried comes to an end,
  `test` tries the tests below its path, each once and in the order of their places, tells the
  verdict of each, counts those that passed and those that failed, and exits with 1 if one failed
  and only then (`TestsReported`).
-/

import MarathiScript.Proofs.Command.Responses
import MarathiScript.Proofs.Files.Places

namespace MarathiScript

/-- What comes of a test: nothing if it passes, and else the message of its failure. -/
inductive Verdict (path : String) : Entry → Option String → Prop
  | passed {bytes : ByteArray} {source : String} {lines : List String} :
      String.fromUTF8? bytes = some source → SourceEnds defaultCallLimit source (.ok lines) →
        Verdict path (.file bytes) none
  | failed {bytes : ByteArray} {source : String} {e : ScriptError} :
      String.fromUTF8? bytes = some source → SourceEnds defaultCallLimit source (.error e) →
        Verdict path (.file bytes) (some e.message)
  | notText {bytes : ByteArray} : String.fromUTF8? bytes = none →
      Verdict path (.file bytes)
        (some ("Error reading " ++ path ++ ": stream did not contain valid UTF-8"))
  | unreadable (e : PathError) :
      Verdict path (.unreadable e) (some ("Error reading " ++ path ++ ": " ++ e.message))

/-- What is told of a test. -/
def verdictText (path : String) : Option String → String
  | none => "Running " ++ path ++ " ... OK\n"
  | some message => "Running " ++ path ++ " ... FAILED\n" ++ "  Error: " ++ message ++ "\n"

/-- What is told at the end. -/
def summaryText (passed failed : Nat) (elapsed : String) : String :=
  "\nTest Summary:\n" ++
  "  Passed: " ++ toString passed ++ "\n" ++
  "  Failed: " ++ toString failed ++ "\n" ++
  "  Time:   " ++ elapsed ++ "\n"

/-- How many tests passed. -/
def passedOf (tried : List (List String × Option String)) : Nat := tried.countP (·.2.isNone)

/-- How many tests failed. -/
def failedOf (tried : List (List String × Option String)) : Nat := tried.countP (·.2.isSome)

/-- The tests below a path that leads to the entry are those at these places, with these verdicts. -/
structure TestsTried (entry : Entry) (path : String) (tried : List (List String × Option String)) :
    Prop where
  places : TestPlaces entry path (tried.map (·.1))
  verdicts : ∀ t ∈ tried, ∃ file, entry.at? t.1 = some file ∧
    ∀ verdict, Verdict (pathAt path t.1) file verdict ↔ verdict = t.2

/-- The response tells of the tests below a path that were tried, and of the time that it took. -/
structure TestsReported (path : String) (tried : List (List String × Option String))
    (elapsed : String) (r : Response) : Prop where
  counted : passedOf tried + failedOf tried = tried.length
  out : r.out = String.join (tried.map fun t => verdictText (pathAt path t.1) t.2) ++
    summaryText (passedOf tried) (failedOf tried) elapsed
  failure : r.code = 1 ↔ 0 < failedOf tried
  success : r.code = 0 ↔ failedOf tried = 0

/-! ## Verdicts -/

section

variable {path : String} {file : Entry} {verdict : Option String}

/-- A test of a text is run as its source comes to an end. -/
theorem run_of_ends {bytes : ByteArray} {source : String} {result : Except ScriptError (List String)}
    (hsource : String.fromUTF8? bytes = some source) (h : SourceEnds defaultCallLimit source result) :
    ∃ fuel records, (TestFile.mk path (Entry.file bytes).readText).run fuel =
      some (records, failureOf result) := by
  obtain ⟨fuel, hrun⟩ := h
  have hfailure := runFinding_failure fuel defaultCallLimit false source
  rw [hrun, Option.map_some] at hfailure
  obtain ⟨f, hf, hresult⟩ := Option.map_eq_some_iff.1 hfailure
  refine ⟨fuel, readRecord path bytes.size :: f.records, ?_⟩
  rw [TestFile.run, readText_file hsource]
  simp only [sourceFinding, hf, Option.map_some, hresult]

theorem readingFailure_notText (path : String) : readingFailure path .notText =
    "Error reading " ++ path ++ ": stream did not contain valid UTF-8" :=
  String.append_assoc

theorem Verdict.runs (h : Verdict path file verdict) :
    ∃ fuel records, (TestFile.mk path file.readText).run fuel = some (records, verdict) := by
  cases h with
  | passed hsource hends | failed hsource hends => exact run_of_ends hsource hends
  | notText htext =>
    refine ⟨0, [], ?_⟩
    simp only [TestFile.run, Entry.readText, htext, readingFailure_notText]
  | unreadable => exact ⟨0, [], rfl⟩

theorem Verdict.unique {verdict' : Option String} (h : Verdict path file verdict)
    (h' : Verdict path file verdict') : verdict = verdict' := by
  obtain ⟨n, records, hn⟩ := h.runs
  obtain ⟨m, records', hm⟩ := h'.runs
  have hverdicts : (records, verdict) = (records', verdict') :=
    eq_of_mono (TestFile.mk path file.readText).run (fun _ _ _ hle => TestFile.run_mono hle) hn hm
  exact congrArg (·.2) hverdicts

theorem Verdict.iff_eq {verdict' : Option String} (h : Verdict path file verdict) :
    Verdict path file verdict' ↔ verdict' = verdict :=
  ⟨fun h' => h'.unique h, fun heq => heq ▸ h⟩

theorem exists_verdict (path : String) (hfile : file.IsFile)
    (hends : ∀ bytes source, file = .file bytes → String.fromUTF8? bytes = some source →
      ∃ result, SourceEnds defaultCallLimit source result) : ∃ verdict, Verdict path file verdict := by
  cases file with
  | directory entries => exact absurd hfile (Entry.not_isFile_directory entries)
  | unreadable e => exact ⟨_, .unreadable e⟩
  | file bytes =>
    rcases hsource : String.fromUTF8? bytes with _ | source
    · exact ⟨_, .notText hsource⟩
    · obtain ⟨e | lines, hresult⟩ := hends bytes source rfl hsource
      · exact ⟨_, .failed hsource hresult⟩
      · exact ⟨_, .passed hsource hresult⟩

end

/-! ## One test after the other -/

section

variable {entry : Entry} {path : String} {tried : List (List String × Option String)}

theorem exists_tried (hentry : entry.Proper)
    (hname : entry.IsFile → lastName? path = some (nameAt path []))
    (hends : ∀ place bytes source, entry.at? place = some (.file bytes) →
      IsTestName (nameAt path place) → String.fromUTF8? bytes = some source →
        ∃ result, SourceEnds defaultCallLimit source result) :
    ∃ tried, TestsTried entry path tried ∧
      entry.tests path = tried.map fun t => entry.testAt path t.1 := by
  obtain ⟨places, hplaces, htests⟩ := hentry.exists_tests hname
  have hverdict : ∀ place ∈ places, ∃ verdict file, entry.at? place = some file ∧
      Verdict (pathAt path place) file verdict := by
    intro place hplace
    obtain ⟨file, hat, hfile, htest⟩ := (hplaces.mem_iff place).1 hplace
    obtain ⟨verdict, h⟩ := exists_verdict (pathAt path place) hfile fun bytes source hbytes =>
      hends place bytes source (hbytes ▸ hat) htest
    exact ⟨verdict, file, hat, h⟩
  choose! verdict hverdict using hverdict
  refine ⟨places.map fun place => (place, verdict place), ⟨?_, ?_⟩, ?_⟩
  · rw [List.map_map]
    exact places.map_id'.symm ▸ hplaces
  · refine List.forall_mem_map.2 fun place hplace => ?_
    obtain ⟨file, hat, h⟩ := hverdict place hplace
    exact ⟨file, hat, fun _ => h.iff_eq⟩
  · rw [List.map_map]
    exact htests

theorem TestsTried.runs (h : TestsTried entry path tried) :
    ∀ t ∈ tried, ∃ fuel records, (entry.testAt path t.1).run fuel = some (records, t.2) := by
  intro t ht
  obtain ⟨file, hat, hverdict⟩ := h.verdicts t ht
  rw [Entry.testAt, hat]
  exact ((hverdict t.2).2 rfl).runs

/-- The tree determines which tests are tried, and what comes of each. -/
theorem TestsTried.unique {tried' : List (List String × Option String)} (h : TestsTried entry path tried)
    (h' : TestsTried entry path tried') : tried = tried' := by
  have hplaces : tried.map (·.1) = tried'.map (·.1) := h.places.unique h'.places
  have hlength : tried.length = tried'.length := by
    simpa only [List.length_map] using congrArg List.length hplaces
  refine List.ext_getElem hlength fun n hn hn' => ?_
  have hplace : tried[n].1 = tried'[n].1 := by
    simpa only [List.getElem?_map, List.getElem?_eq_getElem hn, List.getElem?_eq_getElem hn',
      Option.map_some, Option.some.injEq] using congrArg (·[n]?) hplaces
  obtain ⟨file, hat, hverdict⟩ := h.verdicts _ (List.getElem_mem hn)
  obtain ⟨file', hat', hverdict'⟩ := h'.verdicts _ (List.getElem_mem hn')
  rw [hplace] at hat hverdict
  cases hat.symm.trans hat'
  exact Prod.ext hplace ((hverdict' _).1 ((hverdict _).2 rfl))

/-- Tests that all come to a verdict are all run, and each keeps its own. -/
theorem exists_runTests
    (h : ∀ t ∈ tried, ∃ fuel records, (entry.testAt path t.1).run fuel = some (records, t.2)) :
    ∃ fuel results, runTests fuel (tried.map fun t => entry.testAt path t.1) = some results ∧
      results.map (fun result => (result.1, result.2.2)) =
        tried.map fun t => (entry.testAt path t.1, t.2) := by
  induction tried with
  | nil => exact ⟨0, [], rfl, rfl⟩
  | cons t tried ih =>
    obtain ⟨⟨n, records, hn⟩, hrest⟩ := List.forall_mem_cons.1 h
    obtain ⟨m, results, hm, hresults⟩ := ih hrest
    -- what is enough fuel for one test is so for all that need less
    refine ⟨max n m, (entry.testAt path t.1, records, t.2) :: results, ?_, ?_⟩
    · have hn := TestFile.run_mono (Nat.le_max_left n m) hn
      have hm := runTests_mono (Nat.le_max_right n m) hm
      simp only [List.map_cons, runTests, hn, hm]
      rfl
    · rw [List.map_cons, List.map_cons, hresults]

theorem countP_results {results : List (TestFile × List Record × Option String)}
    (h : results.map (fun result => (result.1, result.2.2)) =
      tried.map fun t => (entry.testAt path t.1, t.2)) (p : Option String → Bool) :
    (results.countP fun result => p result.2.2) = tried.countP fun t => p t.2 := by
  have hcount := congrArg (List.countP fun t => p t.2) h
  rw [List.countP_map, List.countP_map] at hcount
  exact hcount

theorem unlines_testLines (t : TestFile) (records : List Record) (verdict : Option String) :
    unlines (testLines (t, records, verdict)) = verdictText t.path verdict := by
  cases verdict with
  | none =>
    show unlines ["Running " ++ t.path ++ " ... OK"] = "Running " ++ t.path ++ (" ... OK" ++ "\n")
    simp only [unlines_cons, unlines_nil, String.append_empty, String.append_assoc]
  | some message =>
    show unlines ["Running " ++ t.path ++ " ... FAILED", "  Error: " ++ message] =
      "Running " ++ t.path ++ (" ... FAILED" ++ "\n") ++ "  Error: " ++ message ++ "\n"
    simp only [unlines_cons, unlines_nil, String.append_empty, String.append_assoc]

theorem unlines_summary (passed failed : Nat) (elapsed : String) :
    unlines ["", "Test Summary:", "  Passed: " ++ toString passed, "  Failed: " ++ toString failed,
      "  Time:   " ++ elapsed] = summaryText passed failed elapsed := by
  show _ = "\n" ++ "Test Summary:" ++ "\n" ++ "  Passed: " ++ toString passed ++ "\n" ++
    "  Failed: " ++ toString failed ++ "\n" ++ "  Time:   " ++ elapsed ++ "\n"
  simp only [unlines_cons, unlines_nil, String.empty_append, String.append_empty, String.append_assoc]

/-- What is printed of tests one after the other is the text of their verdicts. -/
theorem unlines_results {results : List (TestFile × List Record × Option String)}
    (h : results.map (fun result => (result.1, result.2.2)) =
      tried.map fun t => (entry.testAt path t.1, t.2)) :
    unlines (results.flatMap testLines) =
      String.join (tried.map fun t => verdictText (pathAt path t.1) t.2) := by
  have hlines : unlines (results.flatMap testLines) =
      String.join (results.map fun result => verdictText result.1.path result.2.2) := by
    rw [unlines_flatMap]
    congr 2
    funext ⟨t, records, verdict⟩
    exact unlines_testLines t records verdict
  have htexts := congrArg (List.map fun t => verdictText t.1.path t.2) h
  rw [List.map_map, List.map_map] at htexts
  rw [hlines]
  exact congrArg String.join htexts

theorem passedOf_add_failedOf (tried : List (List String × Option String)) :
    passedOf tried + failedOf tried = tried.length := by
  have hnot : passedOf tried = tried.countP fun t => ¬ t.2.isSome :=
    List.countP_congr fun t _ => by simp
  rw [hnot, failedOf, Nat.add_comm]
  exact (List.length_eq_countP_add_countP _).symm

theorem exists_testResponse (verbosity : Nat) (h : TestsTried entry path tried)
    (htests : entry.tests path = tried.map fun t => entry.testAt path t.1) :
    ∃ fuel answer, testResponse fuel verbosity path (.ok entry) = some answer ∧
      ∀ elapsed, TestsReported path tried elapsed (answer elapsed) := by
  obtain ⟨fuel, results, hrun, hresults⟩ := exists_runTests h.runs
  refine ⟨fuel, _, by rw [testResponse, subjectTests, htests, hrun, Option.map_some], fun elapsed => ?_⟩
  -- the records, which the verdicts leave open, go to the error output alone
  have hpassed := countP_results hresults Option.isNone
  have hfailed := countP_results hresults Option.isSome
  simp only [hpassed, hfailed]
  constructor
  · exact passedOf_add_failedOf tried
  · show unlines (results.flatMap testLines ++ _) = _
    rw [unlines_append, unlines_results hresults, unlines_summary]
    rfl
  · show (if failedOf tried = 0 then 0 else 1) = 1 ↔ 0 < failedOf tried
    split <;> omega
  · show (if failedOf tried = 0 then 0 else 1) = 0 ↔ failedOf tried = 0
    split <;> omega

end

/-- On a path that leads to an entry of a proper tree, where every test comes to an end, `test` has one
answer: it tries each test below the path once, tells its verdict and fails if one of them did. -/
theorem tests_reported {read : WordReader} {root entry : Entry} {path : String} {words : List String}
    {verbosity : Nat} (hroot : root.Proper) (hfind : root.find path = .ok entry)
    (hwords : read words = .ok ⟨verbosity, .test path⟩)
    (hends : ∀ place bytes source, entry.at? place = some (.file bytes) →
      IsTestName (nameAt path place) → String.fromUTF8? bytes = some source →
        ∃ result, SourceEnds defaultCallLimit source result) :
    ∃ tried, TestsTried entry path tried ∧ ∀ elapsed, ∃ r, TestsReported path tried elapsed r ∧
      ∀ r', Responds read elapsed root words r' ↔ r' = r := by
  obtain ⟨tried, htried, htests⟩ := exists_tried (hroot.find hfind) (lastName?_of_find hfind) hends
  obtain ⟨fuel, answer, hanswer, hreported⟩ := exists_testResponse verbosity htried htests
  refine ⟨tried, htried, fun elapsed => ⟨answer elapsed, hreported elapsed, fun r' => ?_⟩⟩
  refine (responds_of_words fuel hwords ?_).iff_eq
  show testResponse fuel verbosity path (root.find path) = some answer
  rw [hfind, hanswer]

/-- A test that passes, and a directory that has the name of a test and in it a file that cannot be
read. The notes are no test. -/
theorem tests_reported_unreadable :
    let source := "Chapa(\"a\");"
    let inner : Entry := .directory [("test_a.marathi", .unreadable .denied)]
    let root : Entry := .directory [("test_b.marathi", inner), ("notes.marathi", .file "?".toUTF8),
      ("test_a.marathi", .file source.toUTF8)]
    let message := "Error reading ./test_b.marathi/test_a.marathi: Permission denied (os error 13)"
    root.Proper ∧ root.find "." = .ok root ∧
      TestsTried root "."
        [(["test_a.marathi"], none), (["test_b.marathi", "test_a.marathi"], some message)] ∧
      ∃ r, r.code = 1 ∧ r.out = "Running ./test_a.marathi ... OK\n" ++
          "Running ./test_b.marathi/test_a.marathi ... FAILED\n" ++
          "  Error: Error reading ./test_b.marathi/test_a.marathi: Permission denied (os error 13)\n" ++
          "\nTest Summary:\n  Passed: 1\n  Failed: 1\n  Time:   1.23ms\n" ∧
        ∀ r', Responds Invocation.ofWords "1.23ms" root ["test"] r' ↔ r' = r := by
  intro source inner root message
  have hroot : root.Proper := by
    refine .directory (by decide +kernel) (by decide +kernel) ?_
    refine List.forall_mem_cons.2 ⟨?_, List.forall_mem_cons.2 ⟨.file _, ?_⟩⟩
    · exact .directory (by decide +kernel) (by decide +kernel) (List.forall_mem_singleton.2 (.unreadable _))
    · exact List.forall_mem_singleton.2 (.file _)
  have hparts : pathParts "." = [".".toList] := by decide +kernel
  have hfind : root.find "." = .ok root := by
    simp [root, Entry.find, hparts, Entry.goAll, Entry.go]
  -- the tests in the tree, by going down it
  have htests {place : List String} {file : Entry} (hat : root.at? place = some file) (hfile : file.IsFile)
      (htest : IsTestName (nameAt "." place)) : place = ["test_a.marathi"] ∧ file = .file source.toUTF8 ∨
        place = ["test_b.marathi", "test_a.marathi"] ∧ file = .unreadable .denied := by
    obtain ⟨x, hx, rest, rfl, hrest⟩ := Entry.at?_directory hfile hat
    simp only [List.mem_cons, List.not_mem_nil, or_false] at hx
    rcases hx with rfl | rfl | rfl
    · obtain ⟨y, hy, rest', rfl, hrest'⟩ := Entry.at?_directory hfile hrest
      cases List.mem_singleton.1 hy
      obtain ⟨rfl, rfl⟩ := (Entry.isFile_unreadable .denied).at?_iff.1 hrest'
      exact .inr ⟨rfl, rfl⟩
    · obtain ⟨rfl, -⟩ := (Entry.isFile_file _).at?_iff.1 hrest
      exact absurd htest (by decide +kernel)
    · obtain ⟨rfl, rfl⟩ := (Entry.isFile_file _).at?_iff.1 hrest
      exact .inl ⟨rfl, rfl⟩
  have hscan : scan source = .ok [⟨.print, "Chapa", 0⟩, ⟨.leftParen, "(", 5⟩, ⟨.string, "a", 6⟩,
      ⟨.rightParen, ")", 9⟩, ⟨.semicolon, ";", 10⟩] := scan_ok_iff.2 (by decide +kernel)
  have hspells : Spells source [.print (.string "a")] := ⟨_, hscan, rfl⟩
  have hends : Ends defaultCallLimit [.print (.string "a")] .fresh ⟨.ok (), _⟩ := ⟨10, rfl⟩
  have hpasses := sourceEnds_iff.2 (.ran hspells hends)
  have htried : TestsTried root "."
      [(["test_a.marathi"], none), (["test_b.marathi", "test_a.marathi"], some message)] := by
    refine ⟨⟨by decide +kernel, fun place => ⟨fun hmem => ?_, ?_⟩⟩, ?_⟩
    · simp only [List.map_cons, List.map_nil, List.mem_cons, List.not_mem_nil, or_false] at hmem
      rcases hmem with rfl | rfl
      · exact ⟨_, rfl, Entry.isFile_file _, by decide +kernel⟩
      · exact ⟨_, rfl, Entry.isFile_unreadable _, by decide +kernel⟩
    · rintro ⟨file, hplace, hfile, htest⟩
      rcases htests hplace hfile htest with ⟨rfl, -⟩ | ⟨rfl, -⟩
      · exact List.mem_cons_self
      · exact List.mem_cons_of_mem _ List.mem_cons_self
    · refine List.forall_mem_cons.2 ⟨⟨_, rfl, fun _ => ?_⟩, List.forall_mem_singleton.2 ⟨_, rfl, fun _ => ?_⟩⟩
      · exact (Verdict.passed (fromUTF8?_toUTF8 source) hpasses).iff_eq
      · exact (Verdict.unreadable .denied).iff_eq
  have htries : ∀ place bytes text, root.at? place = some (.file bytes) →
      IsTestName (nameAt "." place) → String.fromUTF8? bytes = some text →
        ∃ result, SourceEnds defaultCallLimit text result := by
    intro place bytes text hplace htest htext
    rcases htests hplace (Entry.isFile_file bytes) htest with ⟨-, hfile⟩ | ⟨-, hfile⟩ <;> cases hfile
    cases (fromUTF8?_toUTF8 source).symm.trans htext
    exact ⟨_, hpasses⟩
  have hwords : Invocation.ofWords ["test"] = .ok ⟨0, .test "."⟩ := rfl
  obtain ⟨tried, htried', hall⟩ := tests_reported hroot hfind hwords htries
  obtain ⟨r, h, hanswer⟩ := hall "1.23ms"
  cases htried'.unique htried
  exact ⟨hroot, hfind, htried, r, h.failure.2 (by decide), h.out.trans (by decide +kernel), hanswer⟩

end MarathiScript
