/-
  MarathiScript.Proofs.Command.Responses — what the words of a command line are answered.

  The tool answers the words of a command line in a directory with a response, if the programs that
  it has to run come to an end (`Responds`). Fuel decides only whether there is an answer: with
  more of it the answer is the same (`respondIn_mono`), so there is one at most
  (`Responds.unique`). The reader of the words is any that reads the words in question as the
  invocation in question, and the time that is told is any.

  `run` goes its own way from a source to the lines, and shows those printed before an error too.
  Its failure is that of the source (`runFinding_failure`), and what it shows are the lines of the
  session that the program leaves behind, each with a line break after it, or all as the report
  (`Session.shown`).

  Proved (`commands_agree`): `run` answers as the source comes to its end (`RunAnswer`), and
  `tokens` and `ast` fail, with the same message and exit code, if the source cannot be scanned, or
  for `ast` not be parsed, and only then.
-/

import MarathiScript.Proofs.Source
import MarathiScript.CommandLine.Words

namespace MarathiScript

/-- The words of a command line, given in the directory `root`, are answered, where `elapsed` is
told as the time that it took. -/
def Responds (read : WordReader) (elapsed : String) (root : Entry) (words : List String)
    (r : Response) : Prop :=
  ∃ fuel, (respondIn read fuel root words).map (· elapsed) = some r

/-! ## More fuel -/

section

variable {n m : Nat}

theorem map_mono {α β : Type} {p q : Option α} {f : α → β} {b : β}
    (hpq : ∀ a, p = some a → q = some a) (h : p.map f = some b) : q.map f = some b := by
  obtain ⟨a, ha, rfl⟩ := Option.map_eq_some_iff.1 h
  rw [hpq a ha]
  rfl

theorem runFinding_mono (hnm : n ≤ m) {limit : Nat} {report : Bool} {source : String} {f : Finding}
    (h : runFinding n limit report source = some f) : runFinding m limit report source = some f := by
  unfold runFinding at h ⊢
  rcases hload : load source with ⟨e | program, records⟩ <;> rw [hload] at h
  · exact h
  · exact map_mono (fun _ => exec_mono hnm) h

theorem withText_mono {path : String} {subject : Except PathError Entry}
    {next more : String → Option Finding} {f : Finding}
    (hnext : ∀ text f, next text = some f → more text = some f)
    (h : withText path subject next = some f) : withText path subject more = some f := by
  unfold withText at h ⊢
  rcases hread : readSubject subject with e | ⟨text, size⟩ <;> rw [hread] at h
  · exact h
  · exact map_mono (hnext text) h

theorem TestFile.run_mono (hnm : n ≤ m) {t : TestFile} {verdict : List Record × Option String}
    (h : t.run n = some verdict) : t.run m = some verdict := by
  unfold TestFile.run at h ⊢
  rcases htext : t.text with e | ⟨text, size⟩ <;> rw [htext] at h
  · exact h
  · exact map_mono (fun _ => map_mono fun _ => runFinding_mono hnm) h

theorem runTests_mono (hnm : n ≤ m) {ts : List TestFile}
    {verdicts : List (TestFile × List Record × Option String)} (h : runTests n ts = some verdicts) :
    runTests m ts = some verdicts := by
  induction ts generalizing verdicts with
  | nil => exact h
  | cons t ts ih =>
    obtain ⟨verdict, ht, h⟩ := Option.bind_eq_some_iff.1 h
    obtain ⟨rest, hrest, h⟩ := Option.bind_eq_some_iff.1 h
    show (t.run m).bind _ = _
    rw [t.run_mono hnm ht, Option.bind_some]
    show (runTests m ts).bind _ = _
    rw [ih hrest]
    exact h

theorem Invocation.respond_mono (hnm : n ≤ m) {i : Invocation} {subject : Except PathError Entry}
    {answer : String → Response} (h : i.respond n subject = some answer) :
    i.respond m subject = some answer := by
  obtain ⟨verbosity, command⟩ := i
  cases command with
  | run file limit report =>
    exact map_mono (fun _ => withText_mono fun _ _ => runFinding_mono hnm) h
  | test path => exact map_mono (fun _ => runTests_mono hnm) h
  | tokens | tree | version => exact h

theorem respondIn_mono (hnm : n ≤ m) {read : WordReader} {root : Entry} {words : List String}
    {answer : String → Response} (h : respondIn read n root words = some answer) :
    respondIn read m root words = some answer := by
  unfold respondIn at h ⊢
  rcases hwords : read words with _ | i <;> rw [hwords] at h
  · exact h
  · exact i.respond_mono hnm h

end

section

variable {read : WordReader} {elapsed : String} {root : Entry} {words : List String} {r r' : Response}

theorem Responds.unique (h : Responds read elapsed root words r) (h' : Responds read elapsed root words r') :
    r = r' := by
  obtain ⟨n, hn⟩ := h
  obtain ⟨m, hm⟩ := h'
  exact eq_of_mono (fun fuel => (respondIn read fuel root words).map (· elapsed))
    (fun _ _ _ hle => map_mono fun _ => respondIn_mono hle) hn hm

theorem Responds.iff_eq (h : Responds read elapsed root words r) :
    Responds read elapsed root words r' ↔ r' = r :=
  ⟨fun h' => h'.unique h, fun heq => heq ▸ h⟩

theorem responds_of_words (fuel : Nat) {i : Invocation} {answer : String → Response}
    (hwords : read words = .ok i)
    (h : i.respond fuel (root.find (i.command.path?.getD ".")) = some answer) :
    Responds read elapsed root words (answer elapsed) := by
  refine ⟨fuel, ?_⟩
  rw [respondIn, hwords]
  show (i.respond fuel _).map _ = _
  rw [h, Option.map_some]

end

/-! ## Commands on one source -/

section

variable {fuel limit : Nat} {report : Bool} {source : String}

theorem runFinding_error {e : ScriptError} (h : (load source).1 = .error e) :
    ∃ records, runFinding fuel limit report source = some ⟨"", records, some e.message⟩ := by
  have hload : load source = (.error e, (load source).2) := Prod.ext h rfl
  exact ⟨_, by rw [runFinding, hload]⟩

/-- What `run` shows of the lines of a session: each with a line break after it, or all as the
report. -/
def Session.shown (report : Bool) (s : Session) : String :=
  if report then s.report ++ "\n" else String.join (s.lines.map (· ++ "\n"))

theorem runFinding_program {program : Block} (h : (load source).1 = .ok program) :
    ∃ records : Outcome Unit → List Record, runFinding fuel limit report source =
      (exec limit fuel program .fresh).map fun o =>
        ⟨o.session.shown report, records o, match o.result with
          | .ok _ => none
          | .error e => some (ScriptError.run e).message⟩ := by
  have hload : load source = (.ok program, (load source).2) := Prod.ext h rfl
  exact ⟨fun o => (load source).2 ++ o.session.records, by rw [runFinding, hload]; rfl⟩

/-- The message that a result is told of, if it is a failure. -/
def failureOf {α : Type} : Except ScriptError α → Option String
  | .ok _ => none
  | .error e => some e.message

/-- `run` fails as the source does. -/
theorem runFinding_failure (fuel limit : Nat) (report : Bool) (source : String) :
    (runFinding fuel limit report source).map (·.failure) =
      (runSource limit fuel source).map failureOf := by
  rcases hload : (load source).1 with e | program
  · obtain ⟨records, hfinding⟩ := runFinding_error hload
    rw [hfinding, runSource_error hload]
    rfl
  · obtain ⟨records, hfinding⟩ := runFinding_program hload
    rw [hfinding, runSource_program hload, Option.map_map, Option.map_map]
    congr 1
    funext o
    rcases o with ⟨_ | _, s⟩ <;> rfl

end

/-! ## The answers -/

/-- The answer to a source that is no program: nothing is shown but the failure. -/
def Response.failure (e : ScriptError) : Response := ⟨1, "", "Error: " ++ e.message ++ "\n"⟩

/-- The answer of `run` to a source that comes to this result. -/
inductive RunAnswer (limit : Nat) (report : Bool) (source : String) :
    Except ScriptError (List String) → Response → Prop
  | unscanned {e : ScanError} : scan source = .error e →
      RunAnswer limit report source (.error (.scan e)) (.failure (.scan e))
  | unparsed {ts : List Token} {e : ParseError} : scan source = .ok ts → parse ts = .error e →
      RunAnswer limit report source (.error (.parse e)) (.failure (.parse e))
  /-- What was printed before the error is shown. -/
  | failed {program : Block} {s : Session} {e : RunError} : Spells source program →
      Ends limit program .fresh ⟨.error e, s⟩ →
        RunAnswer limit report source (.error (.run e))
          ⟨1, s.shown report, "Error: " ++ (ScriptError.run e).message ++ "\n"⟩
  | ran {program : Block} {s : Session} : Spells source program →
      Ends limit program .fresh ⟨.ok (), s⟩ →
        RunAnswer limit report source (.ok s.lines) ⟨0, s.shown report, ""⟩

section

variable {limit : Nat} {report : Bool} {source : String} {result : Except ScriptError (List String)}

theorem exists_runAnswer (report : Bool) (h : SourceEnds limit source result) :
    ∃ r, RunAnswer limit report source result r := by
  cases sourceEnds_iff.1 h with
  | unscanned hscan => exact ⟨_, .unscanned hscan⟩
  | unparsed hscan hparse => exact ⟨_, .unparsed hscan hparse⟩
  | failed hspells hends => exact ⟨_, .failed hspells hends⟩
  | ran hspells hends => exact ⟨_, .ran hspells hends⟩

theorem RunAnswer.code {r : Response} (h : RunAnswer limit report source result r) :
    r.code = 0 ↔ ∃ lines, result = .ok lines := by
  cases h with
  | unscanned | unparsed | failed => exact ⟨nofun, fun ⟨_, hok⟩ => nomatch hok⟩
  | @ran _ s => exact ⟨fun _ => ⟨s.lines, rfl⟩, fun _ => rfl⟩

/-- `run` finds what it answers. -/
theorem RunAnswer.found {r : Response} (h : RunAnswer limit report source result r) :
    ∃ fuel f, runFinding fuel limit report source = some f ∧ f.response 0 = r := by
  cases h with
  | unscanned hscan =>
    obtain ⟨records, hfinding⟩ := runFinding_error (load_unscanned hscan)
    exact ⟨0, _, hfinding, rfl⟩
  | unparsed hscan hparse =>
    obtain ⟨records, hfinding⟩ := runFinding_error (load_unparsed hscan hparse)
    exact ⟨0, _, hfinding, rfl⟩
  | failed hspells hends | ran hspells hends =>
    obtain ⟨fuel, ho⟩ := hends
    obtain ⟨records, hfinding⟩ := runFinding_program (load_spells hspells)
    rw [ho] at hfinding
    exact ⟨fuel, _, hfinding, rfl⟩

theorem RunAnswer.unique {result' : Except ScriptError (List String)} {r r' : Response}
    (h : RunAnswer limit report source result r) (h' : RunAnswer limit report source result' r') :
    r = r' := by
  obtain ⟨n, f, hn, rfl⟩ := h.found
  obtain ⟨m, f', hm, rfl⟩ := h'.found
  have hf : f = f' := eq_of_mono (fun fuel => runFinding fuel limit report source)
    (fun _ _ _ hle => runFinding_mono hle) hn hm
  rw [hf]

theorem loadTokens_eq : loadTokens source =
    ((scan source).mapError ScriptError.scan, (loadTokens source).2) := rfl

theorem tokensFinding_unscanned {json : Bool} {e : ScanError} (h : scan source = .error e) :
    (tokensFinding json source).response 0 = .failure (.scan e) := by
  rw [tokensFinding, loadTokens_eq, h]
  rfl

theorem tokensFinding_scanned {json : Bool} {ts : List Token} (h : scan source = .ok ts) :
    (tokensFinding json source).failure = none := by
  rw [tokensFinding, loadTokens_eq, h]
  rfl

theorem treeFinding_error {json : Bool} {e : ScriptError} (h : (load source).1 = .error e) :
    (treeFinding json source).response 0 = .failure e := by
  have hload : load source = (.error e, (load source).2) := Prod.ext h rfl
  rw [treeFinding, hload]
  rfl

theorem treeFinding_program {json : Bool} {program : Block} (h : (load source).1 = .ok program) :
    (treeFinding json source).failure = none := by
  have hload : load source = (.ok program, (load source).2) := Prod.ext h rfl
  rw [treeFinding, hload]

end

/-- Without a log an answer without a failure has nothing on the error output. -/
theorem response_succeeds {f : Finding} (h : f.failure = none) : f.response 0 = ⟨0, f.out, ""⟩ := by
  rw [Finding.response, h]
  rfl

theorem fromUTF8?_toUTF8 (text : String) : String.fromUTF8? text.toUTF8 = some text := by
  have hvalid : text.toUTF8.IsValidUTF8 := text.isValidUTF8
  rw [String.fromUTF8?, dif_pos hvalid]
  rfl

theorem readText_file {bytes : ByteArray} {source : String}
    (hsource : String.fromUTF8? bytes = some source) :
    (Entry.file bytes).readText = .ok (source, bytes.size) := by
  simp only [Entry.readText, hsource]

theorem withText_file {file : String} {bytes : ByteArray} {source : String}
    (hsource : String.fromUTF8? bytes = some source) (next : String → Option Finding) :
    (withText file (.ok (.file bytes)) next).map (fun f (_ : String) => f.response 0) =
      (next source).map fun f _ => f.response 0 := by
  rw [withText, readSubject, readText_file hsource]
  simp only [Option.map_map]
  rfl

/-- A command that goes on with the text of its file answers with what it finds. -/
theorem responds_of_finding (fuel : Nat) {read : WordReader} {elapsed : String} {root : Entry}
    {file : String} {bytes : ByteArray} {source : String} {words : List String} {command : Command}
    {next : String → Option Finding} {f : Finding} (hfile : root.find file = .ok (.file bytes))
    (hsource : String.fromUTF8? bytes = some source) (hwords : read words = .ok ⟨0, command⟩)
    (hpath : command.path? = some file)
    (hrespond : ∀ subject, Invocation.respond fuel ⟨0, command⟩ subject =
      (withText file subject next).map fun f _ => f.response 0) (hnext : next source = some f) :
    Responds read elapsed root words (f.response 0) := by
  have hanswer : Invocation.respond fuel ⟨0, command⟩ (root.find (command.path?.getD ".")) =
      some fun _ => f.response 0 := by
    rw [hpath, Option.getD_some, hrespond, hfile, withText_file hsource, hnext, Option.map_some]
  exact responds_of_words fuel hwords hanswer

/-- On a file that is a text in UTF-8, and without a log: `run` answers as its source comes to an end
under the limit, with 0 for success and only then; and `tokens` and `ast` fail, as `run` does then,
if the source cannot be scanned, or for `ast` if it spells no program, and else succeed. -/
theorem commands_agree (read : WordReader) (elapsed : String) {root : Entry} {file : String}
    {bytes : ByteArray} {source : String} (hfile : root.find file = .ok (.file bytes))
    (hsource : String.fromUTF8? bytes = some source) :
    (∀ words limit report result, read words = .ok ⟨0, .run file limit report⟩ →
      SourceEnds limit source result →
        ∃ r, RunAnswer limit report source result r ∧
          (r.code = 0 ↔ ∃ lines, result = .ok lines) ∧
          ∀ r', Responds read elapsed root words r' ↔ r' = r) ∧
    (∀ words json, read words = .ok ⟨0, .tokens file json⟩ →
      ∃ r, (∀ e, scan source = .error e → r = .failure (.scan e)) ∧
        (∀ ts, scan source = .ok ts → r.code = 0 ∧ r.err = "") ∧
        ∀ r', Responds read elapsed root words r' ↔ r' = r) ∧
    ∀ words json, read words = .ok ⟨0, .tree file json⟩ →
      ∃ r, (∀ e, scan source = .error e → r = .failure (.scan e)) ∧
        (∀ ts e, scan source = .ok ts → parse ts = .error e → r = .failure (.parse e)) ∧
        (∀ program, Spells source program → r.code = 0 ∧ r.err = "") ∧
        ∀ r', Responds read elapsed root words r' ↔ r' = r := by
  refine ⟨fun words limit report result hwords hends => ?_, fun words json hwords => ?_,
    fun words json hwords => ?_⟩
  · obtain ⟨r, hr⟩ := exists_runAnswer report hends
    obtain ⟨fuel, f, hfound, hf⟩ := hr.found
    have hanswer : Responds read elapsed root words r :=
      hf ▸ responds_of_finding fuel hfile hsource hwords rfl (fun _ => rfl) hfound
    exact ⟨r, hr, hr.code, fun r' => hanswer.iff_eq⟩
  · have hanswer : Responds read elapsed root words ((tokensFinding json source).response 0) :=
      responds_of_finding 0 hfile hsource hwords rfl (fun _ => rfl) rfl
    refine ⟨_, fun e hscan => tokensFinding_unscanned hscan, fun ts hscan => ?_, fun r' => hanswer.iff_eq⟩
    rw [response_succeeds (tokensFinding_scanned hscan)]
    exact ⟨rfl, rfl⟩
  · have hanswer : Responds read elapsed root words ((treeFinding json source).response 0) :=
      responds_of_finding 0 hfile hsource hwords rfl (fun _ => rfl) rfl
    refine ⟨_, fun e hscan => treeFinding_error (load_unscanned hscan),
      fun ts e hscan hparse => treeFinding_error (load_unparsed hscan hparse), fun program hspells => ?_,
      fun r' => hanswer.iff_eq⟩
    rw [response_succeeds (treeFinding_program (load_spells hspells))]
    exact ⟨rfl, rfl⟩

/-- A program that prints a line and then calls no function, and one that prints two lines: `run`
shows the lines, bare or under the heading of the report, and fails on the first program only, while
`ast` succeeds on it. -/
theorem commands_agree_failing :
    let failing := "Chapa(\"a\");f();"
    let passing := "Chapa(\"a\");Chapa(\"b\");"
    let root : Entry := .directory
      [("a.marathi", .file failing.toUTF8), ("b.marathi", .file passing.toUTF8)]
    let answered := fun words r => ∀ r', Responds Invocation.ofWords "1.23ms" root words r' ↔ r' = r
    root.find "a.marathi" = .ok (.file failing.toUTF8) ∧
      root.find "b.marathi" = .ok (.file passing.toUTF8) ∧
      SourceEnds 3 failing (.error (.run (.undefinedFunction "f"))) ∧
      SourceEnds defaultCallLimit passing (.ok ["a", "b"]) ∧
      answered ["run", "a.marathi", "--max-call-depth", "3"]
        ⟨1, "a\n", "Error: NameError: undefined function 'f'\n"⟩ ∧
      answered ["run", "a.marathi", "--max-call-depth", "3", "--report"]
        ⟨1, "PROGRAM OUTPUT :\n                 a\n", "Error: NameError: undefined function 'f'\n"⟩ ∧
      answered ["run", "b.marathi"] ⟨0, "a\nb\n", ""⟩ ∧
      ∃ r, answered ["ast", "a.marathi"] r ∧ r.code = 0 ∧ r.err = "" := by
  intro failing passing root answered
  have ha : pathParts "a.marathi" = ["a.marathi".toList] := by decide +kernel
  have hb : pathParts "b.marathi" = ["b.marathi".toList] := by decide +kernel
  have hfailing : root.find "a.marathi" = .ok (.file failing.toUTF8) := by
    simp [root, Entry.find, ha, Entry.goAll, Entry.go]
  have hpassing : root.find "b.marathi" = .ok (.file passing.toUTF8) := by
    simp [root, Entry.find, hb, Entry.goAll, Entry.go]
  have hscan : scan failing = .ok [⟨.print, "Chapa", 0⟩, ⟨.leftParen, "(", 5⟩, ⟨.string, "a", 6⟩,
      ⟨.rightParen, ")", 9⟩, ⟨.semicolon, ";", 10⟩, ⟨.identifier, "f", 11⟩, ⟨.leftParen, "(", 12⟩,
      ⟨.rightParen, ")", 13⟩, ⟨.semicolon, ";", 14⟩] := scan_ok_iff.2 (by decide +kernel)
  have hscan' : scan passing = .ok [⟨.print, "Chapa", 0⟩, ⟨.leftParen, "(", 5⟩, ⟨.string, "a", 6⟩,
      ⟨.rightParen, ")", 9⟩, ⟨.semicolon, ";", 10⟩, ⟨.print, "Chapa", 11⟩, ⟨.leftParen, "(", 16⟩,
      ⟨.string, "b", 17⟩, ⟨.rightParen, ")", 20⟩, ⟨.semicolon, ";", 21⟩] :=
    scan_ok_iff.2 (by decide +kernel)
  have hspells : Spells failing [.print (.string "a"), .call "f" []] := ⟨_, hscan, rfl⟩
  have hspells' : Spells passing [.print (.string "a"), .print (.string "b")] := ⟨_, hscan', rfl⟩
  have hends : Ends 3 [.print (.string "a"), .call "f" []] .fresh ⟨.error (.undefinedFunction "f"), _⟩ :=
    ⟨10, rfl⟩
  have hends' : Ends defaultCallLimit [.print (.string "a"), .print (.string "b")] .fresh ⟨.ok (), _⟩ :=
    ⟨10, rfl⟩
  have hfails : SourceEnds 3 failing (.error (.run (.undefinedFunction "f"))) :=
    sourceEnds_iff.2 (.failed hspells hends)
  have hpasses : SourceEnds defaultCallLimit passing (.ok ["a", "b"]) :=
    sourceEnds_iff.2 (.ran hspells' hends')
  obtain ⟨hrun, -, htree⟩ :=
    commands_agree Invocation.ofWords "1.23ms" hfailing (fromUTF8?_toUTF8 failing)
  obtain ⟨hrun', -, -⟩ :=
    commands_agree Invocation.ofWords "1.23ms" hpassing (fromUTF8?_toUTF8 passing)
  refine ⟨hfailing, hpassing, hfails, hpasses, ?_, ?_, ?_, ?_⟩
  · obtain ⟨r, hr, -, hanswer⟩ :=
      hrun ["run", "a.marathi", "--max-call-depth", "3"] 3 false _ rfl hfails
    cases hr.unique (.failed hspells hends)
    exact hanswer
  · obtain ⟨r, hr, -, hanswer⟩ :=
      hrun ["run", "a.marathi", "--max-call-depth", "3", "--report"] 3 true _ rfl hfails
    cases hr.unique (.failed hspells hends)
    exact hanswer
  · obtain ⟨r, hr, -, hanswer⟩ := hrun' ["run", "b.marathi"] defaultCallLimit false _ rfl hpasses
    cases hr.unique (.ran hspells' hends')
    exact hanswer
  · obtain ⟨r, -, -, hcode, hanswer⟩ := htree ["ast", "a.marathi"] false rfl
    exact ⟨r, hanswer, hcode _ hspells⟩

end MarathiScript
