/-
  MarathiScript.Session.Execution — running blocks.

  `exec limit fuel block s` runs the statements of a block one after the other from the
  session `s`. A program may run for ever, so the run has fuel: each statement, each round of
  a loop and each call takes one unit from what its parts and its successors get, and `none`
  means that the fuel did not suffice. A run that ends gives its verdict and its session;
  after an error the session is the one in which the error arose, with the call frames taken
  off. No more than `limit` calls are in progress at a time.

  A loop that goes on is the same statement again in front of the same rest, and a counting
  loop whose opening statement has run is one without an opening statement.
-/

import MarathiScript.Session

namespace MarathiScript

open Session

/-- Runs a block with at most `fuel` nested or successive statements. -/
def exec (limit : Nat) : Nat → Block → Session → Option (Outcome Unit)
  | 0, _, _ => none
  | _ + 1, [], s => some ⟨.ok (), s⟩
  | fuel + 1, stmt :: rest, s =>
    match stmt with
    | .declare name value | .assign name value =>
      (s.evaluate value).andThen fun v s => exec limit fuel rest (s.bind name v)
    | .print value =>
      (s.evaluate value).andThen fun v s => exec limit fuel rest (s.print v)
    | .branch condition consequence alternative =>
      (s.ask condition).andThen fun holds s =>
        match holds, alternative with
        | true, _ =>
          (exec limit fuel consequence (s.note .choseConsequence)).bind
            fun o => o.andThen fun _ s => exec limit fuel rest s
        | false, some block =>
          (exec limit fuel block (s.note .choseAlternative)).bind
            fun o => o.andThen fun _ s => exec limit fuel rest s
        | false, none => exec limit fuel rest s
    | .whilst condition body =>
      (s.test condition).andThen fun holds s =>
        if holds then
          (exec limit fuel body s).bind
            fun o => o.andThen fun _ s => exec limit fuel (.whilst condition body :: rest) s
        else exec limit fuel rest s
    | .count (some init) condition step body =>
      (exec limit fuel [init] s).bind
        fun o => o.andThen fun _ s => exec limit fuel (.count none condition step body :: rest) s
    | .count none condition step body =>
      (s.test condition).andThen fun holds s =>
        if holds then
          (exec limit fuel body s).bind
            fun o => o.andThen fun _ s =>
              (exec limit fuel [step] s).bind
                fun o => o.andThen fun _ s =>
                  exec limit fuel (.count none condition step body :: rest) s
        else exec limit fuel rest s
    | .define name parameters body =>
      exec limit fuel rest (s.define name ⟨parameters, body⟩)
    | .call name arguments =>
      (s.prepare limit name arguments).andThen fun (f, frame) s =>
        (exec limit fuel f.body (s.enter name frame)).bind
          fun o => Outcome.andThen ⟨o.result, o.session.leave⟩
            fun _ s => exec limit fuel rest s

end MarathiScript
