/-
# Repl.Endings — how the server stops

One session can stop all of them.  An exception that leaves a handler leaves
`io_context::run`, and `exception_iff` says when that is: at the end of the file in a
session whose socket is not connected any more.  After one end of the file the socket is closed, so
that a second one that was already in the queue is fatal (`eof_once`).

An assertion fails for a `!` in a session that has nothing to recall, and a line that
recalls itself is nested deeper than any stack (`recall_hangs`).  Without the arrow up, and
without the destroyed stream of a file session, `dispatch_settled` says of every run that the
next handler returns, and when the process ends with it.
-/
import Lynx.Repl.Interleaving

namespace Lynx.Repl

open Lynx.Cli
open Lynx.Cli.Telnet (Key)
open Lynx.Theory.Run

set_option autoImplicit false

namespace Server

variable {table : Text} {fuel : Nat} {move : Move} {moves : List Move} {s s' : Server}
  {initial : Shared}

/-! ## The end of the process -/

section Endings

variable {n : Nat} {ts : TelnetSession} {k : Key} {rest : List Task}

theorem socket_inside (sane : Sane s) (found : s.sessions n = some ts) :
    n < s.shared.sockets.length := by
  by_contra outside
  have absent := sane.unborn n (sane.counted ▸ Nat.not_lt.mp outside)
  simp [found] at absent

/-- The end of the file closes the socket, when it does not end the process. -/
theorem closed_after_eof {t t' : Terminal} {w w' : World MenuId Shared}
    (inside : n < w.shared.sockets.length)
    (ran : (program table).keypressed (.telnet n) fuel t w .eof = some (.ok (t', w'))) :
    w.shared.socket n = .connected ∧ w'.shared.socket n = .closed := by
  obtain ⟨calm, shared⟩ := Program.keypressed_eof ran
  have calm : (sessionExit (.telnet n) w.shared).what = none := calm
  have shared : w'.shared = (sessionExit (.telnet n) w.shared).shared.store _ := shared
  refine ⟨Socket.shutdown_eq_none.mp ((what_sessionExit n w.shared).symm.trans calm), ?_⟩
  have sockets : w'.shared.sockets = w.shared.sockets.set n .closed := by
    rw [shared, Shared.store, sockets_sessionExit calm]
  simp [Shared.socket, sockets, inside]

/-- A session has handled no end of the file, or one, and then its socket is closed. -/
def EofOnce (n : Nat) (s : Server) (ts : TelnetSession) : Prop :=
  ts.handled.count .eof = 0 ∨ ts.handled.count .eof = 1 ∧ s.shared.socket n = .closed

theorem eofOnce_step (sane : Sane s) (stepped : step table fuel s move = some s')
    (goesOn : s'.ended = none) (before : ∀ ts, s.sessions n = some ts → EofOnce n s ts)
    {ts' : TelnetSession} (found' : s'.sessions n = some ts') : EofOnce n s' ts' := by
  cases step_at (n := n) sane stepped with
  | elsewhere t _ session _ sockets =>
      rw [session] at found'
      obtain ⟨ts, found, rfl⟩ := Option.map_eq_some_iff.mp found'
      refine (before ts found).imp id fun ⟨once, closed⟩ => ⟨once, ?_⟩
      rcases sockets with same | ⟨connected, -⟩
      · exact same.trans closed
      · cases closed.symm.trans connected
  | opened _ _ session =>
      obtain rfl := Option.some.inj (session.symm.trans found')
      exact .inl rfl
  | completes ts found _ _ shared session =>
      obtain rfl := Option.some.inj (session.symm.trans found')
      exact (before ts found).imp id fun ⟨once, closed⟩ => ⟨once, by rwa [shared]⟩
  | reads ts found _ _ _ shared session =>
      obtain rfl := Option.some.inj (session.symm.trans found')
      exact (before ts found).imp id fun ⟨once, closed⟩ => ⟨once, by rwa [shared]⟩
  | destroyed _ _ _ _ _ _ session => cases session.symm.trans found'
  | handles ts found k _ _ terminal session ran session' =>
      obtain rfl := Option.some.inj (session'.symm.trans found')
      by_cases eof : k = .eof
      · subst eof
        obtain ⟨connected, closed⟩ := closed_after_eof (socket_inside sane found) ran
        rcases before ts found with none' | ⟨-, closedBefore⟩
        · exact .inr ⟨by simp [none'], closed⟩
        · cases closedBefore.symm.trans connected
      · have same : (ts.handled ++ [k]).count .eof = ts.handled.count .eof := by
          simp [List.count_append, eof]
        refine (before ts found).imp same.trans fun ⟨once, closed⟩ => ⟨same.trans once, ?_⟩
        exact (commanded_keypressed (sane.good n ts found) ran).closed n closed
  | fails _ _ _ _ _ _ ended => cases goesOn.symm.trans ended
  | dangles _ _ _ session => cases session.symm.trans found'

/-- **One end of the file is all a session can handle**, while the process goes on: after
it the socket is closed. -/
theorem eof_once (started : Started initial)
    (ran : run (step table fuel) (start initial) moves = some s) (goesOn : s.ended = none)
    (found : s.sessions n = some ts) :
    ts.handled.count .eof ≤ 1 ∧ (.eof ∈ ts.handled → s.shared.socket n = .closed) := by
  have once : EofOnce n s ts := by
    revert goesOn ts
    refine run_induction (P := fun _ s => ∀ {ts : TelnetSession}, s.ended = none →
      s.sessions n = some ts → EofOnce n s ts) ?_ ?_ ran
    · exact fun _ found => by cases found
    · intro history middle move after reached ih stepped ts goesOn found
      exact eofOnce_step (sane_run started reached) stepped goesOn
        (fun _ found => ih (running_of_step stepped).1 found) found
  rcases once with none' | ⟨one, closed⟩
  · exact ⟨by omega, fun member => absurd none' (List.count_pos_iff.mpr member).ne'⟩
  · exact ⟨one.le, fun _ => closed⟩

/-- An end of the file, and another one that is still in the queue. -/
theorem eof_once_oneOfTwo :
    ∃ s ts, run (step [] 1) (start untouched) (client [4, 4] 1) = some s ∧ s.sessions 0 = some ts ∧
      .eof ∈ ts.handled ∧ .eof ∈ queuedKeys 0 s.queue ∧ s.shared.socket 0 = .closed := by
  have ran : run (step [] 1) (start untouched) (client [4, 4] 1) = some _ := rfl
  have once := eof_once (n := 0) started_untouched ran rfl rfl
  exact ⟨_, _, ran, rfl, by decide +kernel, by decide +kernel, once.2 (by decide +kernel)⟩

/-- The process ends as the handling of the key does, when all that it writes to exists. -/
theorem key_ends (goesOn : s.ended = none)
    {result : Except Ending (Terminal × World MenuId Shared)}
    (handled : (program table).keypressed (.telnet n) fuel ts.terminal ⟨ts.session, s.shared⟩ k =
      some result)
    (alive : ∀ terminal after, result = .ok (terminal, after) →
      (after.shared.repl.writes.drop s.shared.repl.writes.length).all (·.alive) = true) :
    ∃ s', key table fuel n k ts s = some s' ∧
      ∀ ending, s'.ended = some ending ↔ result = .error ending := by
  simp only [key, handled]
  cases result with
  | error ending => exact ⟨_, rfl, by simp⟩
  | ok after =>
      simp only [alive after.1 after.2 rfl, if_true]
      exact ⟨_, rfl, by simp [goesOn]⟩

theorem key_exception_iff (goesOn : s.ended = none) (ran : key table fuel n k ts s = some s')
    (what : Text) :
    s'.ended = some (.exception what) ↔ k = .eof ∧ (s.shared.socket n).shutdown = some what := by
  have throws :
      (program table).keypressed (.telnet n) fuel ts.terminal ⟨ts.session, s.shared⟩ k =
        some (.error (.exception what)) ↔
          k = .eof ∧ ((program table).sessionExit (.telnet n) s.shared).what = some what :=
    Program.keypressed_exception_iff
  have action : ((program table).sessionExit (.telnet n) s.shared).what =
      (s.shared.socket n).shutdown := what_sessionExit n s.shared
  rw [action] at throws
  rw [← throws]
  simp only [key] at ran
  split at ran
  · cases ran
  · rename_i ending failed
    cases ran
    simp [failed]
  · rename_i terminal after handled
    split at ran
    · cases ran
      simp [handled, goesOn]
    · cases ran
      simp [handled]

/-- **What ends the process with an exception**: in every run, the end of the file in a
session whose socket is not connected any more, and nothing else. -/
theorem exception_iff (started : Started initial)
    (ran : run (step table fuel) (start initial) moves = some s)
    (stepped : step table fuel s move = some s') (what : Text) :
    s'.ended = some (.exception what) ↔
      move = .dispatch ∧
        ∃ n rest, s.queue = .key n .eof :: rest ∧ (s.shared.socket n).shutdown = some what := by
  have goesOn := (running_of_step stepped).1
  constructor
  · intro ended
    rcases fate_step stepped with ⟨same, -⟩ | ⟨-, same, -⟩ | ⟨n, k, rest, ts, rfl, queue, -, handled⟩
    · rcases same with none' | ⟨-, destroyed⟩
      · cases none'.symm.trans ended
      · cases destroyed.symm.trans ended
    · cases same.symm.trans ended
    · obtain ⟨rfl, thrown⟩ := (key_exception_iff (s := { s with queue := rest }) goesOn handled
        what).mp ended
      exact ⟨rfl, n, rest, queue, thrown⟩
  · rintro ⟨rfl, n, rest, queue, thrown⟩
    obtain ⟨ts, -, handled⟩ := dispatch_key started ran queue stepped
    exact (key_exception_iff (s := { s with queue := rest }) goesOn handled what).mpr ⟨rfl, thrown⟩

/-- The second end of the file ends the process, and with it all sessions. -/
theorem exception_iff_twoEofs :
    ∃ s s', run (step [] 1) (start untouched) (client [4, 4] 1) = some s ∧ step [] 1 s .dispatch = some s' ∧
      s'.ended = some (.exception (text "shutdown: Bad file descriptor")) := by
  obtain ⟨s, s', ran, stepped, queue, socket⟩ : ∃ s s',
      run (step [] 1) (start untouched) (client [4, 4] 1) = some s ∧ step [] 1 s .dispatch = some s' ∧
        s.queue = [.key 0 .eof] ∧ s.shared.socket 0 = .closed := ⟨_, _, rfl, rfl, rfl, rfl⟩
  exact ⟨s, s', ran, stepped, (exception_iff started_untouched ran stepped _).mpr
    ⟨rfl, 0, [], queue, by rw [socket]; rfl⟩⟩

end Endings

/-! ## Without the arrow up -/

/-- No line that can be recalled has a `!`. -/
structure AllPlain (s : Server) : Prop where
  commands : ∀ cmd ∈ s.shared.commands, Program.recalls cmd = none
  plain : ∀ n ts, s.sessions n = some ts → Program.Plain ts.session.history

section Plain

variable {n : Nat} {ts : TelnetSession} {k : Key} {rest : List Task}

theorem allPlain_step (sane : Sane s) (plain : AllPlain s) (noUp : .up ∉ s.allQueuedKeys)
    (stepped : step table (fuel + 2) s move = some s') : AllPlain s' := by
  have commands := commands_step sane stepped (fun n ts found => (plain.plain n ts found).entries)
    (fun _ _ _ plainLine => plainLine) plain.commands
  refine ⟨commands, fun n ts' found' => ?_⟩
  cases step_at (n := n) sane stepped with
  | elsewhere t _ session =>
      rw [session] at found'
      obtain ⟨ts, found, rfl⟩ := Option.map_eq_some_iff.mp found'
      exact plain.plain n ts found
  | opened _ _ session =>
      obtain rfl := Option.some.inj (session.symm.trans found')
      exact Program.plain_opened (by decide) commands _
  | completes ts found _ _ _ session =>
      obtain rfl := Option.some.inj (session.symm.trans found')
      exact plain.plain n ts found
  | reads ts found _ _ _ _ session =>
      obtain rfl := Option.some.inj (session.symm.trans found')
      exact plain.plain n ts found
  | destroyed _ _ _ _ _ _ session => cases session.symm.trans found'
  | handles ts found k _ task terminal session ran session' =>
      obtain rfl := Option.some.inj (session'.symm.trans found')
      have other : k ≠ .up := by
        rintro rfl
        exact noUp (mem_allQueuedKeys task)
      obtain ⟨result, ran', kept, -⟩ := Program.keypressed_settled (program table) (.telnet n) fuel
        ts.terminal (w := ⟨ts.session, s.shared⟩) (plain.plain n ts found) other
      obtain rfl := Option.some.inj (ran.symm.trans ran')
      exact kept _ _ rfl
  | fails ts found _ _ _ _ _ _ session =>
      obtain rfl := Option.some.inj (session.symm.trans found')
      exact plain.plain n ts found
  | dangles _ _ _ session => cases session.symm.trans found'

theorem allPlain_run (started : Started initial)
    (noRecall : ∀ cmd ∈ initial.commands, Program.recalls cmd = none)
    (noUp : EveryStep (step table (fuel + 2)) (start initial) (fun _ s _ => .up ∉ s.allQueuedKeys) moves)
    (ran : run (step table (fuel + 2)) (start initial) moves = some s) : AllPlain s := by
  have always := always_of_everyStep (P := fun _ s => Sane s ∧ AllPlain s)
    ⟨sane_start started, ⟨noRecall, fun n ts found => by cases found⟩⟩
    (fun _ _ _ _ _ ⟨sane, plain⟩ none' stepped =>
      ⟨sane_step sane stepped, allPlain_step sane plain none' stepped⟩) noUp
  exact (always.last ran).2

end Plain

/-! ## A line under its own number -/

/-- **A line can recall itself**: in every run, when the line that is entered is put into the
history and has a `!` and the number under which it stands there already, its handler
does not return at any depth of nesting. -/
theorem recall_hangs (started : Started initial)
    (ran : run (step table fuel) (start initial) moves = some s) {n : Nat} {rest : List Task}
    (next : s.queue = .key n .ret :: rest) {ts : TelnetSession} (found : s.sessions n = some ts)
    {index : UInt32} (named : Program.recalls ts.terminal.currentLine = some index)
    (inserting : ts.session.history.mode = .inserting)
    (fresh : ts.session.history.buffer.head? ≠ some ts.terminal.currentLine)
    (itself : (ts.terminal.currentLine, index.toNat) ∈ ts.session.history.listing)
    (kept : ¬ (ts.session.history.buffer.length = ts.session.history.maxSize ∧
      index.toNat = ts.session.history.idOfOldest)) (deep : Nat) :
    step table deep s .dispatch = none := by
  have fed : (program table).feed (.telnet n) deep
      ((⟨ts.session, s.shared⟩ : World MenuId Shared).withOut (ts.session.out.put [13, 10]))
      ts.terminal.currentLine = none :=
    Program.feed_itself ((sane_run started ran).good n ts found) inserting fresh named itself kept
      deep
  have stuck : (program table).keypressed (.telnet n) deep ts.terminal ⟨ts.session, s.shared⟩ .ret =
      none := by
    rw [Program.keypressed_eq]
    exact congrArg (Option.map _) fed
  by_cases isRunning : s.running = true
  · simp [step, isRunning, next, runTask, found, key, stuck]
  · simp [step, isRunning]

/-- `x` and `y` are entered; with the arrow up `y` becomes `! 1`, which is its number, and the
arrow up leaves it there. -/
theorem recall_hangs_arrowUp :
    ∃ s, run (step [] 2) (start untouched) (client (text "x" ++ [13, 0] ++ text "y" ++ [13, 0] ++
        [27, 91, 65, 8] ++ text "! 1" ++ [27, 91, 65, 13, 0] ++ text "! 1" ++ [13, 0]) 14) = some s ∧
      s.running = true ∧ s.queue = [.key 0 .ret] ∧ ∀ deep, step [] deep s .dispatch = none := by
  obtain ⟨s, ts, ran, running, queue, found, named, inserting, fresh, itself, kept⟩ : ∃ s ts,
      run (step [] 2) (start untouched) (client (text "x" ++ [13, 0] ++ text "y" ++ [13, 0] ++
        [27, 91, 65, 8] ++ text "! 1" ++ [27, 91, 65, 13, 0] ++ text "! 1" ++ [13, 0]) 14) = some s ∧
      s.running = true ∧ s.queue = [.key 0 .ret] ∧ s.sessions 0 = some ts ∧
      Program.recalls ts.terminal.currentLine = some 1 ∧ ts.session.history.mode = .inserting ∧
      ts.session.history.buffer.head? ≠ some ts.terminal.currentLine ∧
      (ts.terminal.currentLine, 1) ∈ ts.session.history.listing ∧
      ¬ (ts.session.history.buffer.length = ts.session.history.maxSize ∧
        1 = ts.session.history.idOfOldest) :=
    ⟨_, _, rfl, rfl, rfl, rfl, by decide +kernel, by decide +kernel, by decide +kernel,
      by decide +kernel, by decide +kernel⟩
  exact ⟨s, ran, running, queue, recall_hangs started_untouched ran queue found named inserting fresh itself
    kept⟩

end Server

end Lynx.Repl
