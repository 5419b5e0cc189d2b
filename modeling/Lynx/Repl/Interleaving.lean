/-
# Repl.Interleaving — what holds of all sessions at once

The sessions of `Repl.Server` share the menus, the colours, the stored commands
and the two lists of streams, and their handlers come in any order.  Two ways of
looking at a run make the results about one part of it hold here:

* `refines_repl` — what the moves do to the lists is a run of `Repl.step`, so that
  what `Repl.Monitor` and `Repl.Broadcast` say holds of the server;
* `session_run` — a session that exists is a run of the library on its own: it has
  handled its keys, and all the rest only writes to its stream and changes what is shared.

What sessions do to each other comes through the two lists and the stored commands.
`everybody_once` says who reads a broadcast when no file session was started: every other
session that exists, once.
-/
import Lynx.Repl.Broadcast
import Lynx.Repl.Server

namespace Lynx.Repl

open Lynx.Cli
open Lynx.Cli.Program (Input)
open Lynx.Cli.Telnet (Key)
open Lynx.Theory.Run

set_option autoImplicit false

namespace Server

variable {table : Text} {fuel : Nat} {move : Move} {moves : List Move} {s s' : Server}
  {initial : Shared}

/-! ## The lists of streams -/

theorem commands_telnet (sane : Sane s) (looping : s.shared.repl.phase = .loop) {n : Nat}
    (found : s.sessions n ≠ none) : s.shared.repl.commands (.telnet n) = true := by
  have listed := (sane.listed n).mp found
  simp [State.commands, looping, listed]

/-- One move is a run of `Repl.step`, of no event, of one, or of the commands in a line. -/
theorem repl_step (sane : Sane s) (stepped : step table fuel s move = some s') :
    ∃ events, run Repl.step s.shared.repl events = some s'.shared.repl := by
  obtain ⟨-, looping⟩ := running_of_step stepped
  have one {e : Event} (can : enabled s.shared.repl e = true)
      (shared : s'.shared.repl = effect s.shared.repl e) :
      ∃ events, run Repl.step s.shared.repl events = some s'.shared.repl :=
    ⟨[e], by rw [run_cons, step_eq_some_iff.mpr ⟨can, shared.symm⟩]; rfl⟩
  cases step_change stepped with
  | unchanged shared => exact ⟨[], by rw [shared]; rfl⟩
  | accepted shared => exact one (e := .accept) (by simp [enabled, looping]) (by rw [shared]; rfl)
  | destroyed n found shared =>
      have listed := (sane.listed n).mp found
      exact one (e := .readCompletes n) (by simp [enabled, looping, listed]) (by rw [shared]; rfl)
  | handled n ts found k terminal session ran =>
      have moved := commanded_keypressed (sane.good n ts found) ran
      obtain ⟨events, -, performed⟩ := moved.performs (commands_telnet sane looping (by simp [found]))
      exact ⟨events, performed⟩
  | logged level shared =>
      exact one (e := .log level) (by simp [enabled, looping]) (by rw [shared]; rfl)
  | reset n shared => exact ⟨[], by rw [shared]; rfl⟩
  | signalled shared => exact one (e := .signal) (by simp [enabled, looping]) (by rw [shared]; rfl)

theorem repl_run (started : Started initial)
    (ran : run (step table fuel) (start initial) moves = some s) :
    ∃ b, (∃ events, run Repl.step (boot b) events = some initial.repl) ∧
      ∃ events, run Repl.step (boot b) events = some s.shared.repl := by
  obtain ⟨b, startUp⟩ := started.reached
  refine ⟨b, startUp, run_induction (P := fun _ s => ∃ events,
    run Repl.step (boot b) events = some s.shared.repl) startUp ?_ ran⟩
  rintro history middle move after reached ⟨events, ranBefore⟩ stepped
  obtain ⟨more, ranAfter⟩ := repl_step (sane_run started reached) stepped
  exact ⟨events ++ more, by rw [run_append, ranBefore, Option.bind_some, ranAfter]⟩

/-- No session is listed twice. -/
theorem nodup_run (started : Started initial)
    (ran : run (step table fuel) (start initial) moves = some s) :
    s.shared.repl.sessions.Nodup := by
  refine run_induction (P := fun _ s => s.shared.repl.sessions.Nodup) started.nodup ?_ ran
  intro history middle move after reached nodup stepped
  have sane := sane_run started reached
  cases step_change stepped with
  | unchanged shared => rwa [shared]
  | accepted shared =>
      have fresh : Stream.telnet middle.shared.repl.connections ∉ middle.shared.repl.sessions := by
        rw [← sane.listed, sane.unborn _ (Nat.le_refl _)]
        simp
      rw [shared]
      simpa [Shared.perform, effect, List.nodup_append] using ⟨nodup, fun out member same =>
        fresh (same ▸ member)⟩
  | destroyed m _ shared =>
      rw [shared]
      exact nodup.filter _
  | handled m ts found k terminal session ran =>
      rw [(commanded_keypressed (sane.good m ts found) ran).sessions]
      exact nodup
  | logged level shared => rw [shared]; exact nodup
  | reset m shared => rw [shared]; exact nodup
  | signalled shared => rw [shared]; exact nodup

/-- **The server refines the model of its lists**: in every run, its moves are events of
`Repl.step`, and the registry of `hello_everysession` lists exactly the sessions that exist,
each once. -/
theorem refines_repl (started : Started initial)
    (ran : run (step table fuel) (start initial) moves = some s) :
    (∃ b events, run Repl.step (boot b) events = some s.shared.repl) ∧
      s.shared.repl.cout.Nodup ∧
      ∀ n, .telnet n ∈ s.shared.repl.cout ↔ s.sessions n ≠ none := by
  obtain ⟨b, -, events, ranRepl⟩ := repl_run started ran
  have registered := (run_wellFormed ranRepl).registered
  rw [registered]
  exact ⟨⟨b, events, ranRepl⟩, nodup_run started ran, fun n => ((sane_run started ran).listed n).symm⟩

/-- Two clients, of which the first is gone. -/
theorem refines_repl_twoClients :
    ∃ s, run (step [] 1) (start untouched) [.connect, .connect, .dispatch, .dispatch, .complete 0 .error,
        .dispatch] = some s ∧
      s.sessions 0 = none ∧ s.shared.repl.cout = [.telnet 1] ∧
      ∃ b events, run Repl.step (boot b) events = some s.shared.repl := by
  have ran : run (step [] 1) (start untouched) [.connect, .connect, .dispatch, .dispatch, .complete 0 .error,
    .dispatch] = some _ := rfl
  exact ⟨_, ran, rfl, rfl, (refines_repl started_untouched ran).1⟩

/-! ## A session on its own -/

/-- The keys among the inputs. -/
def keysIn (inputs : List (Input Shared)) : List Key :=
  inputs.filterMap fun
    | .key k => some k
    | .foreign _ _ => none

/-- A session is a run of the library, of `inputs`. -/
structure Alone (table : Text) (fuel n : Nat) (clean : Prop) (shared : Shared)
    (ts : TelnetSession) (first : Shared) (inputs : List (Input Shared)) : Prop where
  ran : run (Program.step (program table) (.telnet n) fuel)
    ((program table).opened 100 first.commands first) inputs =
      some (ts.terminal, ⟨ts.session, shared⟩)
  keys : keysIn inputs = ts.handled
  foreign : clean → ∀ t other, .foreign t other ∈ inputs → NoEscape t

section Alone

variable {n : Nat} {clean : Prop} {shared : Shared} {ts ts' : TelnetSession} {first : Shared}
  {inputs : List (Input Shared)}

/-- Nothing happens to the session. -/
theorem Alone.of_eq (alone : Alone table fuel n clean shared ts first inputs)
    (terminal : ts'.terminal = ts.terminal) (session : ts'.session = ts.session)
    (handled : ts'.handled = ts.handled) : Alone table fuel n clean shared ts' first inputs :=
  ⟨by rw [terminal, session]; exact alone.ran, by rw [handled]; exact alone.keys, alone.foreign⟩

theorem Alone.foreign_snoc (alone : Alone table fuel n clean shared ts first inputs) {t : Text}
    {clean' : Prop} (still : clean' → clean) (noEscape : clean' → NoEscape t) (other : Shared) :
    Alone table fuel n clean' other
      { ts with session := { ts.session with out := ts.session.out.put t } } first
      (inputs ++ [.foreign t other]) where
  ran := by
    rw [run_snoc, alone.ran]
    rfl
  keys := by
    have same := alone.keys
    simp only [keysIn, List.filterMap_append] at same ⊢
    simp [same]
  foreign tidy u shared' member := by
    rcases List.mem_append.mp member with before | last
    · exact alone.foreign (still tidy) u shared' before
    · obtain ⟨rfl, -⟩ : u = t ∧ shared' = other := by simpa using last
      exact noEscape tidy

theorem Alone.key_snoc (alone : Alone table fuel n clean shared ts first inputs) {k : Key}
    {terminal : Terminal} {session : CliSession MenuId} {other : Shared}
    (ran : (program table).keypressed (.telnet n) fuel ts.terminal ⟨ts.session, shared⟩ k =
      some (.ok (terminal, ⟨session, other⟩))) :
    Alone table fuel n clean other
      { ts with terminal := terminal, session := session, handled := ts.handled ++ [k] } first
      (inputs ++ [.key k]) where
  ran := by
    rw [run_snoc, alone.ran, Option.bind_some]
    simp only [Program.step, ran]
  keys := by
    have same := alone.keys
    simp only [keysIn, List.filterMap_append] at same ⊢
    simp [same]
  foreign tidy u shared' member := by
    rcases List.mem_append.mp member with before | last
    · exact alone.foreign tidy u shared' before
    · simp at last

theorem alone_step (sane : Sane s) (stepped : step table fuel s move = some s')
    (goesOn : s'.ended = none)
    (before : ∀ ts, s.sessions n = some ts → ∃ first inputs,
      Alone table fuel n (∀ m ∈ moves, m.Clean) s.shared ts first inputs)
    (found' : s'.sessions n = some ts') :
    ∃ first inputs,
      Alone table fuel n (∀ m ∈ moves ++ [move], m.Clean) s'.shared ts' first inputs := by
  have still (tidy : ∀ m ∈ moves ++ [move], m.Clean) : ∀ m ∈ moves, m.Clean :=
    fun m member => tidy m (by simp [member])
  have here (tidy : ∀ m ∈ moves ++ [move], m.Clean) : move.Clean := tidy move (by simp)
  have kept {ts : TelnetSession} (found : s.sessions n = some ts)
      (shared : s'.shared = s.shared) (terminal : ts'.terminal = ts.terminal)
      (session : ts'.session = ts.session) (handled : ts'.handled = ts.handled) :
      ∃ first inputs,
        Alone table fuel n (∀ m ∈ moves ++ [move], m.Clean) s'.shared ts' first inputs := by
    obtain ⟨first, inputs, alone⟩ := before ts found
    have same := alone.of_eq terminal session handled
    exact ⟨first, inputs, shared ▸ same.ran, same.keys, fun tidy => same.foreign (still tidy)⟩
  cases step_at (n := n) sane stepped with
  | elsewhere t noEscape session =>
      rw [session] at found'
      obtain ⟨ts, found, rfl⟩ := Option.map_eq_some_iff.mp found'
      obtain ⟨first, inputs, alone⟩ := before ts found
      exact ⟨first, _, alone.foreign_snoc still (fun tidy => noEscape (here tidy)) s'.shared⟩
  | opened _ _ session =>
      obtain rfl := Option.some.inj (session.symm.trans found')
      exact ⟨s'.shared, [], rfl, rfl, fun _ _ _ member => by simp at member⟩
  | completes ts found _ _ shared session =>
      obtain rfl := Option.some.inj (session.symm.trans found')
      exact kept found shared rfl rfl rfl
  | reads ts found _ _ _ shared session =>
      obtain rfl := Option.some.inj (session.symm.trans found')
      exact kept found shared rfl rfl rfl
  | destroyed _ _ _ _ _ _ session => cases session.symm.trans found'
  | handles ts found k _ _ terminal session ran session' =>
      obtain rfl := Option.some.inj (session'.symm.trans found')
      obtain ⟨first, inputs, alone⟩ := before ts found
      have after := alone.key_snoc ran
      exact ⟨first, _, after.ran, after.keys, fun tidy => after.foreign (still tidy)⟩
  | fails _ _ _ _ _ _ ended => cases goesOn.symm.trans ended
  | dangles _ _ _ session => cases session.symm.trans found'

/-- **A session of the server is a session of the library**: a run from its start, of the
keys that it has handled and of what others write to its stream and do to what is shared.
Its line, its history and its menu depend on nothing else. -/
theorem session_run (started : Started initial)
    (ran : run (step table fuel) (start initial) moves = some s) (goesOn : s.ended = none)
    (found : s.sessions n = some ts) :
    ∃ first inputs, Alone table fuel n (∀ m ∈ moves, m.Clean) s.shared ts first inputs := by
  revert goesOn ts
  refine run_induction (P := fun moves s => ∀ {ts : TelnetSession}, s.ended = none →
    s.sessions n = some ts → ∃ first inputs,
      Alone table fuel n (∀ m ∈ moves, m.Clean) s.shared ts first inputs) ?_ ?_ ran
  · exact fun _ found => by cases found
  · intro history middle move after reached ih stepped ts goesOn found
    exact alone_step (sane_run started reached) stepped goesOn
      (fun _ found => ih (running_of_step stepped).1 found) found

/-- A client that has typed two of its three keys. -/
theorem session_run_twoKeys :
    ∃ s ts first inputs, run (step [] 1) (start untouched) (client (text "abc") 2) = some s ∧
      s.sessions 0 = some ts ∧ keysIn inputs = (text "ab").map .ascii ∧
      run (Program.step (program []) (.telnet 0) 1)
        ((program []).opened 100 first.commands first) inputs =
          some (ts.terminal, ⟨ts.session, s.shared⟩) := by
  have ran : run (step [] 1) (start untouched) (client (text "abc") 2) = some _ := rfl
  obtain ⟨first, inputs, alone⟩ := session_run (n := 0) started_untouched ran rfl rfl
  exact ⟨_, _, first, inputs, ran, rfl, alone.keys, alone.ran⟩

end Alone

/-! ## The handler of a key -/

section Keys

variable {n : Nat}

/-- The handler of a key runs on a session that exists. -/
theorem dispatch_key {k : Key} {rest : List Task} (started : Started initial)
    (ran : run (step table fuel) (start initial) moves = some s)
    (next : s.queue = .key n k :: rest) (stepped : step table fuel s .dispatch = some s') :
    ∃ ts, s.sessions n = some ts ∧ key table fuel n k ts { s with queue := rest } = some s' := by
  obtain ⟨goesOn, looping⟩ := running_of_step stepped
  cases found : s.sessions n with
  | none =>
      have nothing := (held_none found).mp (held_run started ran n)
      simp [next] at nothing
  | some ts =>
      refine ⟨ts, rfl, ?_⟩
      simpa [step, running, goesOn, looping, next, runTask, found] using stepped

/-- The keys whose handlers are queued. -/
def allQueuedKeys (s : Server) : List Key := s.queue.filterMap Task.key?

theorem mem_allQueuedKeys {k : Key} {rest : List Task}
    (task : tasksOf n s.queue = .key n k :: rest) : k ∈ s.allQueuedKeys := by
  have member : Task.key n k ∈ tasksOf n s.queue := by simp [task]
  exact List.mem_filterMap.mpr ⟨_, List.mem_of_mem_filter member, rfl⟩

theorem commands_step {p : Text → Prop} (sane : Sane s)
    (stepped : step table fuel s move = some s')
    (each : ∀ n ts, s.sessions n = some ts → ts.session.history.Each p)
    (line : ∀ n ts, s.sessions n = some ts →
      Program.recalls ts.terminal.currentLine = none → p ts.terminal.currentLine)
    (before : ∀ cmd ∈ s.shared.commands, p cmd) : ∀ cmd ∈ s'.shared.commands, p cmd := by
  cases step_change stepped with
  | unchanged shared => rwa [shared]
  | accepted shared => rw [shared]; exact before
  | destroyed m _ shared => rw [shared]; exact before
  | handled m ts found k terminal session ran =>
      exact (moves_commands table (.telnet m) p).keypressed (sane.good m ts found)
        (each m ts found) (line m ts found) ran before
  | logged level shared => rw [shared]; exact before
  | reset m shared => rw [shared]; exact before
  | signalled shared => rw [shared]; exact before

/-! ## Broadcasts -/

/-- The commands of a session write through the registry only. -/
theorem writes_of_commands {out : Stream} {events : List Event} {before after : State}
    (own : ∀ e ∈ events, e.isCommandOf out) (ran : run Repl.step before events = some after) :
    ∃ added, after.writes = before.writes ++ added ∧ ∀ w ∈ added, w.origin = .broadcast := by
  induction events generalizing before with
  | nil =>
      obtain rfl : before = after := by simpa using ran
      exact ⟨[], by simp, by simp⟩
  | cons e rest ih =>
      rw [run_cons] at ran
      obtain ⟨middle, stepped, later⟩ := Option.bind_eq_some_iff.mp ran
      obtain ⟨-, rfl⟩ := step_eq_some_iff.mp stepped
      obtain ⟨added, writes, broadcast⟩ := ih (fun e member => own e (by simp [member])) later
      have mine := own e (by simp)
      rw [writes_effect, List.append_assoc] at writes
      refine ⟨_, writes, fun w member => ?_⟩
      rcases List.mem_append.mp member with first | other
      · cases e with
        | helloEverysession by_ =>
            obtain ⟨_, -, rfl⟩ := List.mem_map.mp first
            rfl
        | monitor | nomonitor | exit => cases first
        | accept | readCompletes | endFileBlock | log | signal => cases mine
      · exact broadcast w other

/-- Without a file session, what the key of a session writes to the others finds their
streams. -/
theorem writes_alive (started : Started initial) (noFile : .outfile ∉ initial.repl.sessions)
    (ran : run (step table fuel) (start initial) moves = some s)
    (looping : s.shared.repl.phase = .loop) {ts : TelnetSession} (found : s.sessions n = some ts)
    {k : Key} {terminal : Terminal} {after : World MenuId Shared}
    (handled : (program table).keypressed (.telnet n) fuel ts.terminal ⟨ts.session, s.shared⟩ k =
      some (.ok (terminal, after))) :
    (after.shared.repl.writes.drop s.shared.repl.writes.length).all (·.alive) = true := by
  obtain ⟨b, ⟨first, startUp⟩, events, ranRepl⟩ := repl_run started ran
  have noBlock : b.startsFileSession = false := by
    cases starts : b.startsFileSession with
    | false => rfl
    | true => exact absurd ((run_wellFormed startUp).fileSession.mpr starts) noFile
  have sane := sane_run started ran
  obtain ⟨more, own, performed⟩ := (commanded_keypressed (sane.good n ts found) handled).performs
    (commands_telnet sane looping (by simp [found]))
  have whole : run Repl.step (boot b) (events ++ more) = some after.shared.repl := by
    rw [run_append, ranRepl]
    exact performed
  obtain ⟨added, writes, broadcast⟩ := writes_of_commands own performed
  have writes : after.shared.repl.writes = s.shared.repl.writes ++ added := writes
  rw [writes, List.drop_left, List.all_eq_true]
  intro w member
  exact broadcasts_alive noBlock whole w (by simp [writes, member]) (broadcast w member)

/-- A broadcast is one write for each session that is listed. -/
theorem writes_broadcast (started : Started initial)
    (ran : run (step table fuel) (start initial) moves = some s) (out : Stream) :
    (effect s.shared.repl (.helloEverysession out)).writes.drop s.shared.repl.writes.length =
      s.shared.repl.sessions.map fun out => ⟨.broadcast, out, s.shared.repl.alive out⟩ := by
  obtain ⟨b, -, events, ranRepl⟩ := repl_run started ran
  have registered := (run_wellFormed ranRepl).registered
  simp [effect, State.writeTo, registered]

/-- What a broadcast writes to a session that exists: the text, once. -/
theorem foreignText_broadcast (started : Started initial)
    (ran : run (step table fuel) (start initial) moves = some s) {m : Nat}
    {tm : TelnetSession} (found : s.sessions m = some tm) (out : Stream) (t : Text) :
    foreignText m ((effect s.shared.repl (.helloEverysession out)).writes.drop
      s.shared.repl.writes.length) t = t := by
  have listed : Stream.telnet m ∈ s.shared.repl.sessions :=
    ((sane_run started ran).listed m).mp (by simp [found])
  have once : s.shared.repl.sessions.filter (· = .telnet m) = [.telnet m] := by
    rw [List.filter_eq, (nodup_run started ran).count, if_pos listed]
    rfl
  rw [writes_broadcast started ran, foreignText, List.filter_map]
  have same : ((fun w : Write => decide (w.stream = .telnet m)) ∘ fun out : Stream =>
      (⟨.broadcast, out, s.shared.repl.alive out⟩ : Write)) = fun out => decide (out = .telnet m) :=
    rfl
  rw [same, once]
  simp

/-- After a file session a broadcast finds its stream destroyed. -/
theorem broadcast_dead (started : Started initial) (file : .outfile ∈ initial.repl.sessions)
    (ran : run (step table fuel) (start initial) moves = some s)
    (looping : s.shared.repl.phase = .loop) (out : Stream) :
    ((effect s.shared.repl (.helloEverysession out)).writes.drop
      s.shared.repl.writes.length).all (·.alive) = false := by
  obtain ⟨b, ⟨first, startUp⟩, events, ranRepl⟩ := repl_run started ran
  have good := run_wellFormed ranRepl
  have listed : .outfile ∈ s.shared.repl.sessions :=
    good.fileSession.mpr ((run_wellFormed startUp).fileSession.mp file)
  have closed : s.shared.repl.alive .outfile = false := by
    show s.shared.repl.outfileOpen = false
    by_contra still
    have reading := good.outfileOpen.mp (by simpa using still)
    rw [looping] at reading
    cases reading
  rw [writes_broadcast started ran, List.all_eq_false]
  refine ⟨_, List.mem_map_of_mem listed, ?_⟩
  simp [closed]

/-- **A broadcast reaches each of the others once**: whatever has happened before, and
whichever session types `hello_everysession` in the first menu, every other session that
exists is sent the line, and nothing else happens to it, when no file session was started.
After one, the broadcast is written to its destroyed stream, and that is the end. -/
theorem everybody_once (started : Started initial)
    (ran : run (step table fuel) (start initial) moves = some s) {rest : List Task}
    (next : s.queue = .key n .ret :: rest) {ts : TelnetSession} (found : s.sessions n = some ts)
    (line : Split.split ts.terminal.currentLine = [text "hello_everysession"])
    (menu : ts.session.current = .cli) (stepped : step table fuel s .dispatch = some s') :
    (.outfile ∉ initial.repl.sessions →
      s'.ended = none ∧ ∀ m, m ≠ n → s'.sessions m = (s.sessions m).map fun tm =>
        { tm with session := { tm.session with
            out := tm.session.out.put (text "Hello, everybody\n") } }) ∧
      (.outfile ∈ initial.repl.sessions → s'.ended = some .destroyedStream) := by
  obtain ⟨ts', found', handled⟩ := dispatch_key started ran next stepped
  obtain rfl := Option.some.inj (found.symm.trans found')
  obtain ⟨goesOn, looping⟩ := running_of_step stepped
  have noGlobal : globalScopeMenu.scanCmds () (Split.split ts.terminal.currentLine) = none := by
    rw [line]
    decide +kernel
  have scanned : ((program table).menus s.shared).scanCmds ts.session.current
      (Split.split ts.terminal.currentLine) = some (.call .helloEverysession (.values [])) := by
    rw [line, menu]
    rfl
  cases fuel with
  | zero => cases handled
  | succ fuel =>
      obtain ⟨terminal, after, ranKey, shared⟩ := Program.keypressed_call (program table)
        (.telnet n) fuel (w := ⟨ts.session, s.shared⟩) ((sane_run started ran).good n ts found) noGlobal scanned
      have sent : after.shared.repl = effect s.shared.repl (.helloEverysession (.telnet n)) := by
        rw [shared]
        rfl
      constructor
      · intro noFile
        have alive := writes_alive started noFile ran looping found ranKey
        simp only [key, ranKey, alive, if_true] at handled
        cases handled
        refine ⟨goesOn, fun m other => ?_⟩
        simp only [other, if_false]
        cases foundM : s.sessions m with
        | none => rfl
        | some tm =>
            have text' := foreignText_broadcast started ran foundM (.telnet n)
              (text "Hello, everybody\n")
            simp only [Option.map_some, deliver, sent, text']
      · intro file
        have dead := broadcast_dead started file ran looping (.telnet n)
        rw [← sent] at dead
        simp only [key, ranKey, dead, Bool.false_eq_true, if_false] at handled
        cases handled
        rfl

/-- The first of two clients types it. -/
theorem everybody_once_twoClients :
    ∃ s s' ts, run (step [] 1) (start untouched) ([.connect, .dispatch] ++
        client (text "hello_everysession" ++ [13, 0]) 18) = some s ∧
      step [] 1 s .dispatch = some s' ∧ s.sessions 1 = some ts ∧
      s'.sessions 1 = some { ts with session := { ts.session with
        out := ts.session.out.put (text "Hello, everybody\n") } } := by
  obtain ⟨s, s', ts, first, ran, stepped, found, other, queue, line, menu⟩ : ∃ s s' ts first,
      run (step [] 1) (start untouched) ([.connect, .dispatch] ++
        client (text "hello_everysession" ++ [13, 0]) 18) = some s ∧
      step [] 1 s .dispatch = some s' ∧ s.sessions 0 = some first ∧ s.sessions 1 = some ts ∧
      s.queue = [.key 0 .ret] ∧
      Split.split first.terminal.currentLine = [text "hello_everysession"] ∧
      first.session.current = .cli :=
    ⟨_, _, _, _, rfl, rfl, rfl, rfl, rfl, by decide +kernel, rfl⟩
  have sent := ((everybody_once started_untouched ran queue found line menu stepped).1
    (by decide)).2 1 (by decide)
  exact ⟨s, s', ts, ran, stepped, other, by rw [sent, other]; rfl⟩

end Keys

end Server

end Lynx.Repl
