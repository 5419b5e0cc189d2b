/-
# Repl.Session — sessions, their streams, and the two lists that refer to them

One run of lynx from the end of the REPL set-up in `main` until
`io_ctx.run()` returns.  Three kinds of session exist, each with an output
stream of its own (`Stream`): the local terminal on `std::cout`, the file
session of `etc/repl.in` on `outfile`, and one session for each telnet
connection.  Two global lists hold references to these streams:

* the sink list of the default logger (`Log.LoggerConfig`), edited by the
  commands `monitor` and `nomonitor`;
* `Cli::cout().ostreams` (`State.cout`), edited by the constructor and the
  destructor of `CliSession`, and written to by `hello_everysession`.

Neither list owns a stream.  `State.alive` says which streams exist: `std::cout`
always, `outfile` until its block of `main` ends, and a telnet stream as long as
the session object it is a member of.  Every write through one of the two lists
is recorded with whether its stream existed at that moment (`State.writes`).

Commands run one at a time.  The file session reads `etc/repl.in` to its end
inside `start_file_session`, before the loop runs (`Phase.fileSession`); the
other sessions run their commands on the loop (`Phase.loop`).
-/
import Lynx.Log.LoggerConfig
import Lynx.Theory.Run

namespace Lynx.Repl

open Lynx.Log
open Lynx.Theory.Run

set_option autoImplicit false

/-- An output stream by identity; connections are numbered as they are accepted. -/
inductive Stream where
  | stdout
  | outfile
  | telnet (connection : Nat)
  deriving DecidableEq, Repr

/-- Where `main` stands. -/
inductive Phase where
  | fileSession
  | loop
  | stopped
  deriving DecidableEq, Repr

/-- What start-up finds: daemon mode, and whether the two files of the file
session open. -/
structure Boot where
  dae : Bool
  infileOpen : Bool
  outfileOpen : Bool
  deriving DecidableEq, Repr

/-- Both `is_open()` tests around `start_file_session` succeed. -/
def Boot.startsFileSession (b : Boot) : Bool := b.infileOpen && b.outfileOpen

/-- Which list a write went through. -/
inductive Origin where
  | record
  | broadcast
  deriving DecidableEq, Repr

structure Write where
  origin : Origin
  stream : Stream
  alive : Bool
  deriving DecidableEq, Repr

structure State where
  phase : Phase
  /-- The `CliSession` objects that exist, by output stream.  `Repl` keeps the
  local and the file session; a pending read keeps a telnet session. -/
  sessions : List Stream
  connections : Nat
  /-- The block of `main` that owns `outfile` has not ended. -/
  outfileOpen : Bool
  logger : Logger Stream
  cout : List Stream
  writes : List Write
  deriving Repr

inductive Event where
  /-- A telnet connection is accepted and its session started. -/
  | accept
  | monitor (out : Stream)
  | nomonitor (out : Stream)
  | helloEverysession (out : Stream)
  | exit (out : Stream)
  /-- The pending read of a telnet session completes with an error or EOF. -/
  | readCompletes (connection : Nat)
  /-- The block of `main` around the file session ends. -/
  | endFileBlock
  | log (message : Level)
  /-- SIGINT or SIGTERM: `repl.stop()`. -/
  | signal
  deriving DecidableEq, Repr

namespace State

/-- Does the stream exist? -/
def alive (s : State) : Stream → Bool
  | .stdout => true
  | .outfile => s.outfileOpen
  | .telnet n => decide (.telnet n ∈ s.sessions)

/-- `CliSession::CliSession`: the new session registers its stream. -/
def openSession (s : State) (out : Stream) : State :=
  { s with sessions := s.sessions ++ [out], cout := s.cout ++ [out] }

/-- `CliSession::~CliSession`: `UnRegister` removes every entry of the stream. -/
def destroySession (s : State) (out : Stream) : State :=
  { s with sessions := s.sessions.filter (· ≠ out), cout := s.cout.filter (· ≠ out) }

/-- One write to each of `targets`, recorded with whether its stream exists. -/
def writeTo (s : State) (origin : Origin) (targets : List Stream) : State :=
  { s with writes := s.writes ++ targets.map fun out => ⟨origin, out, s.alive out⟩ }

/-- The session that writes to `out` is running commands. -/
def commands (s : State) (out : Stream) : Bool :=
  match s.phase with
  | .fileSession => decide (out = .outfile)
  | .loop => decide (out ≠ .outfile) && decide (out ∈ s.sessions)
  | .stopped => false

end State

/-- The logger `main` has set up before the REPL. -/
def bootLogger (b : Boot) : Logger Stream :=
  if b.dae then LoggerConfig.init else LoggerConfig.addConsoleSink LoggerConfig.init

/-- `main` up to the first command: `start_local_terminal_session` outside
daemon mode, `start_telnet_session` (no session yet), then `start_file_session`
when both files are open. -/
def boot (b : Boot) : State :=
  let start : State :=
    { phase := .loop, sessions := [], connections := 0, outfileOpen := false
      logger := bootLogger b, cout := [], writes := [] }
  let localStarted := if b.dae then start else start.openSession .stdout
  if b.startsFileSession then
    { localStarted.openSession .outfile with phase := .fileSession, outfileOpen := true }
  else localStarted

/-- Which events can happen in `s`. -/
def enabled (s : State) : Event → Bool
  | .accept => decide (s.phase = .loop)
  | .monitor out => s.commands out
  | .nomonitor out => s.commands out
  | .helloEverysession out => s.commands out
  | .exit out => s.commands out
  | .readCompletes n => decide (s.phase = .loop) && decide (.telnet n ∈ s.sessions)
  | .endFileBlock => decide (s.phase = .fileSession)
  | .log _ => decide (s.phase ≠ .stopped)
  | .signal => decide (s.phase = .loop)

/-- What an event does.  `exit` on the local terminal stops the scheduler; on a
telnet session it closes the socket and the session object stays until its
pending read completes; in the file session it ends the reading loop. -/
def effect (s : State) : Event → State
  | .accept => { s.openSession (.telnet s.connections) with connections := s.connections + 1 }
  | .monitor out => { s with logger := LoggerConfig.addStreamSink out s.logger }
  | .nomonitor _ => { s with logger := LoggerConfig.removeAllStreamSink s.logger }
  | .helloEverysession _ => s.writeTo .broadcast s.cout
  | .exit .stdout => { s with phase := .stopped }
  | .exit _ => s
  | .readCompletes n => s.destroySession (.telnet n)
  | .endFileBlock => { s with phase := .loop, outfileOpen := false }
  | .log message => s.writeTo .record ((s.logger.sinkIt message).filterMap Sink.stream?)
  | .signal => { s with phase := .stopped }

def step (s : State) (e : Event) : Option State :=
  if enabled s e then some (effect s e) else none

theorem step_eq_some_iff {s t : State} {e : Event} :
    step s e = some t ↔ enabled s e = true ∧ effect s e = t := by
  simp [step]

/-- The stream an event destroys. -/
def Event.destroys : Event → Option Stream
  | .readCompletes n => some (.telnet n)
  | .endFileBlock => some .outfile
  | _ => none

namespace State

variable (s : State) (out : Stream)

/-! ## The parts of the state each helper leaves alone -/

@[simp] theorem logger_openSession : (s.openSession out).logger = s.logger := rfl
@[simp] theorem cout_openSession : (s.openSession out).cout = s.cout ++ [out] := rfl
@[simp] theorem sessions_openSession : (s.openSession out).sessions = s.sessions ++ [out] := rfl
@[simp] theorem cout_destroySession :
    (s.destroySession out).cout = s.cout.filter (· ≠ out) := rfl
@[simp] theorem sessions_destroySession :
    (s.destroySession out).sessions = s.sessions.filter (· ≠ out) := rfl
@[simp] theorem phase_openSession : (s.openSession out).phase = s.phase := rfl
@[simp] theorem phase_destroySession : (s.destroySession out).phase = s.phase := rfl
@[simp] theorem writes_openSession : (s.openSession out).writes = s.writes := rfl
@[simp] theorem writes_destroySession : (s.destroySession out).writes = s.writes := rfl
@[simp] theorem outfileOpen_openSession : (s.openSession out).outfileOpen = s.outfileOpen := rfl
@[simp] theorem outfileOpen_destroySession :
    (s.destroySession out).outfileOpen = s.outfileOpen := rfl

end State

/-! ## What every run keeps -/

/-- What holds between the sessions, the registry and the block of `outfile`. -/
structure WellFormed (b : Boot) (s : State) : Prop where
  /-- The registry lists exactly the session objects. -/
  registered : s.cout = s.sessions
  /-- `outfile` is open exactly while the file session reads. -/
  outfileOpen : s.outfileOpen = true ↔ s.phase = .fileSession
  /-- The file session object stays in `Repl`. -/
  fileSession : .outfile ∈ s.sessions ↔ b.startsFileSession = true

theorem boot_wellFormed (b : Boot) : WellFormed b (boot b) := by
  constructor <;> cases starts : b.startsFileSession <;> cases mode : b.dae <;>
    simp [boot, starts, mode]

theorem effect_wellFormed {b : Boot} {s : State} {e : Event} (good : WellFormed b s)
    (can : enabled s e = true) : WellFormed b (effect s e) := by
  obtain ⟨registered, outfileOpen, fileSession⟩ := good
  cases e with
  | accept => exact ⟨by simp [effect, registered], by simpa [effect] using outfileOpen,
      by simpa [effect] using fileSession⟩
  | monitor out => exact ⟨registered, outfileOpen, fileSession⟩
  | nomonitor out => exact ⟨registered, outfileOpen, fileSession⟩
  | helloEverysession out => exact ⟨registered, outfileOpen, fileSession⟩
  | exit out =>
      cases out with
      | stdout =>
          have looping : s.phase = .loop := by
            cases phase : s.phase <;> simp [enabled, State.commands, phase] at can ⊢
          refine ⟨registered, ?_, fileSession⟩
          simpa [effect, looping] using outfileOpen
      | outfile => exact ⟨registered, outfileOpen, fileSession⟩
      | telnet n => exact ⟨registered, outfileOpen, fileSession⟩
  | readCompletes n => exact ⟨by simp [effect, registered], by simpa [effect] using outfileOpen,
      by simpa [effect] using fileSession⟩
  | endFileBlock => exact ⟨registered, by simp [effect], fileSession⟩
  | log message => exact ⟨registered, outfileOpen, fileSession⟩
  | signal =>
      have looping : s.phase = .loop := by simpa [enabled] using can
      refine ⟨registered, ?_, fileSession⟩
      simpa [effect, looping] using outfileOpen

theorem run_wellFormed {b : Boot} {events : List Event} {s : State}
    (ran : run step (boot b) events = some s) : WellFormed b s := by
  refine run_invariant (fun before e after good stepped => ?_) (boot_wellFormed b) ran
  obtain ⟨can, rfl⟩ := step_eq_some_iff.mp stepped
  exact effect_wellFormed good can

/-- A session that runs a command writes to a stream that exists. -/
theorem alive_of_commands {b : Boot} {s : State} {out : Stream} (good : WellFormed b s)
    (running : s.commands out = true) : s.alive out = true := by
  cases phase : s.phase with
  | fileSession =>
      obtain rfl : out = .outfile := by simpa [State.commands, phase] using running
      exact good.outfileOpen.mpr phase
  | loop =>
      have inSessions : out ≠ .outfile ∧ out ∈ s.sessions := by
        simpa [State.commands, phase] using running
      cases out with
      | stdout => rfl
      | outfile => exact absurd rfl inSessions.1
      | telnet n => exact decide_eq_true inSessions.2
  | stopped => simp [State.commands, phase] at running

/-- An event destroys the stream `Event.destroys` names and no other. -/
theorem alive_effect {s : State} {e : Event} {out : Stream} (alive : s.alive out = true) :
    (effect s e).alive out = true ↔ e.destroys ≠ some out := by
  have unchanged : (effect s e).alive out = s.alive out → e.destroys = none →
      ((effect s e).alive out = true ↔ e.destroys ≠ some out) := by
    intro same none_
    simp [same, alive, none_]
  cases e with
  | accept => cases out <;> simp_all [effect, State.alive, Event.destroys]
  | readCompletes n =>
      cases out with
      | stdout => simp [State.alive, Event.destroys]
      | outfile => simpa [effect, State.alive, Event.destroys] using alive
      | telnet m =>
          have inSessions : Stream.telnet m ∈ s.sessions := of_decide_eq_true alive
          simp [effect, State.alive, Event.destroys, inSessions, ne_comm]
  | endFileBlock => cases out <;> simp_all [effect, State.alive, Event.destroys]
  | exit target => exact unchanged (by cases target <;> cases out <;> rfl) rfl
  | monitor _ | nomonitor _ | helloEverysession _ | log _ | signal =>
      exact unchanged (by cases out <;> rfl) rfl

end Lynx.Repl
