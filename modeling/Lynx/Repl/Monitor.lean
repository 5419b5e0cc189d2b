/-
# Repl.Monitor — who the default logger writes to, and whether they still exist

`monitor` pushes a stream sink for the session's own stream and `nomonitor`
erases every stream sink, so the sink list depends on the commands alone: a
stream has as many sinks as `monitor` commands of its session since the last
`nomonitor` of any session (`streams_count`).  Two results read off this count.

* `record_deliveries`: how often a record reaches each stream, and that the
  sinks of `main` stay as they were set up.  A session that never ran
  `nomonitor` can lose its records to another session's `nomonitor`, and a
  session that ran `monitor` twice gets each record twice
  (`not_perSessionMonitor`).
* `sinks_alive_iff`: no path that ends a session takes its sinks along.  The
  sinks refer to existing streams throughout a run exactly when no stream is
  destroyed while its session has a `monitor` without a later `nomonitor`.
-/
import Lynx.Repl.Session

namespace Lynx.Repl

open Lynx.Log
open Lynx.Theory.Run

set_option autoImplicit false

/-- The `monitor` commands of the session on `out` since the last `nomonitor` of
any session. -/
def monitorsSinceNomonitor (out : Stream) (history : List Event) : Nat :=
  history.foldl
    (fun n e =>
      match e with
      | .monitor by_ => if by_ = out then n + 1 else n
      | .nomonitor _ => 0
      | _ => n) 0

/-- The last of the commands `monitor` and `nomonitor` that the session on `out`
itself issued was `monitor`. -/
def monitoring (out : Stream) (history : List Event) : Bool :=
  history.foldl
    (fun mode e =>
      match e with
      | .monitor by_ => if by_ = out then true else mode
      | .nomonitor by_ => if by_ = out then false else mode
      | _ => mode) false

theorem monitorsSinceNomonitor_snoc (out : Stream) (history : List Event) (e : Event) :
    monitorsSinceNomonitor out (history ++ [e]) =
      match e with
      | .monitor by_ =>
          if by_ = out then monitorsSinceNomonitor out history + 1
          else monitorsSinceNomonitor out history
      | .nomonitor _ => 0
      | _ => monitorsSinceNomonitor out history := by
  simp only [monitorsSinceNomonitor, List.foldl_append, List.foldl_cons, List.foldl_nil]

/-! ## The sink list is a function of the commands -/

theorem streams_bootLogger (b : Boot) : (bootLogger b).streams = [] := by
  cases mode : b.dae <;> simp [bootLogger, mode]

@[simp] theorem logger_boot (b : Boot) : (boot b).logger = bootLogger b := by
  cases starts : b.startsFileSession <;> cases mode : b.dae <;> simp [boot, starts, mode]

@[simp] theorem writes_boot (b : Boot) : (boot b).writes = [] := by
  cases starts : b.startsFileSession <;> cases mode : b.dae <;> simp [boot, starts, mode]

/-- Every event but `monitor` and `nomonitor` leaves the logger alone. -/
theorem logger_effect (s : State) (e : Event) :
    (effect s e).logger =
      match e with
      | .monitor out => LoggerConfig.addStreamSink out s.logger
      | .nomonitor _ => LoggerConfig.removeAllStreamSink s.logger
      | _ => s.logger := by
  cases e with
  | exit out => cases out <;> rfl
  | _ => rfl

/-- **The sinks of a stream are its `monitor` commands since the last `nomonitor`.** -/
theorem streams_count {b : Boot} {events : List Event} {s : State}
    (ran : run step (boot b) events = some s) (out : Stream) :
    s.logger.streams.count out = monitorsSinceNomonitor out events := by
  refine run_induction
    (P := fun history t => t.logger.streams.count out = monitorsSinceNomonitor out history)
    ?_ ?_ ran
  · simp [streams_bootLogger, monitorsSinceNomonitor]
  · intro history before e after _ same stepped
    obtain ⟨-, rfl⟩ := step_eq_some_iff.mp stepped
    rw [monitorsSinceNomonitor_snoc, logger_effect]
    cases e with
    | monitor by_ =>
        by_cases own : by_ = out <;> simp [own, same]
    | nomonitor by_ => simp
    | _ => exact same

theorem otherSinks_run {b : Boot} {events : List Event} {s : State}
    (ran : run step (boot b) events = some s) :
    s.logger.otherSinks = (bootLogger b).otherSinks := by
  refine run_invariant (P := fun t => t.logger.otherSinks = (bootLogger b).otherSinks)
    (fun before e after same stepped => ?_) (by simp) ran
  obtain ⟨-, rfl⟩ := step_eq_some_iff.mp stepped
  rw [logger_effect]
  cases e <;> simpa using same

/-! ## Who a record is delivered to -/

/-- The sinks `main` sets up, in their order. -/
def mainSinks (b : Boot) : List (Sink Stream) :=
  if b.dae then [.dailyFileSink] else [.dailyFileSink, .stdoutColorSink]

theorem otherSinks_bootLogger (b : Boot) : (bootLogger b).otherSinks = mainSinks b := by
  cases mode : b.dae <;> simp [bootLogger, mainSinks, mode]

/-- Monitor mode as a setting of each session: an accepted record reaches the
stream of a session that is running commands once if that session's own last
command of the two was `monitor`, and not at all otherwise; the sinks of `main`
stay. -/
def PerSessionMonitor : Prop :=
  ∀ (b : Boot) (events : List Event) (s : State), run step (boot b) events = some s →
    (∀ out message, s.commands out = true → s.logger.shouldLog message = true →
      (s.logger.sinkIt message).count (.ostreamSink out) =
        if monitoring out events then 1 else 0) ∧
    s.logger.otherSinks = mainSinks b

/-- **What the code delivers.**  An accepted record reaches a stream once for each
`monitor` of its session since the last `nomonitor` of any session; the sinks of
`main` stay, each once and in order. -/
theorem record_deliveries {b : Boot} {events : List Event} {s : State}
    (ran : run step (boot b) events = some s) :
    (∀ out message, s.logger.shouldLog message = true →
      (s.logger.sinkIt message).count (.ostreamSink out) = monitorsSinceNomonitor out events) ∧
    s.logger.otherSinks = mainSinks b ∧ (mainSinks b).Nodup := by
  refine ⟨fun out message accepted => ?_, ?_, ?_⟩
  · rw [Logger.count_sinkIt_stream s.logger out accepted, streams_count ran]
  · rw [otherSinks_run ran, otherSinks_bootLogger]
  · cases mode : b.dae <;> simp [mainSinks, mode]

/-- A daemon without a file session. -/
def daemonBoot : Boot := { dae := true, infileOpen := false, outfileOpen := false }

/-- Two telnet users; the second leaves monitor mode it never entered. -/
def nomonitorByAnother : List Event :=
  [.accept, .accept, .monitor (.telnet 0), .nomonitor (.telnet 1)]

theorem record_deliveries_nomonitorByAnother :
    ∃ s, run step (boot daemonBoot) nomonitorByAnother = some s ∧
      (s.logger.sinkIt .info).count (.ostreamSink (.telnet 0)) =
        monitorsSinceNomonitor (.telnet 0) nomonitorByAnother ∧
      s.logger.otherSinks = mainSinks daemonBoot := by
  have ran : run step (boot daemonBoot) nomonitorByAnother = some _ := rfl
  obtain ⟨delivered, others, -⟩ := record_deliveries ran
  exact ⟨_, ran, delivered (.telnet 0) .info (by decide), others⟩

/-- The first user's records stop although its own last command was `monitor`. -/
theorem not_perSessionMonitor : ¬ PerSessionMonitor := by
  intro perSession
  have delivered := (perSession daemonBoot nomonitorByAnother _ rfl).1 (.telnet 0) .info
    (by decide) (by decide)
  exact absurd delivered (by decide)

/-! ## Whether the sinks refer to streams that exist -/

/-- Every stream sink refers to an existing stream, and no record has been
written to a destroyed one. -/
def SinksAlive (s : State) : Prop :=
  (∀ out ∈ s.logger.streams, s.alive out = true) ∧
    ∀ w ∈ s.writes, w.origin = .record → w.alive = true

/-- A step that destroys a stream is taken only when the session on that stream
has no `monitor` since the last `nomonitor` of any session. -/
def EndsUnmonitored (history : List Event) (_ : State) (e : Event) : Prop :=
  ∀ out, e.destroys = some out → monitorsSinceNomonitor out history = 0

theorem boot_sinksAlive (b : Boot) : SinksAlive (boot b) := by
  simp [SinksAlive, streams_bootLogger]

/-- The writes an event adds: a record goes to every stream sink, a broadcast to
every registered stream. -/
theorem writes_effect (s : State) (e : Event) :
    (effect s e).writes = s.writes ++
      match e with
      | .log message => ((s.logger.sinkIt message).filterMap Sink.stream?).map
          fun out => ⟨.record, out, s.alive out⟩
      | .helloEverysession _ => s.cout.map fun out => ⟨.broadcast, out, s.alive out⟩
      | _ => [] := by
  cases e with
  | exit out => cases out <;> simp [effect]
  | log message => rfl
  | helloEverysession out => rfl
  | _ => simp [effect]

theorem mem_streams_of_sinkIt {logger : Logger Stream} {message : Level} {out : Stream}
    (written : out ∈ (logger.sinkIt message).filterMap Sink.stream?) : out ∈ logger.streams := by
  obtain ⟨sink, member, refers⟩ := List.mem_filterMap.mp written
  refine List.mem_filterMap.mpr ⟨sink, ?_, refers⟩
  unfold Logger.sinkIt at member
  split at member
  · exact (List.mem_filter.mp member).1
  · cases member

/-- A record goes to the streams of the sinks, and these exist. -/
theorem effect_recordsAlive {s : State} (good : SinksAlive s) (e : Event) :
    ∀ w ∈ (effect s e).writes, w.origin = .record → w.alive = true := by
  obtain ⟨live, written⟩ := good
  intro w member isRecord
  rw [writes_effect, List.mem_append] at member
  rcases member with before | added
  · exact written w before isRecord
  · cases e with
    | log message =>
        obtain ⟨out, target, rfl⟩ := List.mem_map.mp added
        exact live out (mem_streams_of_sinkIt target)
    | helloEverysession out =>
        obtain ⟨other, -, rfl⟩ := List.mem_map.mp added
        cases isRecord
    | _ => cases added

/-- One step keeps the sinks on existing streams exactly when it ends no
monitored session. -/
theorem effect_sinksAlive_iff {b : Boot} {history : List Event} {s : State} {e : Event}
    (ran : run step (boot b) history = some s) (good : SinksAlive s)
    (can : enabled s e = true) :
    SinksAlive (effect s e) ↔ EndsUnmonitored history s e := by
  have live := good.1
  constructor
  · -- a sink on the destroyed stream would now refer to nothing
    intro after out destroyed
    rw [← streams_count ran out, List.count_eq_zero]
    intro member
    have sameStreams : (effect s e).logger.streams = s.logger.streams := by
      rw [logger_effect]
      cases e <;> first | rfl | cases destroyed
    have stillAlive := after.1 out (sameStreams ▸ member)
    exact (alive_effect (live out member)).mp stillAlive destroyed
  · intro unmonitored
    refine ⟨fun out member => ?_, effect_recordsAlive good e⟩
    have keeps : ∀ target, target ∈ s.logger.streams → (effect s e).alive target = true := by
      intro target inSinks
      refine (alive_effect (live target inSinks)).mpr fun destroyed => ?_
      have none_ := unmonitored target destroyed
      rw [← streams_count ran target, List.count_eq_zero] at none_
      exact none_ inSinks
    rw [logger_effect] at member
    cases e with
    | monitor by_ =>
        rw [Logger.streams_addStreamSink, List.mem_append, List.mem_singleton] at member
        rcases member with before | rfl
        · exact keeps out before
        · exact (alive_effect (alive_of_commands (run_wellFormed ran) can)).mpr (by simp [Event.destroys])
    | nomonitor by_ => simp at member
    | _ => exact keeps out member

/-- **When the sinks stay on existing streams.**  Along a run every stream sink
refers to an existing stream, and no record is written to a destroyed one,
exactly when no stream is destroyed while its session has a `monitor` since the
last `nomonitor` of any session. -/
theorem sinks_alive_iff {b : Boot} {events : List Event} {s : State}
    (ran : run step (boot b) events = some s) :
    Always step (boot b) (fun _ t => SinksAlive t) events ↔
      EveryStep step (boot b) EndsUnmonitored events := by
  refine always_iff_everyStep (boot_sinksAlive b) (fun history before e after reached good stepped => ?_) ran
  obtain ⟨can, rfl⟩ := step_eq_some_iff.mp stepped
  exact effect_sinksAlive_iff reached good can

/-- A telnet user enters monitor mode, leaves it, and disconnects. -/
def clearedDisconnect : List Event :=
  [.accept, .monitor (.telnet 0), .log .info, .nomonitor (.telnet 0), .exit (.telnet 0),
    .readCompletes 0, .log .info]

theorem sinks_alive_iff_clearedDisconnect :
    Always step (boot daemonBoot) (fun _ t => SinksAlive t) clearedDisconnect ↔
      EveryStep step (boot daemonBoot) EndsUnmonitored clearedDisconnect :=
  sinks_alive_iff (s := (run step (boot daemonBoot) clearedDisconnect).get rfl) rfl

/-- A telnet user enters monitor mode and disconnects; a record follows. -/
def monitoredDisconnect : List Event :=
  [.accept, .monitor (.telnet 0), .exit (.telnet 0), .readCompletes 0, .log .info]

/-- The record is written to the destroyed stream of the session. -/
theorem monitoredDisconnect_writes_destroyed :
    ¬ ∀ (b : Boot) (events : List Event) (s : State),
      run step (boot b) events = some s → SinksAlive s := by
  intro alive
  have written := (alive daemonBoot monitoredDisconnect _ rfl).2 ⟨.record, .telnet 0, false⟩
    (by decide) rfl
  cases written

end Lynx.Repl
