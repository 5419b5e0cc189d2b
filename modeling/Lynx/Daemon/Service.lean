/-
# Daemon.Service — a run of lynx in daemon mode

One machine for what `daemonize` changes behind the back of the logger and of the
configuration: the process that runs `main` with its working directory, the
file sink with its buffer, the config file, and what has reached the disk.

`fork` copies the sink with its buffer.  The two parents leave through `std::exit`,
which writes their copies out whenever they get there; until then they stand in
`State.exiting`.  A daemonization that fails ends the process and with it the run.
-/
import Lynx.Config.Write
import Lynx.Daemon.Process
import Lynx.Log.DailyFileSink
import Lynx.Theory.Run

namespace Lynx.Daemon

open Lynx.Config
open Lynx.Log
open Lynx.Theory.PathResolution
open Lynx.Theory.Run

set_option autoImplicit false

/-- The default logger in daemon mode.  The stream sinks that sessions add change
neither of its levels. -/
def defaultLogger : Logger Empty := LoggerConfig.init

/-- `get_default_config()`, which `main` uses. -/
def defaultConfig : Dconfig := {}

/-- What does not change along a run. -/
structure Setting where
  libs : Libraries
  date : Nat → String
  cfg : Config

structure State where
  /-- The process that runs `main`, and after `daemonize` the daemon. -/
  proc : Proc
  sink : DailyFileSink
  /-- How many records have been logged. -/
  calls : Nat
  daemonized : Bool
  /-- The sinks of the parents that are on their way through `std::exit`. -/
  exiting : List DailyFileSink
  finished : Bool
  /-- What the log files have received. -/
  disk : Disk
  /-- The tree without the log files. -/
  files : Files

inductive Event where
  /-- A record made at `time` and logged when the clock shows `now`; the file of a new
  day `opens` or not. -/
  | log (time now : Time) (opens : Bool) (level : Level) (text : String)
  | daemonize (sys : Sys)
  /-- A parent gets through `std::exit`. -/
  | exitParent (i : Nat)
  | writeConfig (opens : Bool) (delivered : Nat)
  /-- The daemon returns from `main`. -/
  | finish

/-- How the parents of the two forks end. -/
def parents (dcfg : Dconfig) (sys : Sys) (p : Proc) : List Exited :=
  [daemonize dcfg { sys with firstFork := .parent } p,
    daemonize dcfg { sys with firstFork := .child, secondFork := .parent } p].filterMap
    fun result =>
      match result with
      | .error exited => some exited
      | .ok _ => none

namespace State

/-- `main` after `LoggerConfig::init`. -/
def start (setting : Setting) (proc : Proc) (files : Files) (now : Time) : State :=
  { proc := proc
    sink := DailyFileSink.create setting.date proc.cwd now
    calls := 0
    daemonized := false
    exiting := []
    finished := false
    disk := []
    files := files }

def enabled (s : State) : Event → Bool
  | .log _ _ _ _ _ => !s.finished
  | .daemonize _ => !s.daemonized
  | .exitParent i => decide (i < s.exiting.length)
  | .writeConfig _ _ => !s.finished
  | .finish => s.daemonized && !s.finished

/-- `std::exit` in a parent: its copy of the buffer is written out. -/
def exitParent (s : State) (i : Nat) : State :=
  match s.exiting[i]? with
  | none => s
  | some parent => { s with exiting := s.exiting.eraseIdx i, disk := s.disk ++ parent.pending }

/-- The record of the next log call. -/
def record (s : State) (level : Level) (text : String) : Record := ⟨level, text, s.calls⟩

/-- The sink after a log call, and what the call adds to the disk. -/
def log (s : State) (setting : Setting) (time now : Time) (opens : Bool) (level : Level)
    (text : String) : DailyFileSink × Disk :=
  s.sink.log defaultLogger setting.date s.proc.cwd time now opens (s.record level text)

/-- The file a record made now goes to. -/
def destination (s : State) (setting : Setting) (time : Time) (opens : Bool) : Option Location :=
  s.sink.destination setting.date s.proc.cwd time opens

/-- `write_config`, with no other process at work. -/
def save (s : State) (setting : Setting) (opens : Bool) (delivered : Nat) : Written :=
  setting.cfg.writeConfig setting.libs { opens := opens, delivered := delivered } s.proc.cwd s.files

end State

/-- One step; `none` when the event cannot happen, or when the process ends in
`daemonize`. -/
def step (setting : Setting) (s : State) (e : Event) : Option State :=
  if s.enabled e then
    match e with
    | .log time now opens level text =>
        let written := s.log setting time now opens level text
        some { s with sink := written.1, calls := s.calls + 1, disk := s.disk ++ written.2 }
    | .daemonize sys =>
        match daemonize defaultConfig { sys with firstFork := .child, secondFork := .child } s.proc with
        | .error _ => none
        | .ok daemon =>
            some { s with proc := daemon, daemonized := true
                          exiting := (parents defaultConfig sys s.proc).map fun _ => s.sink }
    | .exitParent i => some (s.exitParent i)
    | .writeConfig opens delivered =>
        some { s with files := (s.save setting opens delivered).files }
    | .finish =>
        some { s with finished := true, sink := s.sink.flush.1, disk := s.disk ++ s.sink.flush.2 }
  else none

section Logging

variable {setting : Setting} {s : State} {time now : Time} {opens : Bool} {level : Level}
variable {text : String}

/-- What the default logger does not accept does not reach its sink. -/
theorem State.log_of_not_accepts
    (refused : DailyFileSink.accepts defaultLogger level = false) :
    s.log setting time now opens level text = (s.sink, []) := by
  have below : defaultLogger.shouldLog (s.record level text).level = false := by
    have both : DailyFileSink.accepts defaultLogger level =
        (decide (Level.debug ≤ level) && decide (Level.debug ≤ level)) := rfl
    rw [both, Bool.and_self] at refused
    exact refused
  simp [State.log, DailyFileSink.log, below]

theorem State.location_log (accepted : DailyFileSink.accepts defaultLogger level = true) :
    (s.log setting time now opens level text).1.location = s.destination setting time opens := by
  rw [State.log, DailyFileSink.location_log, if_pos (by exact accepted), State.destination]

/-- The records a log call hands to a file: its own, when it is accepted and there is a
file for it. -/
def State.taken (s : State) (setting : Setting) : Event → Disk
  | .log time _ opens level text =>
      if DailyFileSink.accepts defaultLogger level then
        (s.destination setting time opens).toList.map fun location => (location, s.record level text)
      else []
  | _ => []

theorem State.taken_log :
    s.taken setting (.log time now opens level text) =
      if DailyFileSink.accepts defaultLogger level then
        (s.destination setting time opens).toList.map fun location => (location, s.record level text)
      else [] := rfl

theorem State.log_accounts :
    (s.log setting time now opens level text).2 ++ (s.log setting time now opens level text).1.pending =
      s.sink.pending ++ s.taken setting (.log time now opens level text) :=
  DailyFileSink.log_accounts

end Logging

theorem Proc.cwd_redirect {cfg : Dconfig} {p r : Proc} (redirected : p.redirect cfg = some r) :
    r.cwd = p.cwd := by
  obtain ⟨_, -, rfl⟩ := Option.map_eq_some_iff.mp redirected
  rfl

theorem Proc.cwd_notifyForkChild {sys : Sys} {p q : Proc}
    (notified : p.notifyForkChild sys = .ok q) : q.cwd = p.cwd := by
  obtain ⟨-, -, -, -, rfl⟩ := notifyForkChild_eq_ok_iff.mp notified
  unfold Proc.reopenSignalPipe
  split <;> rfl

/-- The daemon works in the configured directory. -/
theorem daemonize_cwd {cfg : Dconfig} {sys : Sys} {p q : Proc}
    (returned : daemonize cfg sys p = .ok q) : q.cwd = place p.cwd cfg.workingDir := by
  obtain ⟨-, redirected, notified, found, ok, rfl⟩ := daemonize_eq_ok_iff.mp returned
  have sameCwd : (notified.openlog sys).cwd = notified.cwd := by
    unfold Proc.openlog
    split <;> rfl
  rw [sameCwd, Proc.cwd_notifyForkChild ok, Proc.cwd_redirect found]
  rfl

/-- A daemonization that succeeds leaves two parents, both through
`std::exit(EXIT_SUCCESS)`. -/
theorem parents_of_daemonize {cfg : Dconfig} {sys : Sys} {p q : Proc}
    (returned : daemonize cfg { sys with firstFork := .child, secondFork := .child } p = .ok q) :
    parents cfg sys p = [.success, .success] := by
  obtain ⟨⟨-, setsid, chdir, -⟩, -⟩ := daemonize_eq_ok_iff.mp returned
  have first : daemonize cfg { sys with firstFork := .parent } p = .error .success := rfl
  have second : daemonize cfg { sys with firstFork := .child, secondFork := .parent } p =
      .error .success := by
    simp only [daemonize, afterFork]
    rw [setsid, chdir]
    rfl
  simp [parents, first, second]

/-- **What one step does.** -/
inductive Steps (setting : Setting) (s : State) : Event → State → Prop where
  | log {time now : Time} {opens : Bool} {level : Level} {text : String}
      (running : s.finished = false) :
      Steps setting s (.log time now opens level text)
        { s with
          sink := (s.log setting time now opens level text).1
          calls := s.calls + 1
          disk := s.disk ++ (s.log setting time now opens level text).2 }
  | daemonize {sys : Sys} {daemon : Proc} (first : s.daemonized = false)
      (cwd : daemon.cwd = []) :
      Steps setting s (.daemonize sys)
        { s with proc := daemon, daemonized := true, exiting := [s.sink, s.sink] }
  | exitParent {i : Nat} {parent : DailyFileSink} (there : s.exiting[i]? = some parent) :
      Steps setting s (.exitParent i)
        { s with exiting := s.exiting.eraseIdx i, disk := s.disk ++ parent.pending }
  | writeConfig {opens : Bool} {delivered : Nat} :
      Steps setting s (.writeConfig opens delivered)
        { s with files := (s.save setting opens delivered).files }
  | finish (daemonized : s.daemonized = true) :
      Steps setting s .finish
        { s with finished := true, sink := s.sink.flush.1, disk := s.disk ++ s.sink.flush.2 }

theorem steps_of_step {setting : Setting} {s t : State} {e : Event}
    (stepped : step setting s e = some t) : Steps setting s e t := by
  unfold step at stepped
  by_cases can : s.enabled e = true
  · rw [if_pos can] at stepped
    cases e with
    | log time now opens level text =>
        obtain rfl := Option.some.inj stepped
        exact .log (by simpa [State.enabled] using can)
    | daemonize sys =>
        have first : s.daemonized = false := by simpa [State.enabled] using can
        cases returned : daemonize defaultConfig
            { sys with firstFork := .child, secondFork := .child } s.proc with
        | error _ => simp [returned] at stepped
        | ok daemon =>
            simp only [returned, Option.some.injEq] at stepped
            subst stepped
            rw [parents_of_daemonize returned]
            exact .daemonize first (daemonize_cwd returned)
    | exitParent i =>
        have inside : i < s.exiting.length := by simpa [State.enabled] using can
        have there := List.getElem?_eq_getElem inside
        simp only [State.exitParent, there, Option.some.injEq] at stepped
        subst stepped
        exact .exitParent there
    | writeConfig opens delivered =>
        obtain rfl := Option.some.inj stepped
        exact .writeConfig
    | finish =>
        obtain rfl := Option.some.inj stepped
        obtain ⟨daemonized, -⟩ := (Bool.and_eq_true _ _).mp can
        exact .finish daemonized
  · rw [if_neg can] at stepped
    cases stepped

end Lynx.Daemon
