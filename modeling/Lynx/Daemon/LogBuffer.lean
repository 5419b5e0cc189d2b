/-
# Daemon.LogBuffer — each record once, across the double fork

At `daemonize` the buffer of the file sink is in three processes: in the daemon, and
in the two parents that write their copies out in `std::exit`.  What the steps of a run
hand to a file is `taken`, and what they should, each record with its log file, is
`due`; a record is missing from the first only when its file could not be opened.

Before the call the disk and the buffer together are what was taken (`run_before`);
after it the daemon adds its own records in order, and the parents add the buffer twice
more (`run_after`).  The records are told apart by their numbers (`due_nodup`).  So
every record is in its log file exactly once when and only when the buffer was empty at
the fork — the last accepted record before it was a flushing one, or there was none —
and every file of a new day could be opened (`exactlyOnce_iff`).
-/
import Lynx.Config.RoundTrip
import Lynx.Daemon.Service
import Mathlib.Data.List.Nodup
import Mathlib.Data.List.Perm.Basic

namespace Lynx.Daemon

open Lynx.Config
open Lynx.Log
open Lynx.Theory.PathResolution
open Lynx.Theory.Run

set_option autoImplicit false

/-! ## The records of a run -/

/-- The log file of a record made now: the file that is open, or that of its day. -/
def State.logFile (s : State) (setting : Setting) (time : Time) : Location :=
  (s.destination setting time true).getD
    (place s.proc.cwd (DailyFileSink.calcFilename setting.date time))

/-- The record of a step that the logger and its file sink take, with its log file. -/
def State.due (s : State) (setting : Setting) : Event → Disk
  | .log time _ _ level text =>
      if DailyFileSink.accepts defaultLogger level then
        [(s.logFile setting time, s.record level text)]
      else []
  | _ => []

theorem State.due_log (s : State) (setting : Setting) (time now : Time) (opens : Bool)
    (level : Level) (text : String) :
    s.due setting (.log time now opens level text) =
      if DailyFileSink.accepts defaultLogger level then
        [(s.logFile setting time, s.record level text)]
      else [] := rfl

section

variable (setting : Setting)

/-- The records of a run, each with its log file. -/
def due (s : State) (events : List Event) : Disk :=
  collect (step setting) (fun s e => s.due setting e) s events

/-- The records of a run that found a file. -/
def taken (s : State) (events : List Event) : Disk :=
  collect (step setting) (fun s e => s.taken setting e) s events

/-- A record that is accepted from the rotation time on can open the file of its day. -/
def OpensFile (_ : List Event) (s : State) : Event → Prop
  | .log time _ opens level _ =>
      DailyFileSink.accepts defaultLogger level = true → s.sink.rotationTp ≤ time → opens = true
  | _ => True

end

/-- The levels of the records of a list of events that the logger and its file sink
take. -/
def acceptedLevels (events : List Event) : List Level :=
  events.filterMap fun e =>
    match e with
    | .log _ _ _ level _ => if DailyFileSink.accepts defaultLogger level then some level else none
    | _ => none

/-- The last of the records, if there is one, flushes. -/
def LastFlushes (levels : List Level) : Prop :=
  ∀ level, levels.getLast? = some level → defaultLogger.shouldFlush level = true

/-- Every record accepted before and after `daemonize` is once in its log file and
nowhere else, and the daemon's are on the disk in their order. -/
structure ExactlyOnce (setting : Setting) (start : State) (before : List Event) (sys : Sys)
    (after : List Event) (s : State) : Prop where
  once : s.disk.Perm (due setting start (before ++ .daemonize sys :: after))
  ordered : ((due setting start (before ++ .daemonize sys :: after)).drop
    (due setting start before).length).Sublist s.disk

theorem acceptedLevels_snoc (history : List Event) (e : Event) :
    acceptedLevels (history ++ [e]) = acceptedLevels history ++ acceptedLevels [e] :=
  List.filterMap_append

theorem lastFlushes_snoc (levels : List Level) (level : Level) :
    LastFlushes (levels ++ [level]) ↔ defaultLogger.shouldFlush level = true := by
  simp [LastFlushes]

section

variable {setting : Setting} {s t : State}

/-! ## What should be on the disk, and what is handed to it -/

/-- A record that finds a file finds its log file. -/
theorem logFile_of_destination {time : Time} {opens : Bool} {location : Location}
    (goes : s.destination setting time opens = some location) :
    s.logFile setting time = location := by
  unfold State.logFile
  unfold State.destination DailyFileSink.destination at *
  by_cases rotates : s.sink.rotationTp ≤ time
  · rw [if_pos rotates] at goes ⊢
    cases opens with
    | true => exact Option.some.inj goes
    | false => cases goes
  · rw [if_neg rotates] at goes ⊢
    rw [goes]
    rfl

theorem taken_sublist_due (s : State) (e : Event) : (s.taken setting e).Sublist (s.due setting e) := by
  cases e with
  | log time now opens level text =>
      rw [State.taken_log, State.due_log]
      cases DailyFileSink.accepts defaultLogger level with
      | false => exact List.Sublist.refl _
      | true =>
          cases goes : s.destination setting time opens with
          | none => exact List.nil_sublist _
          | some location =>
              rw [logFile_of_destination goes]
              exact List.Sublist.refl _
  | _ => exact List.Sublist.refl _

theorem opensFile_of_taken {history : List Event} {e : Event}
    (whole : s.taken setting e = s.due setting e) : OpensFile history s e := by
  cases e with
  | log time now opens level text =>
      intro accepted rotates
      rw [State.taken_log, State.due_log, if_pos accepted, if_pos accepted] at whole
      by_contra closed
      simp [State.destination, DailyFileSink.destination, rotates, closed] at whole
  | _ => trivial

theorem destination_of_opensFile {history : List Event} {time now : Time} {opening : Bool}
    {level : Level} {text : String} (open' : s.sink.location.isSome = true)
    (accepted : DailyFileSink.accepts defaultLogger level = true)
    (opens : OpensFile history s (.log time now opening level text)) :
    (s.destination setting time opening).isSome = true := by
  unfold State.destination DailyFileSink.destination
  split
  · rename_i rotates
    simp [opens accepted rotates]
  · exact open'

theorem taken_of_opensFile {history : List Event} {e : Event}
    (open' : s.sink.location.isSome = true) (opens : OpensFile history s e) :
    s.taken setting e = s.due setting e := by
  cases e with
  | log time now opening level text =>
      rw [State.taken_log, State.due_log]
      cases accepted : DailyFileSink.accepts defaultLogger level with
      | false => rfl
      | true =>
          obtain ⟨location, goes⟩ := Option.isSome_iff_exists.mp
            (destination_of_opensFile open' accepted opens)
          rw [goes, logFile_of_destination goes]
          rfl
  | _ => rfl

/-- The sink has a file open as long as every file could be opened. -/
theorem run_location {proc : Proc} {files : Files} {now : Time} {events : List Event}
    (ran : run (step setting) (State.start setting proc files now) events = some s)
    (opens : EveryStep (step setting) (State.start setting proc files now) OpensFile events) :
    s.sink.location.isSome = true := by
  have always := always_of_everyStep (P := fun _ s => s.sink.location.isSome = true) (by rfl) ?_ opens
  · exact always.last ran
  · intro history before e after reached open' here stepped
    cases steps_of_step stepped with
    | log running =>
        rename_i time now opening level text
        cases accepted : DailyFileSink.accepts defaultLogger level with
        | false =>
            rw [State.log_of_not_accepts accepted]
            exact open'
        | true =>
            rw [State.location_log accepted]
            exact destination_of_opensFile open' accepted here
    | finish _ => simpa using open'
    | _ => exact open'

theorem taken_eq_due_iff {proc : Proc} {files : Files} {now : Time} (events : List Event) :
    taken setting (State.start setting proc files now) events =
        due setting (State.start setting proc files now) events ↔
      EveryStep (step setting) (State.start setting proc files now) OpensFile events := by
  rw [taken, due, collect_eq_iff taken_sublist_due]
  constructor
  · intro whole history e middle pre reached
    exact opensFile_of_taken (whole history e middle pre reached)
  · intro opens history e middle pre reached
    have before := opens.of_prefix ((List.prefix_append history [e]).trans pre)
    exact taken_of_opensFile (run_location reached before) (opens history e middle pre reached)

theorem due_numbers (s : State) (events : List Event) :
    (due setting s events).Pairwise (fun first second => first.2.number < second.2.number) ∧
      ∀ entry ∈ due setting s events, s.calls ≤ entry.2.number := by
  induction events generalizing s with
  | nil => exact ⟨List.Pairwise.nil, by simp [due, collect]⟩
  | cons e rest ih =>
      have own : s.due setting e = [] ∨
          ∃ entry, s.due setting e = [entry] ∧ entry.2.number = s.calls := by
        cases e with
        | log time now opens level text =>
            rw [State.due_log]
            split
            · exact .inr ⟨_, rfl, rfl⟩
            · exact .inl rfl
        | _ => exact .inl rfl
      unfold due collect
      cases stepped : step setting s e with
      | none =>
          rcases own with none_ | ⟨entry, one, number⟩
          · simp [none_]
          · simp [one, number]
      | some t =>
          obtain ⟨ordered, later⟩ := ih t
          have grows : s.calls + (s.due setting e).length ≤ t.calls := by
            cases steps_of_step stepped with
            | log running =>
                rcases own with none_ | ⟨entry, one, -⟩
                · simp [none_]
                · simp [one]
            | _ => exact le_rfl
          rcases own with none_ | ⟨entry, one, number⟩
          · rw [none_, List.length_nil] at grows
            rw [none_, List.nil_append]
            exact ⟨ordered, fun entry after => le_trans grows (later entry after)⟩
          · rw [one, List.length_singleton] at grows
            rw [one, List.singleton_append]
            refine ⟨List.pairwise_cons.mpr ⟨fun second after => ?_, ordered⟩, fun other member => ?_⟩
            · have next := later second after
              omega
            · rcases List.mem_cons.mp member with rfl | after
              · exact number.ge
              · have next := later other after
                omega

theorem due_nodup (s : State) (events : List Event) : (due setting s events).Nodup := by
  refine (due_numbers s events).1.imp fun {first second} less same => ?_
  rw [same] at less
  exact lt_irrefl _ less

/-! ## Up to `daemonize` -/

/-- The disk and the buffer hold what was taken. -/
structure BeforeFork (setting : Setting) (start : State) (history : List Event) (s : State) :
    Prop where
  accounts : s.disk ++ s.sink.pending = taken setting start history
  alone : s.exiting = []
  running : s.finished = false

theorem taken_snoc {start : State} {history : List Event}
    (reached : run (step setting) start history = some s) (e : Event) :
    taken setting start (history ++ [e]) = taken setting start history ++ s.taken setting e :=
  collect_snoc reached e

theorem steps_beforeFork {start : State} {history : List Event} {e : Event}
    (reached : run (step setting) start history = some s) (steps : Steps setting s e t)
    (good : BeforeFork setting start history s) (first : t.daemonized = false) :
    BeforeFork setting start (history ++ [e]) t := by
  obtain ⟨accounts, alone, runs⟩ := good
  have before := taken_snoc reached e
  cases steps with
  | log running =>
      refine ⟨?_, alone, runs⟩
      rw [before, ← accounts, List.append_assoc, State.log_accounts, List.append_assoc]
  | daemonize _ _ => cases first
  | exitParent there =>
      rw [alone] at there
      cases there
  | writeConfig =>
      refine ⟨?_, alone, runs⟩
      rw [before, ← accounts]
      exact (List.append_nil _).symm
  | finish daemonized =>
      have stays : s.daemonized = false := first
      rw [daemonized] at stays
      cases stays

theorem not_daemonized_of_steps {e : Event} (steps : Steps setting s e t)
    (first : t.daemonized = false) : s.daemonized = false := by
  cases steps with
  | daemonize _ _ => cases first
  | _ => exact first

theorem run_before {proc : Proc} {files : Files} {now : Time} {events : List Event}
    (ran : run (step setting) (State.start setting proc files now) events = some s)
    (first : s.daemonized = false) :
    BeforeFork setting (State.start setting proc files now) events s := by
  revert first
  refine run_induction (P := fun history s => s.daemonized = false →
    BeforeFork setting (State.start setting proc files now) history s) ?_ ?_ ran
  · intro _
    exact ⟨rfl, rfl, rfl⟩
  · intro history middle e after reached ih stepped first
    have steps := steps_of_step stepped
    exact steps_beforeFork reached steps (ih (not_daemonized_of_steps steps first)) first

/-- While every file could be opened, the buffer is empty exactly after a flushing
record. -/
theorem pending_before_iff {proc : Proc} {files : Files} {now : Time} {events : List Event}
    (ran : run (step setting) (State.start setting proc files now) events = some s)
    (first : s.daemonized = false)
    (opens : EveryStep (step setting) (State.start setting proc files now) OpensFile events) :
    s.sink.pending = [] ↔ LastFlushes (acceptedLevels events) := by
  revert first opens
  refine run_induction (P := fun history s => s.daemonized = false →
    EveryStep (step setting) (State.start setting proc files now) OpensFile history →
      (s.sink.pending = [] ↔ LastFlushes (acceptedLevels history))) ?_ ?_ ran
  · intro _ _
    simp [State.start, DailyFileSink.create, DailyFileSink.pending, OpenFile.pending, acceptedLevels,
      LastFlushes]
  · intro history middle e after reached ih stepped first opens
    have steps := steps_of_step stepped
    obtain ⟨opensBefore, here⟩ := (everyStep_snoc_iff reached).mp opens
    have same := ih (not_daemonized_of_steps steps first) opensBefore
    rw [acceptedLevels_snoc]
    cases steps with
    | log running =>
        rename_i time now opening level text
        cases accepted : DailyFileSink.accepts defaultLogger level with
        | false =>
            have none_ : acceptedLevels [.log time now opening level text] = [] := by
              simp [acceptedLevels, accepted]
            simp only [State.log_of_not_accepts accepted, none_, List.append_nil]
            exact same
        | true =>
            have one : acceptedLevels [.log time now opening level text] = [level] := by
              simp [acceptedLevels, accepted]
            rw [one, lastFlushes_snoc]
            exact DailyFileSink.pending_log (by exact accepted)
              (destination_of_opensFile (run_location reached opensBefore) accepted here)
    | daemonize _ _ => cases first
    | exitParent there =>
        have earlier : middle.daemonized = false := first
        have alone := (run_before reached earlier).alone
        rw [alone] at there
        cases there
    | writeConfig => simpa [acceptedLevels] using same
    | finish daemonized =>
        have stays : middle.daemonized = false := first
        rw [daemonized] at stays
        cases stays

/-! ## After `daemonize` -/

/-- Since the state `fork`: `out` is what the daemon has written, and the disk has it
with the copies of the parents that are gone. -/
structure AfterFork (setting : Setting) (fork : State) (history : List Event) (s : State)
    (out : Disk) : Prop where
  ordered : out.Sublist s.disk
  accounts : out ++ s.sink.pending = fork.sink.pending ++ taken setting fork history
  copies : (s.disk ++ s.exiting.flatMap (·.pending)).Perm
    (fork.disk ++ fork.exiting.flatMap (·.pending) ++ out)
  daemonized : s.daemonized = true
  closed : s.finished = true → s.sink.pending = []

/-- A step in which the daemon writes `more` of its buffer and what it logs. -/
theorem AfterFork.written {fork : State} {history : List Event} {e : Event} {out more : Disk}
    (good : AfterFork setting fork history s out)
    (reached : run (step setting) fork history = some s) (disk : t.disk = s.disk ++ more)
    (buffer : more ++ t.sink.pending = s.sink.pending ++ s.taken setting e)
    (exiting : t.exiting = s.exiting) (daemonized : t.daemonized = true)
    (closed : t.finished = true → t.sink.pending = []) :
    AfterFork setting fork (history ++ [e]) t (out ++ more) := by
  refine ⟨?_, ?_, ?_, daemonized, closed⟩
  · rw [disk]
    exact good.ordered.append (List.Sublist.refl more)
  · rw [taken_snoc reached, List.append_assoc, buffer, ← List.append_assoc, good.accounts,
      List.append_assoc]
  · rw [disk, exiting]
    refine List.perm_iff_count.mpr fun r => ?_
    have counted := good.copies.count_eq r
    simp only [List.count_append] at counted ⊢
    omega

theorem steps_afterFork {fork : State} {history : List Event} {e : Event} {out : Disk}
    (reached : run (step setting) fork history = some s) (steps : Steps setting s e t)
    (good : AfterFork setting fork history s out) :
    ∃ more, AfterFork setting fork (history ++ [e]) t more := by
  cases steps with
  | log running =>
      refine ⟨_, good.written reached rfl State.log_accounts rfl good.daemonized fun finished => ?_⟩
      have stopped : s.finished = true := finished
      rw [running] at stopped
      cases stopped
  | daemonize first _ =>
      have daemonized := good.daemonized
      rw [first] at daemonized
      cases daemonized
  | exitParent there =>
      rename_i i parent
      refine ⟨out, ?_, ?_, ?_, good.daemonized, good.closed⟩
      · exact good.ordered.trans (List.sublist_append_left _ _)
      · rw [taken_snoc reached, ← List.append_assoc, ← good.accounts]
        exact (List.append_nil _).symm
      · -- the copy of the parent goes from `exiting` to the disk
        obtain ⟨inside, same⟩ := List.getElem?_eq_some_iff.mp there
        have split := (List.getElem_cons_eraseIdx_perm inside).flatMap_right (·.pending)
        rw [same] at split
        refine List.perm_iff_count.mpr fun r => ?_
        have counted := good.copies.count_eq r
        have splitCount := split.count_eq r
        simp only [List.flatMap_cons, List.count_append] at counted splitCount ⊢
        omega
  | writeConfig =>
      refine ⟨out, good.ordered, ?_, good.copies, good.daemonized, good.closed⟩
      rw [taken_snoc reached, ← List.append_assoc, ← good.accounts]
      exact (List.append_nil _).symm
  | finish _ =>
      refine ⟨_, good.written reached rfl ?_ rfl good.daemonized fun _ => DailyFileSink.pending_flush⟩
      rw [DailyFileSink.pending_flush]
      rfl

theorem run_after {fork : State} {events : List Event} (forked : fork.daemonized = true)
    (running : fork.finished = false) (ran : run (step setting) fork events = some s) :
    ∃ out, AfterFork setting fork events s out := by
  refine run_induction (P := fun history s => ∃ out, AfterFork setting fork history s out) ?_ ?_ ran
  · refine ⟨[], List.nil_sublist _, by simp [taken, collect], by simp, forked, fun finished => ?_⟩
    rw [running] at finished
    cases finished
  · rintro history middle e after reached ⟨out, good⟩ stepped
    exact steps_afterFork reached (steps_of_step stepped) good

/-- What is on the disk when all three processes are gone: what was taken, and the
buffer of the fork twice more. -/
theorem disk_of_run {proc : Proc} {files : Files} {now : Time} {before after : List Event}
    {sys : Sys} (ran : run (step setting) (State.start setting proc files now)
      (before ++ .daemonize sys :: after) = some s)
    (finished : s.finished = true) (exited : s.exiting = []) :
    ∃ atCall fork, run (step setting) (State.start setting proc files now) before = some atCall ∧
      atCall.daemonized = false ∧ step setting atCall (.daemonize sys) = some fork ∧
      (atCall.sink.pending ++ taken setting fork after).Sublist s.disk ∧
      ∀ entry, s.disk.count entry =
        (taken setting (State.start setting proc files now)
            (before ++ .daemonize sys :: after)).count entry +
          2 * atCall.sink.pending.count entry := by
  rw [run_append] at ran
  obtain ⟨atCall, reached, ran⟩ := Option.bind_eq_some_iff.mp ran
  rw [run_cons] at ran
  obtain ⟨fork, forked, ranAfter⟩ := Option.bind_eq_some_iff.mp ran
  have steps := steps_of_step forked
  refine ⟨atCall, fork, reached, ?_, forked, ?_⟩
  · cases steps with
    | daemonize first _ => exact first
  have parts : taken setting (State.start setting proc files now)
      (before ++ .daemonize sys :: after) = _ := collect_append_cons reached forked rfl after
  cases steps with
  | daemonize first _ =>
      have good := run_before reached first
      have whole := run_after (by rfl) (by exact good.running) ranAfter
      obtain ⟨out, ordered, accounts, copies, -, closed⟩ := whole
      rw [closed finished, List.append_nil] at accounts
      rw [exited] at copies
      simp only at accounts
      refine ⟨accounts ▸ ordered, fun entry => ?_⟩
      have onDisk := copies.count_eq entry
      have atFork := congrArg (List.count entry) good.accounts
      simp only [List.flatMap_nil, List.flatMap_cons, List.append_nil, accounts,
        List.count_append] at onDisk atFork
      rw [parts, List.count_append]
      simp only [taken] at onDisk atFork ⊢
      omega

end

/-! ## Two short runs -/

def logSetting : Setting where
  libs := plainLibraries "8888" 8888
  date _ := "today"
  cfg := ⟨{ port := 8888 }, savedDocument 8888, .relative ["lynx.toml"], { port := some "8888" }⟩

def logStart : State :=
  State.start logSetting (Proc.startUp [some 0, some 1, some 2] [] 0o22 []) plainFiles 0

/-- The daemon logs, then all three processes end. -/
def daemonPart : List Event :=
  [.log 20 20 true .debug "working", .exitParent 1, .exitParent 0, .finish]

end Lynx.Daemon
