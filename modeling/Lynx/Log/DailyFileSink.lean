/-
# Log.DailyFileSink — the log file, its buffer, and its change at midnight

`daily_file_sink` writes through a `FILE*`: a record stays in the buffer of the
process until the sink is flushed, or until the next file is opened, which closes
this one.  Which file is open is decided when it is opened: the base name is
relative, so it is followed from the working directory of that moment.  When the next
file cannot be opened, `file_helper::open` throws after its tries: the old file is
closed, the record is not written, and the logger swallows the exception; the next
record tries again.

What reaches the disk is listed in order of arrival, each record with the file it
went to.  The buffer between a log call and the disk is the only state the
results on daemonizing need: `log_accounts` says that a record is lost exactly when it
finds no file, and that none is doubled, `pending_log` what stays behind.
-/
import Lynx.Log.LoggerConfig
import Lynx.Theory.PathResolution

namespace Lynx.Log

open Lynx.Theory.PathResolution

set_option autoImplicit false

/-- A record, with the number of the log call that made it. -/
structure Record where
  level : Level
  text : String
  number : Nat
  deriving DecidableEq, Repr

/-- Records in the order in which they reached a file, with the file. -/
abbrev Disk := List (Location × Record)

/-- Seconds of local time since some midnight. -/
abbrev Time := Nat

/-- A `FILE*`, with what has been written and not flushed. -/
structure OpenFile where
  location : Location
  buffer : List Record
  deriving DecidableEq, Repr

/-- What the buffer adds to the disk when it is written out. -/
def OpenFile.pending (file : OpenFile) : Disk :=
  file.buffer.map fun record => (file.location, record)

structure DailyFileSink where
  /-- `file_helper_.fd_`; none after an opening that failed. -/
  fd : Option OpenFile
  rotationTp : Time
  deriving DecidableEq, Repr

namespace DailyFileSink

/-- `daily_filename_calculator::calc_filename("logs/daily.log", time)`, where
`date` writes the number of a day as year, month and day. -/
def calcFilename (date : Nat → String) (time : Time) : Path :=
  .relative ["logs", "daily_" ++ date (time / 86400) ++ ".log"]

/-- `next_rotation_tp_` for a rotation at 00:00: the next midnight. -/
def nextRotationTp (now : Time) : Time := (now / 86400 + 1) * 86400

/-- The sink as `LoggerConfig::init` creates it. -/
def create (date : Nat → String) (cwd : Location) (now : Time) : DailyFileSink where
  fd := some ⟨place cwd (calcFilename date now), []⟩
  rotationTp := nextRotationTp now

/-- The file that is open. -/
def location (sink : DailyFileSink) : Option Location := sink.fd.map (·.location)

/-- What the sink adds to the disk when it is flushed or closed. -/
def pending (sink : DailyFileSink) : Disk :=
  match sink.fd with
  | some file => file.pending
  | none => []

def flush (sink : DailyFileSink) : DailyFileSink × Disk :=
  ({ sink with fd := sink.fd.map fun file => { file with buffer := [] } }, sink.pending)

/-- `file_helper::write`: without a file it returns. -/
def write (record : Record) (sink : DailyFileSink) : DailyFileSink :=
  { sink with fd := sink.fd.map fun file => { file with buffer := file.buffer ++ [record] } }

/-- `daily_file_sink::sink_it_`: at the first record from the rotation time on the
next file is opened, if it `opens`. -/
def sinkIt (date : Nat → String) (cwd : Location) (time now : Time) (opens : Bool)
    (record : Record) (sink : DailyFileSink) : DailyFileSink × Disk :=
  if sink.rotationTp ≤ time then
    if opens then
      ({ fd := some ⟨place cwd (calcFilename date time), [record]⟩
         rotationTp := nextRotationTp now }, sink.pending)
    else ({ sink with fd := none }, sink.pending)
  else (sink.write record, [])

/-- `logger::log` as far as the file sink sees it. -/
def log {Stream : Type} (logger : Logger Stream) (date : Nat → String) (cwd : Location)
    (time now : Time) (opens : Bool) (record : Record) (sink : DailyFileSink) :
    DailyFileSink × Disk :=
  if logger.shouldLog record.level then
    let written :=
      if (Sink.dailyFileSink : Sink Stream).shouldLog record.level then
        sink.sinkIt date cwd time now opens record
      else (sink, [])
    if logger.shouldFlush record.level then
      (written.1.flush.1, written.2 ++ written.1.flush.2)
    else written
  else (sink, [])

/-- The logger and its file sink both take a record of this level. -/
def accepts {Stream : Type} (logger : Logger Stream) (level : Level) : Bool :=
  logger.shouldLog level && (Sink.dailyFileSink : Sink Stream).shouldLog level

/-- The file a record made at `time` is written to, when it can be. -/
def destination (date : Nat → String) (cwd : Location) (time : Time) (opens : Bool)
    (sink : DailyFileSink) : Option Location :=
  if sink.rotationTp ≤ time then
    if opens then some (place cwd (calcFilename date time)) else none
  else sink.location

section

variable {Stream : Type} {logger : Logger Stream} {date : Nat → String} {cwd : Location}
variable {time now : Time} {opens : Bool} {record : Record} {sink : DailyFileSink}

/-! ## Where the file is -/

theorem dropLast_place_calcFilename (date : Nat → String) (cwd : Location) (time : Time) :
    (place cwd (calcFilename date time)).dropLast = cwd ++ ["logs"] := by
  have long : 10 ≤ ("daily_" ++ date (time / 86400) ++ ".log").length := by
    have daily : "daily_".length = 6 := by decide
    have log : ".log".length = 4 := by decide
    rw [String.length_append, String.length_append]
    omega
  have named : ∀ special : String, special.length < 10 →
      "daily_" ++ date (time / 86400) ++ ".log" ≠ special := by
    intro special short same
    rw [same] at long
    omega
  have plain : follow (cwd ++ ["logs"]) ("daily_" ++ date (time / 86400) ++ ".log") =
      (cwd ++ ["logs"]) ++ ["daily_" ++ date (time / 86400) ++ ".log"] := by
    unfold follow
    rw [if_neg, if_neg (named ".." (by decide))]
    rintro (empty | dot)
    · exact named "" (by decide) empty
    · exact named "." (by decide) dot
  have inLogs : place cwd (calcFilename date time) =
      follow (cwd ++ ["logs"]) ("daily_" ++ date (time / 86400) ++ ".log") := rfl
  rw [inLogs, plain, List.dropLast_concat]

/-- What is pending goes to the file that is open. -/
theorem location_of_mem_pending {entry : Location × Record} (member : entry ∈ sink.pending) :
    sink.location = some entry.1 := by
  unfold pending at member
  unfold location
  cases open' : sink.fd with
  | none =>
      rw [open'] at member
      cases member
  | some file =>
      rw [open'] at member
      obtain ⟨_, -, rfl⟩ := List.mem_map.mp member
      rfl

/-! ## What one log call does -/

theorem pending_flush : sink.flush.1.pending = [] := by
  unfold flush pending
  cases sink.fd <;> rfl

theorem pending_write :
    (sink.write record).pending =
      sink.pending ++ sink.location.toList.map fun location => (location, record) := by
  unfold write pending location
  cases sink.fd with
  | none => rfl
  | some file => simp [OpenFile.pending]

theorem sinkIt_accounts :
    (sink.sinkIt date cwd time now opens record).2 ++
        (sink.sinkIt date cwd time now opens record).1.pending =
      sink.pending ++
        (sink.destination date cwd time opens).toList.map fun location => (location, record) := by
  unfold sinkIt destination
  by_cases rotates : sink.rotationTp ≤ time
  · cases opens with
    | true => simp [rotates, pending, OpenFile.pending]
    | false => simp [rotates, pending]
  · simp only [rotates, if_false, List.nil_append]
    exact pending_write

/-- **No record is doubled between the log call and the disk, and one is lost only when
there is no file for it.** -/
theorem log_accounts :
    (sink.log logger date cwd time now opens record).2 ++
        (sink.log logger date cwd time now opens record).1.pending =
      sink.pending ++
        if accepts logger record.level then
          (sink.destination date cwd time opens).toList.map fun location => (location, record)
        else [] := by
  unfold log accepts
  by_cases logged : logger.shouldLog record.level = true
  · by_cases taken : (Sink.dailyFileSink : Sink Stream).shouldLog record.level = true
    · have sunk : (sink.sinkIt date cwd time now opens record).2 ++
          (sink.sinkIt date cwd time now opens record).1.pending = _ := sinkIt_accounts
      by_cases flushed : logger.shouldFlush record.level = true
      · simp only [logged, taken, flushed, if_true, Bool.and_self]
        rw [pending_flush, List.append_nil]
        exact sunk
      · simpa [logged, taken, flushed] using sunk
    · by_cases flushed : logger.shouldFlush record.level = true
      · simp only [logged, taken, flushed, if_true, Bool.and_false, Bool.false_eq_true, if_false]
        rw [pending_flush]
        simp [flush]
      · simp [logged, taken, flushed]
  · simp [logged]

/-- A record that finds its file stays in the buffer unless it flushes. -/
theorem pending_log (accepted : accepts logger record.level = true)
    (finds : (sink.destination date cwd time opens).isSome = true) :
    (sink.log logger date cwd time now opens record).1.pending = [] ↔
      logger.shouldFlush record.level = true := by
  obtain ⟨logged, taken⟩ := (Bool.and_eq_true _ _).mp accepted
  by_cases flushed : logger.shouldFlush record.level = true
  · simp [log, logged, flushed, pending_flush]
  · simp only [log, logged, taken, flushed, if_true, Bool.false_eq_true, if_false, iff_false]
    obtain ⟨location, found⟩ := Option.isSome_iff_exists.mp finds
    unfold destination at found
    unfold sinkIt
    by_cases rotates : sink.rotationTp ≤ time
    · rw [if_pos rotates] at found ⊢
      cases opens with
      | true => simp [pending, OpenFile.pending]
      | false => cases found
    · rw [if_neg rotates] at found ⊢
      rw [pending_write, found]
      simp

@[simp] theorem location_flush : sink.flush.1.location = sink.location := by
  simp [flush, location, Function.comp_def]

theorem location_sinkIt :
    (sink.sinkIt date cwd time now opens record).1.location =
      sink.destination date cwd time opens := by
  unfold sinkIt destination
  by_cases rotates : sink.rotationTp ≤ time
  · cases opens <;> simp [rotates, location]
  · simp [rotates, location, write, Function.comp_def]

/-- After a log call the file is open that the record went to, if one was accepted. -/
theorem location_log :
    (sink.log logger date cwd time now opens record).1.location =
      if accepts logger record.level then sink.destination date cwd time opens
      else sink.location := by
  unfold log accepts
  by_cases logged : logger.shouldLog record.level = true
  · by_cases taken : (Sink.dailyFileSink : Sink Stream).shouldLog record.level = true
    · by_cases flushed : logger.shouldFlush record.level = true <;>
        simp [logged, taken, flushed, location_sinkIt]
    · by_cases flushed : logger.shouldFlush record.level = true <;> simp [logged, taken, flushed]
  · simp [logged]

end

end DailyFileSink

end Lynx.Log
