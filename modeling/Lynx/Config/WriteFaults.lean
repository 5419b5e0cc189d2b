/-
# Config.WriteFaults — a write that fails half way

`write_to_file` opens the target, which empties it, makes the text, inserts it into the
stream and closes the stream.  `toml::format` may throw: then the exception leaves the
operation, which returns neither value.  The stream buffers: a text that fills the
buffer is sent on by the insertion, any other by the flush in `close()`.  Each of the
steps can fail (`Faults`), and only the opening is looked at; the stream itself would
tell (`Faults.arrived_of_good`).  The four operations report truthfully and fail cleanly
exactly when, once the target is open, the text can be made and nothing fails before
its last character (`truthfulAndClean_iff`).

No other process takes part here.
-/
import Lynx.Config.RoundTrip
import Lynx.Theory.OutputStream

namespace Lynx.Config

open Lynx.Theory
open Lynx.Theory.PathResolution

set_option autoImplicit false

/-- What becomes of the steps of one `write_to_file`. -/
structure Faults where
  /-- How much text fills the buffer of `out_file`. -/
  capacity : Nat
  /-- The constructor of `out_file` opens the file, if the tree allows it. -/
  opens : Bool := true
  /-- The transfer in `out_file << text`, when the text fills the buffer. -/
  writing : Transfer := .completes
  /-- The transfer of the buffer in `out_file.close()`. -/
  flushing : Transfer := .completes
  /-- The file itself is closed without an error. -/
  closes : Bool := true
  deriving DecidableEq, Repr

namespace Faults

/-- `out_file` after `out_file << text` and `out_file.close()`. -/
def outFile (faults : Faults) (text : Text) : OutputStream Char :=
  (({} : OutputStream Char).insert faults.capacity faults.writing text).close faults.flushing
    faults.closes

/-- What `writeToFile` sees of the faults. -/
def io (faults : Faults) (text : Except String Text) : Io where
  opens := faults.opens
  delivered :=
    match text with
    | .error _ => 0
    | .ok text => (faults.outFile text).arrived.length

/-- No transfer of a text of `length` characters fails before the last one. -/
def Delivers (faults : Faults) (length : Nat) : Prop :=
  (if faults.capacity ≤ length then faults.writing else faults.flushing).Covers length

instance (faults : Faults) (length : Nat) : Decidable (faults.Delivers length) :=
  inferInstanceAs (Decidable (Transfer.Covers _ length))

theorem within_outFile (faults : Faults) (text : Text) :
    OutputStream.Within text (faults.outFile text) :=
  (OutputStream.within_empty.insert faults.capacity faults.writing text).close faults.flushing
    faults.closes

/-- The file holds what arrived. -/
theorem arrived_io (faults : Faults) (text : Text) :
    (faults.io (.ok text)).arrived (.ok text) = (faults.outFile text).arrived := by
  have beginning := (faults.within_outFile text).beginning
  rw [outFile, OutputStream.buffer_close, List.append_nil] at beginning
  exact (List.prefix_iff_eq_take.mp beginning).symm

theorem arrived_eq_iff {faults : Faults} {text : Text} :
    (faults.outFile text).arrived = text ↔ faults.Delivers text.length := by
  unfold outFile Delivers
  rw [OutputStream.arrived_close, OutputStream.insert_empty]
  by_cases full : faults.capacity ≤ text.length
  · simp [full, Transfer.sent_eq_iff]
  · simp [full, Transfer.sent_eq_iff]

/-- The fault points and `Io.Whole`, on which the results about saved files rest. -/
theorem whole_io_iff {faults : Faults} {text : Text} :
    (faults.io (.ok text)).Whole text ↔ faults.Delivers text.length := by
  rw [← arrived_eq_iff, ← arrived_io]
  exact (List.take_eq_self_iff text).symm

-- A short text waits in the buffer until `close()`: only the flush can lose it.
example : ({ capacity := 1024, writing := .failsAfter 0 } : Faults).Delivers 70 ∧
    ¬ ({ capacity := 1024, flushing := .failsAfter 69 } : Faults).Delivers 70 := by decide

/-- A stream that is good after `close()` has delivered the text: the test that
`write_to_file` does not make. -/
theorem arrived_of_good {faults : Faults} {text : Text}
    (good : (faults.outFile text).good = true) : (faults.outFile text).arrived = text :=
  (faults.within_outFile text).arrived_eq rfl good

end Faults

section

variable (op : WriteOp) (libs : Libraries) (cfg : Config) (faults : Faults) (cwd : Location)
variable (files : Files)

/-- An operation under the given faults. -/
def runWith : Written :=
  op.run libs cfg (faults.io (libs.format cfg.tomlRoot)) cwd files

/-- The operation gets to open its target. -/
def OpensTarget : Prop :=
  ∃ target, op.Opens cfg (faults.io (libs.format cfg.tomlRoot)) cwd files target

/-- The complete text can be written: the target is opened, `toml::format` makes the text,
and all of it arrives. -/
def Completes : Prop :=
  OpensTarget op libs cfg faults cwd files ∧
    ∃ text, libs.format cfg.tomlRoot = .ok text ∧ (faults.outFile text).arrived = text

/-- The operation is true only with the text in its file, and an incomplete write is
false and leaves every file with the contents it had. -/
structure TruthfulAndClean : Prop where
  truthful : (runWith op libs cfg faults cwd files).ok = true →
    ∃ text, libs.format cfg.tomlRoot = .ok text ∧
      ((runWith op libs cfg faults cwd files).files.node cwd (op.filename cfg)).contents = some text
  clean : ¬ Completes op libs cfg faults cwd files →
    (runWith op libs cfg faults cwd files).result = .ok false ∧
      files.Keeps (runWith op libs cfg faults cwd files).files

end

section

variable {op : WriteOp} {libs : Libraries} {cfg : Config} {faults : Faults} {cwd : Location}
variable {files : Files} {text : Text}

theorem contents_of_opens (opened : OpensTarget op libs cfg faults cwd files)
    (formats : libs.format cfg.tomlRoot = .ok text) :
    ((runWith op libs cfg faults cwd files).files.node cwd (op.filename cfg)).contents =
      some (faults.outFile text).arrived := by
  obtain ⟨target, opens⟩ := opened
  rw [runWith, WriteOp.node_of_opens opens, formats, Faults.arrived_io]
  rfl

theorem truthfulAndClean_of_not_opens (closed : ¬ OpensTarget op libs cfg faults cwd files) :
    TruthfulAndClean op libs cfg faults cwd files := by
  obtain ⟨failed, unchanged⟩ := WriteOp.run_of_not_opens libs closed
  constructor
  · intro ok
    exact absurd (WriteOp.ok_iff.mp ok).1 closed
  · intro _
    refine ⟨failed, ?_⟩
    rw [runWith, unchanged, WriteOp.before_of_alone rfl]
    exact Files.Keeps.refl files

/-- An exception is neither value. -/
theorem not_truthfulAndClean_of_throws (opened : OpensTarget op libs cfg faults cwd files)
    {what : String} (throws : libs.format cfg.tomlRoot = .error what) :
    ¬ TruthfulAndClean op libs cfg faults cwd files := by
  intro holds
  have incomplete : ¬ Completes op libs cfg faults cwd files := by
    rintro ⟨-, text, formats, -⟩
    rw [throws] at formats
    cases formats
  obtain ⟨target, opens⟩ := opened
  have failed := (holds.clean incomplete).1
  rw [runWith, (WriteOp.run_of_opens libs opens).1, throws] at failed
  cases failed

/-- Once the target is open, all of the text has to arrive. -/
theorem truthfulAndClean_iff_arrived (opened : OpensTarget op libs cfg faults cwd files)
    (formats : libs.format cfg.tomlRoot = .ok text) :
    TruthfulAndClean op libs cfg faults cwd files ↔ (faults.outFile text).arrived = text := by
  have left := contents_of_opens opened formats
  constructor
  · intro holds
    obtain ⟨other, formats', there⟩ := holds.truthful (WriteOp.ok_iff.mpr ⟨opened, text, formats⟩)
    obtain rfl : text = other := Except.ok.inj (formats.symm.trans formats')
    rw [left] at there
    exact Option.some.inj there
  · intro whole
    constructor
    · intro _
      refine ⟨text, formats, ?_⟩
      rw [left, whole]
    · intro incomplete
      exact absurd ⟨opened, text, formats, whole⟩ incomplete

/-- **When a write reports truthfully and fails cleanly.**  Exactly when, if the
operation opens its target at all, `toml::format` makes the text and no transfer fails
before its last character. -/
theorem truthfulAndClean_iff :
    TruthfulAndClean op libs cfg faults cwd files ↔
      (OpensTarget op libs cfg faults cwd files →
        ∃ text, libs.format cfg.tomlRoot = .ok text ∧ faults.Delivers text.length) := by
  by_cases opened : OpensTarget op libs cfg faults cwd files
  · simp only [opened, true_implies, ← Faults.arrived_eq_iff]
    cases formats : libs.format cfg.tomlRoot with
    | error what =>
        have fails := not_truthfulAndClean_of_throws opened formats
        simpa using fails
    | ok text =>
        rw [truthfulAndClean_iff_arrived opened formats]
        simp
  · have clean := truthfulAndClean_of_not_opens opened
    exact ⟨fun _ opens => absurd opens opened, fun _ => clean⟩

end

/-- The file of an earlier save. -/
def savedFiles (readable : Bool) : Files :=
  plainFiles.set ["lynx.toml.sav"] (.file (savedText "9999") readable true)

/-- A configuration parsed from an empty file, with the port on the command line. -/
def plainConfig : Config :=
  ⟨{ port := 8888 }, savedDocument 8888, .relative ["lynx.toml"], { port := some "8888" }⟩

/-- On a full disk the flush in `close()` fails: the earlier save is gone, nothing is
in its place, and the operation is true. -/
theorem fullDisk_reportedSaved :
    ¬ ∀ (op : WriteOp) (libs : Libraries) (cfg : Config) (faults : Faults) (cwd : Location)
        (files : Files), TruthfulAndClean op libs cfg faults cwd files := by
  intro clean
  have fullDisk := clean (.writeConfigAs savFile) (plainLibraries "8888" 8888) plainConfig
    { capacity := 1024, flushing := .failsAfter 0 } [] (savedFiles true)
  obtain ⟨text, formats, saved⟩ := fullDisk.truthful (by decide)
  obtain rfl : savedText "8888" = text := Except.ok.inj formats
  exact absurd saved (by decide)

end Lynx.Config
