/-
# Config.SafeWrite — what the safe writes overwrite

`safe_write_config` and `safe_write_config_as` mean to leave an existing file alone,
and test for one by opening it for reading.  Two kinds of files escape the test
(`Escapes`): one that was there and may not be read, and one that another process
puts there before the target is opened.  The opening then truncates it, if it may be
written.  Nothing else can go wrong: a safe write changes no file and is true only for a
file it created exactly when no file escapes the test (`neverClobbers_iff`), or the one
that does is empty and the operation ends in an exception of `toml::format`.
-/
import Lynx.Config.WriteFaults

namespace Lynx.Config

open Lynx.Theory.PathResolution

set_option autoImplicit false

/-- How a file at the target that may be written escapes the existence test: what the
test looked at, and what is there when the target is opened. -/
inductive Escapes (seen later : Node) : Prop where
  /-- It was there and may not be read. -/
  | unreadable {content : Text} (there : seen = .file content false true) (unchanged : later = seen)
  /-- Another process put it there, or changed what was there. -/
  | appeared {content : Text} {readable : Bool} (changed : later ≠ seen)
      (there : later = .file content readable true)

theorem escapes_iff {files : Files} {cwd : Location} {path : Path} {later : Node}
    (unseen : files.fileExists cwd path = false) :
    Escapes (files.node cwd path) later ↔
      ∃ content readable, later = .file content readable true := by
  constructor
  · intro escaped
    cases escaped with
    | unreadable there unchanged => exact ⟨_, _, unchanged.trans there⟩
    | appeared _ there => exact ⟨_, _, there⟩
  · rintro ⟨content, readable, there⟩
    by_cases unchanged : later = files.node cwd path
    · have old : files.node cwd path = .file content readable true := unchanged ▸ there
      obtain rfl : readable = false := by simpa [Files.fileExists, old] using unseen
      exact .unreadable old unchanged
    · exact .appeared unchanged there

namespace WriteOp

def isSafe : WriteOp → Bool
  | .safeWriteConfig => true
  | .safeWriteConfigAs _ => true
  | .writeConfig => false
  | .writeConfigAs _ => false

section

variable {op : WriteOp} {cfg : Config} {cwd : Location} {files : Files}

/-- A safe write stops at a file that it can read. -/
theorem passes_of_isSafe (safe : op.isSafe = true) :
    op.passes cfg cwd files = !files.fileExists cwd (op.filename cfg) := by
  cases op with
  | safeWriteConfig | safeWriteConfigAs _ => rfl
  | writeConfig | writeConfigAs _ => cases safe

theorem before_of_isSafe (safe : op.isSafe = true) (io : Io)
    (passes : op.passes cfg cwd files = true) :
    op.before cfg io cwd files = io.meanwhile files := by
  cases op with
  | safeWriteConfig | safeWriteConfigAs _ => exact if_pos passes
  | writeConfig | writeConfigAs _ => cases safe

end

end WriteOp

/-- The files there are when the target is opened keep their contents, and the
operation is true only if it created the target. -/
structure NeverClobbers (op : WriteOp) (libs : Libraries) (cfg : Config) (io : Io)
    (cwd : Location) (files : Files) : Prop where
  keeps : (op.before cfg io cwd files).Keeps (op.run libs cfg io cwd files).files
  created : (op.run libs cfg io cwd files).ok = true →
    (op.before cfg io cwd files).node cwd (op.filename cfg) = .absent ∧
      ((op.run libs cfg io cwd files).files.node cwd (op.filename cfg)).contents.isSome = true

/-- The file that is truncated was empty, and nothing is returned for it. -/
def Untouched (op : WriteOp) (libs : Libraries) (cfg : Config) (cwd : Location)
    (later : Files) : Prop :=
  (∃ what, libs.format cfg.tomlRoot = .error what) ∧
    (later.node cwd (op.filename cfg)).contents = some []

section

variable {op : WriteOp} {libs : Libraries} {cfg : Config} {io : Io} {cwd target : Location}
variable {files : Files}

theorem neverClobbers_of_not_opens (closed : ¬ ∃ target, op.Opens cfg io cwd files target) :
    NeverClobbers op libs cfg io cwd files := by
  constructor
  · rw [(WriteOp.run_of_not_opens libs closed).2]
    exact Files.Keeps.refl _
  · intro ok
    exact absurd (WriteOp.ok_iff.mp ok).1 closed

theorem neverClobbers_of_absent (opened : op.Opens cfg io cwd files target)
    (absent : (op.before cfg io cwd files).node cwd (op.filename cfg) = .absent) :
    NeverClobbers op libs cfg io cwd files := by
  have resolved := (Files.openTarget_eq_some opened.target).1
  constructor
  · rw [(WriteOp.run_of_opens libs opened).2]
    rw [Files.node_of_resolve resolved] at absent
    exact Files.keeps_set_of_absent _ absent
  · intro _
    refine ⟨absent, ?_⟩
    rw [WriteOp.node_of_opens opened]
    rfl

/-- An existing file is truncated, which nobody sees only if it was empty and the
operation throws. -/
theorem neverClobbers_iff_untouched {content : Text} {readable writable : Bool}
    (opened : op.Opens cfg io cwd files target)
    (there : (op.before cfg io cwd files).node cwd (op.filename cfg) =
      .file content readable writable) :
    NeverClobbers op libs cfg io cwd files ↔
      Untouched op libs cfg cwd (op.before cfg io cwd files) := by
  have after := (WriteOp.run_of_opens libs opened).2
  have resolved := (Files.openTarget_eq_some opened.target).1
  have inPlace := Files.node_of_resolve resolved
  rw [there] at inPlace
  constructor
  · intro holds
    cases formats : libs.format cfg.tomlRoot with
    | ok text =>
        have created := holds.created (WriteOp.ok_iff.mpr ⟨⟨target, opened⟩, text, formats⟩)
        rw [there] at created
        cases created.1
    | error what =>
        have kept := holds.keeps target content (by rw [← inPlace, Node.contents])
        rw [after, Files.set_self, formats] at kept
        have empty : some [] = some content := kept
        exact ⟨⟨what, formats⟩, by rw [there]; exact empty.symm⟩
  · rintro ⟨⟨what, throws⟩, empty⟩
    rw [there] at empty
    constructor
    · intro location old here
      rw [after, throws]
      by_cases same : location = target
      · subst same
        rw [← inPlace, empty] at here
        rw [Files.set_self]
        exact here
      · rwa [Files.set_of_ne _ _ same]
    · intro ok
      obtain ⟨-, text, formats⟩ := WriteOp.ok_iff.mp ok
      rw [throws] at formats
      cases formats

/-- **When a safe write does not clobber.**  Exactly when the existence test stops it,
or the system does not let the target be opened, or no file escapes the test — or the
file that escapes is empty and `toml::format` throws. -/
theorem neverClobbers_iff (safe : op.isSafe = true) :
    NeverClobbers op libs cfg io cwd files ↔
      (op.passes cfg cwd files = true → io.opens = true →
        Escapes (files.node cwd (op.filename cfg))
            ((io.meanwhile files).node cwd (op.filename cfg)) →
          Untouched op libs cfg cwd (io.meanwhile files)) := by
  by_cases passes : op.passes cfg cwd files = true
  · have later := WriteOp.before_of_isSafe safe io passes
    have unseen : files.fileExists cwd (op.filename cfg) = false := by
      have test := passes
      rw [WriteOp.passes_of_isSafe safe] at test
      exact (Bool.not_eq_true' _).mp test
    rw [escapes_iff unseen, ← later]
    by_cases opened : ∃ target, op.Opens cfg io cwd files target
    · obtain ⟨target, opens⟩ := opened
      obtain ⟨resolved, absent | ⟨content, readable, file⟩⟩ := Files.openTarget_eq_some opens.target
      · rw [← Files.node_of_resolve resolved] at absent
        refine ⟨?_, fun _ => neverClobbers_of_absent opens absent⟩
        rintro - - - ⟨content, readable, there⟩
        rw [absent] at there
        cases there
      · rw [← Files.node_of_resolve resolved] at file
        rw [neverClobbers_iff_untouched opens file]
        exact ⟨fun untouched _ _ _ => untouched,
          fun holds => holds passes opens.opens ⟨content, readable, file⟩⟩
    · refine ⟨?_, fun _ => neverClobbers_of_not_opens opened⟩
      rintro - - opens ⟨content, readable, there⟩
      obtain ⟨target, found⟩ := Files.openTarget_of_file there
      exact absurd ⟨target, passes, opens, found⟩ opened
  · constructor
    · intro _ passed
      exact absurd passed passes
    · intro _
      apply neverClobbers_of_not_opens
      rintro ⟨target, opened⟩
      exact passes opened.passes

end

/-- Another process saves to the same file before the target is opened. -/
def otherSave : Io := { meanwhile := fun _ => savedFiles true, delivered := 100 }

theorem neverClobbers_iff_otherSave :
    NeverClobbers (.safeWriteConfigAs savFile) (plainLibraries "8888" 8888) plainConfig otherSave
        [] plainFiles ↔
      ((WriteOp.safeWriteConfigAs savFile).passes plainConfig [] plainFiles = true →
        otherSave.opens = true →
        Escapes (plainFiles.node [] savFile) ((otherSave.meanwhile plainFiles).node [] savFile) →
          Untouched (.safeWriteConfigAs savFile) (plainLibraries "8888" 8888) plainConfig []
            (otherSave.meanwhile plainFiles)) :=
  neverClobbers_iff (by rfl)

/-- A file that may be written but not read is emptied, and the save is true. -/
theorem unreadableFile_clobbered :
    ¬ ∀ (op : WriteOp) (libs : Libraries) (cfg : Config) (io : Io) (cwd : Location)
        (files : Files), op.isSafe = true → NeverClobbers op libs cfg io cwd files := by
  intro kept
  have unreadable := kept (.safeWriteConfigAs savFile) (plainLibraries "8888" 8888) plainConfig
    { delivered := 100 } [] (savedFiles false) rfl
  exact absurd (unreadable.created (by decide)).1 (by decide)

end Lynx.Config
