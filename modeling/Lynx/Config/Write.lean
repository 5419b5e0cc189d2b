/-
# Config.Write — the four ways to save a configuration

All four hand the text of `toml_root_` to `writeToFile`; they differ in the file
and in the existence test before it.  `write_config` wants the file to be there,
the safe ones want it not to be.  Between the test and the opening of the target
other processes may take steps (`Io.meanwhile`).

`WriteOp.passes` is the test of each of them and `WriteOp.before` the tree in which it
opens its target.  An operation that opens its target returns true whatever becomes of
the text, unless `toml::format` throws (`WriteOp.run_of_opens`); one that does not
returns false (`WriteOp.run_of_not_opens`).
-/
import Lynx.Config.Parse

namespace Lynx.Config

open Lynx.Theory.PathResolution

set_option autoImplicit false
set_option linter.dupNamespace false

namespace Config

/-- `Config::write_config`. -/
def writeConfig (libs : Libraries) (cfg : Config) (io : Io) (cwd : Location) (files : Files) :
    Written :=
  if files.fileExists cwd cfg.configFile then
    writeToFile io cwd cfg.configFile (libs.format cfg.tomlRoot) (io.meanwhile files)
  else ⟨files, .ok false, "Failed to open file: " ++ cfg.configFile.text⟩

/-- `Config::safe_write_config`. -/
def safeWriteConfig (libs : Libraries) (cfg : Config) (io : Io) (cwd : Location) (files : Files) :
    Written :=
  if files.fileExists cwd cfg.configFile then
    ⟨files, .ok false, "File exists: " ++ cfg.configFile.text⟩
  else writeToFile io cwd cfg.configFile (libs.format cfg.tomlRoot) (io.meanwhile files)

/-- `Config::write_config_as`. -/
def writeConfigAs (libs : Libraries) (cfg : Config) (filename : Path) (io : Io) (cwd : Location)
    (files : Files) : Written :=
  writeToFile io cwd filename (libs.format cfg.tomlRoot) files

/-- `Config::safe_write_config_as`. -/
def safeWriteConfigAs (libs : Libraries) (cfg : Config) (filename : Path) (io : Io)
    (cwd : Location) (files : Files) : Written :=
  if files.fileExists cwd filename then
    ⟨files, .ok false, "File exists: " ++ filename.text⟩
  else writeToFile io cwd filename (libs.format cfg.tomlRoot) (io.meanwhile files)

end Config

/-- The four operations. -/
inductive WriteOp where
  | writeConfig
  | safeWriteConfig
  | writeConfigAs (filename : Path)
  | safeWriteConfigAs (filename : Path)
  deriving DecidableEq, Repr

namespace WriteOp

/-- The file an operation writes. -/
def filename (op : WriteOp) (cfg : Config) : Path :=
  match op with
  | .writeConfig => cfg.configFile
  | .safeWriteConfig => cfg.configFile
  | .writeConfigAs filename => filename
  | .safeWriteConfigAs filename => filename

def run (op : WriteOp) (libs : Libraries) (cfg : Config) (io : Io) (cwd : Location)
    (files : Files) : Written :=
  match op with
  | .writeConfig => cfg.writeConfig libs io cwd files
  | .safeWriteConfig => cfg.safeWriteConfig libs io cwd files
  | .writeConfigAs filename => cfg.writeConfigAs libs filename io cwd files
  | .safeWriteConfigAs filename => cfg.safeWriteConfigAs libs filename io cwd files

/-- The existence test lets the operation go on. -/
def passes (op : WriteOp) (cfg : Config) (cwd : Location) (files : Files) : Bool :=
  match op with
  | .writeConfig => files.fileExists cwd cfg.configFile
  | .safeWriteConfig => !files.fileExists cwd cfg.configFile
  | .writeConfigAs _ => true
  | .safeWriteConfigAs filename => !files.fileExists cwd filename

/-- The tree in which the operation opens its target, or ends before that. -/
def before (op : WriteOp) (cfg : Config) (io : Io) (cwd : Location) (files : Files) : Files :=
  match op with
  | .writeConfigAs _ => files
  | _ => if op.passes cfg cwd files then io.meanwhile files else files

/-- The operation opens its target, which truncates it. -/
structure Opens (op : WriteOp) (cfg : Config) (io : Io) (cwd : Location) (files : Files)
    (target : Location) : Prop where
  passes : op.passes cfg cwd files = true
  opens : io.opens = true
  target : (op.before cfg io cwd files).openTarget cwd (op.filename cfg) = some target

section

variable {op : WriteOp} {libs : Libraries} {cfg : Config} {io : Io} {cwd target : Location}
variable {files : Files}

/-- With no other process the target is opened in the tree of the call. -/
theorem before_of_alone (alone : io.meanwhile = id) : op.before cfg io cwd files = files := by
  cases op <;> simp [before, alone]

theorem run_of_passes (libs : Libraries) (passes : op.passes cfg cwd files = true) :
    op.run libs cfg io cwd files = writeToFile io cwd (op.filename cfg) (libs.format cfg.tomlRoot)
      (op.before cfg io cwd files) := by
  cases op with
  | writeConfigAs filename => rfl
  | writeConfig =>
      have found : files.fileExists cwd cfg.configFile = true := passes
      simp [run, Config.writeConfig, before, WriteOp.passes, filename, found]
  | safeWriteConfig | safeWriteConfigAs name =>
      simp only [WriteOp.passes, Bool.not_eq_true'] at passes
      simp [run, Config.safeWriteConfig, Config.safeWriteConfigAs, before, WriteOp.passes, filename,
        passes]

/-- An operation that its existence test stops does nothing. -/
theorem run_of_stopped (libs : Libraries) (io : Io) (stopped : op.passes cfg cwd files = false) :
    (op.run libs cfg io cwd files).result = .ok false ∧
      (op.run libs cfg io cwd files).files = op.before cfg io cwd files := by
  cases op with
  | writeConfigAs _ => cases stopped
  | writeConfig =>
      have missing : files.fileExists cwd cfg.configFile = false := stopped
      simp [run, Config.writeConfig, before, passes, missing]
  | safeWriteConfig | safeWriteConfigAs name =>
      simp only [passes, Bool.not_eq_false'] at stopped
      simp [run, Config.safeWriteConfig, Config.safeWriteConfigAs, before, passes, stopped]

/-- **Every operation that opens its target returns true**, unless the text cannot be
made, and the target holds what arrived. -/
theorem run_of_opens (libs : Libraries) (opened : op.Opens cfg io cwd files target) :
    (op.run libs cfg io cwd files).result = (libs.format cfg.tomlRoot).map (fun _ => true) ∧
      (op.run libs cfg io cwd files).files =
        (op.before cfg io cwd files).set target
          (.file (io.arrived (libs.format cfg.tomlRoot))
            (op.before cfg io cwd files target).readableAfter true) := by
  rw [run_of_passes libs opened.passes]
  exact writeToFile_of_opens _ opened.opens opened.target

/-- **An operation that does not open its target returns false** and changes nothing. -/
theorem run_of_not_opens (libs : Libraries)
    (closed : ¬ ∃ target, op.Opens cfg io cwd files target) :
    (op.run libs cfg io cwd files).result = .ok false ∧
      (op.run libs cfg io cwd files).files = op.before cfg io cwd files := by
  by_cases passes : op.passes cfg cwd files = true
  · rw [run_of_passes libs passes]
    apply writeToFile_of_not_opens
    intro opens
    by_contra there
    obtain ⟨target, opened⟩ := Option.ne_none_iff_exists'.mp there
    exact closed ⟨target, passes, opens, opened⟩
  · exact run_of_stopped libs io (Bool.eq_false_iff.mpr passes)

theorem ok_iff : (op.run libs cfg io cwd files).ok = true ↔
    (∃ target, op.Opens cfg io cwd files target) ∧ ∃ text, libs.format cfg.tomlRoot = .ok text := by
  by_cases opened : ∃ target, op.Opens cfg io cwd files target
  · obtain ⟨target, opens⟩ := opened
    rw [Written.ok, (run_of_opens libs opens).1]
    cases libs.format cfg.tomlRoot with
    | error what => simp [Except.map, Except.toOption]
    | ok text =>
        simp only [Except.map, Except.toOption, Option.getD_some, true_iff]
        exact ⟨⟨target, opens⟩, text, rfl⟩
  · rw [Written.ok, (run_of_not_opens libs opened).1]
    simp [opened, Except.toOption]

/-- What is at the target after an operation that opened it. -/
theorem node_of_opens (opened : op.Opens cfg io cwd files target) :
    (op.run libs cfg io cwd files).files.node cwd (op.filename cfg) =
      .file (io.arrived (libs.format cfg.tomlRoot))
        ((op.before cfg io cwd files).node cwd (op.filename cfg)).readableAfter true := by
  have resolved := (Files.openTarget_eq_some opened.target).1
  rw [(run_of_opens libs opened).2, Files.node_set opened.target (by simp),
    Files.node_of_resolve resolved]

/-- What an operation that returns true leaves in its file. -/
theorem run_ok {text : Text} (formatted : libs.format cfg.tomlRoot = .ok text)
    (ok : (op.run libs cfg io cwd files).ok = true) :
    (op.run libs cfg io cwd files).files.node cwd (op.filename cfg) =
      .file (text.take io.delivered)
        ((op.before cfg io cwd files).node cwd (op.filename cfg)).readableAfter true := by
  obtain ⟨⟨target, opened⟩, -⟩ := ok_iff.mp ok
  rw [node_of_opens opened, formatted]
  rfl

end

end WriteOp

end Lynx.Config
