/-
# Daemon.Paths — relative paths across `daemonize`

Two relative paths are used again after start-up: the base name of the log file,
whenever a record opens the file of a new day, and `config_file()`, whenever
`write_config` is called.  `daemonize` moves the process to `/`, so both are then
followed from there.  The log stays in its directory exactly when no record opens a
new file after that, and the config path keeps its meaning exactly when it is absolute,
or climbs to the root by itself and can be followed from there too; a process started
in `/` loses neither.  Wherever the process is, a record is lost with its directory when
the file of its day cannot be opened (`pathsKept_iff`).
-/
import Lynx.Config.RoundTrip
import Lynx.Daemon.Service

namespace Lynx.Daemon

open Lynx.Config
open Lynx.Log
open Lynx.Theory.PathResolution
open Lynx.Theory.Run

set_option autoImplicit false

/-- A call of `write_config` writes the file at `loaded` and no other. -/
structure SavesTo (setting : Setting) (loaded : Location) (s : State) : Prop where
  writes : ∀ delivered content text, s.files loaded = .file content true true →
    setting.libs.format setting.cfg.tomlRoot = .ok text →
    (s.save setting true delivered).ok = true ∧
      (s.save setting true delivered).files loaded = .file (text.take delivered) true true
  others : ∀ opens delivered location, location ≠ loaded →
    (s.save setting opens delivered).files location = s.files location

/-- The sink has a file of this directory open. -/
def OpenIn (logs : Location) (sink : DailyFileSink) : Prop :=
  ∃ location, sink.location = some location ∧ location.dropLast = logs

/-- Relative paths mean what they meant in the working directory `cwd`, where the
config file at `loaded` was found in the tree `files`: every record has gone, and the
next one goes, to a file of the same `logs` directory; `config_file()` denotes the same
file, `write_config` saves to it, and no other file of the tree has changed. -/
structure PathsKept (setting : Setting) (cwd loaded : Location) (files : Files) (s : State) :
    Prop where
  disk : ∀ entry ∈ s.disk, entry.1.dropLast = cwd ++ ["logs"]
  sink : OpenIn (cwd ++ ["logs"]) s.sink
  exiting : ∀ parent ∈ s.exiting, OpenIn (cwd ++ ["logs"]) parent
  config : s.files.resolve s.proc.cwd setting.cfg.configFile = some loaded
  saves : SavesTo setting loaded s
  others : ∀ location, location ≠ loaded → s.files location = files location

/-- A path of the working directory `cwd` that means the same in the root: absolute, or
with as many steps up as `cwd` is deep, and to be followed from the root as well. -/
def Rootproof (files : Files) (cwd : Location) (path : Path) : Prop :=
  path.absolute = true ∨
    cwd.length ≤ (climb path.parts).up ∧ (walk files.isDirectory [] path.parts).isSome = true

/-- The step does not use a relative path that lost its meaning: `daemonize` is
called with a config path that keeps it, and a record that is accepted from the rotation
time on can open its file, before `daemonize` or in a process started in `/`. -/
def NoMove (setting : Setting) (cwd : Location) (_ : List Event) (s : State) : Event → Prop
  | .daemonize _ => Rootproof s.files cwd setting.cfg.configFile
  | .log time _ opens level _ =>
      DailyFileSink.accepts defaultLogger level = true → s.sink.rotationTp ≤ time →
        opens = true ∧ (s.daemonized = true → cwd = [])
  | _ => True

/-- Where the process works. -/
theorem run_cwd {setting : Setting} {proc : Proc} {files : Files} {now : Time}
    {events : List Event} {s : State}
    (ran : run (step setting) (State.start setting proc files now) events = some s) :
    s.proc.cwd = if s.daemonized then [] else proc.cwd := by
  refine run_invariant (P := fun s => s.proc.cwd = if s.daemonized then [] else proc.cwd)
    (fun before e after same stepped => ?_) ?_ ran
  · cases steps_of_step stepped with
    | daemonize _ cwd => exact cwd
    | _ => exact same
  · rfl

section Saving

variable {setting : Setting} {loaded : Location} {s : State}

/-- What a call of `write_config` makes of the tree. -/
theorem save_files (config : s.files.resolve s.proc.cwd setting.cfg.configFile = some loaded)
    (opens : Bool) (delivered : Nat) :
    (s.save setting opens delivered).files = s.files ∨
      ∃ content readable, s.files loaded ≠ .directory ∧
        (s.save setting opens delivered).files =
          s.files.set loaded (.file content readable true) := by
  let io : Io := { opens := opens, delivered := delivered }
  have alone : WriteOp.writeConfig.before setting.cfg io s.proc.cwd s.files = s.files :=
    WriteOp.before_of_alone rfl
  by_cases opened : ∃ target, WriteOp.writeConfig.Opens setting.cfg io s.proc.cwd s.files target
  · obtain ⟨target, opened⟩ := opened
    have found := opened.target
    rw [alone] at found
    have left := (WriteOp.run_of_opens setting.libs opened).2
    rw [alone] at left
    obtain rfl : target = loaded :=
      Option.some.inj ((Files.openTarget_eq_some found).1.symm.trans config)
    exact .inr ⟨_, _, Files.ne_directory_of_openTarget found, left⟩
  · left
    have unchanged := (WriteOp.run_of_not_opens setting.libs opened).2
    rw [alone] at unchanged
    exact unchanged

theorem savesTo_of_config
    (config : s.files.resolve s.proc.cwd setting.cfg.configFile = some loaded) :
    SavesTo setting loaded s := by
  constructor
  · intro delivered content text there formats
    have node := Files.node_of_resolve config
    rw [there] at node
    have exists_ : s.files.fileExists s.proc.cwd setting.cfg.configFile = true := by
      simp [Files.fileExists, node]
    have target : s.files.openTarget s.proc.cwd setting.cfg.configFile = some loaded := by
      simp [Files.openTarget, config, there]
    constructor
    · simp [State.save, Config.writeConfig, exists_, writeToFile, target, formats]
    · simp [State.save, Config.writeConfig, exists_, writeToFile, target, formats, there,
        Node.readableAfter]
  · intro opens delivered location other
    rcases save_files config opens delivered with same | ⟨content, readable, -, set⟩
    · rw [same]
    · rw [set, Files.set_of_ne _ _ other]

end Saving

section Step

variable {setting : Setting} {cwd loaded : Location} {files : Files} {history : List Event}
variable {s t : State}

/-- What a sink writes out goes to its directory. -/
theorem disk_of_pending {sink : DailyFileSink} {disk : Disk} {logs : Location}
    (before : ∀ entry ∈ disk, entry.1.dropLast = logs) (opened : OpenIn logs sink) :
    ∀ entry ∈ disk ++ sink.pending, entry.1.dropLast = logs := by
  intro entry member
  rcases List.mem_append.mp member with old | pending
  · exact before entry old
  · obtain ⟨location, here, inLogs⟩ := opened
    have same := DailyFileSink.location_of_mem_pending pending
    rw [here] at same
    rw [← Option.some.inj same]
    exact inLogs

/-- An accepted record goes to the directory of the log unless the step moves it. -/
theorem destination_iff {time now : Time} {opens : Bool} {level : Level} {text : String}
    (opened : OpenIn (cwd ++ ["logs"]) s.sink)
    (accepted : DailyFileSink.accepts defaultLogger level = true)
    (where_ : s.proc.cwd = if s.daemonized then [] else cwd) :
    (∃ location, s.destination setting time opens = some location ∧
        location.dropLast = cwd ++ ["logs"]) ↔
      NoMove setting cwd history s (.log time now opens level text) := by
  unfold State.destination DailyFileSink.destination
  by_cases rotates : s.sink.rotationTp ≤ time
  · simp only [rotates, if_true, NoMove, accepted, true_implies]
    cases opens with
    | false => simp
    | true =>
        simp only [if_true, Option.some.injEq, exists_eq_left',
          DailyFileSink.dropLast_place_calcFilename, true_and, List.append_left_inj, where_]
        cases s.daemonized <;> simp [eq_comm]
  · simp only [rotates, if_false, NoMove, false_implies, implies_true, iff_true]
    exact opened

/-- A record keeps the log in its directory unless it opens a new file elsewhere, or
cannot open it. -/
theorem pathsKept_log_iff {time now : Time} {opens : Bool} {level : Level} {text : String}
    (kept : PathsKept setting cwd loaded files s)
    (where_ : s.proc.cwd = if s.daemonized then [] else cwd)
    (steps : Steps setting s (.log time now opens level text) t) :
    PathsKept setting cwd loaded files t ↔
      NoMove setting cwd history s (.log time now opens level text) := by
  cases steps with
  | log running =>
      cases accepted : DailyFileSink.accepts defaultLogger level with
      | false =>
          have nothing : s.log setting time now opens level text = (s.sink, []) :=
            State.log_of_not_accepts accepted
          simp only [nothing, List.append_nil, NoMove, accepted, Bool.false_eq_true, false_implies,
            iff_true]
          exact ⟨kept.disk, kept.sink, kept.exiting, kept.config, savesTo_of_config kept.config,
            kept.others⟩
      | true =>
          have after : (s.log setting time now opens level text).1.location =
              s.destination setting time opens := State.location_log accepted
          rw [← destination_iff kept.sink accepted where_]
          constructor
          · intro holds
            obtain ⟨location, here, inLogs⟩ := holds.sink
            exact ⟨location, after.symm.trans here, inLogs⟩
          · rintro ⟨location, goes, inLogs⟩
            refine ⟨fun entry member => ?_, ⟨location, after.trans goes, inLogs⟩, kept.exiting,
              kept.config, savesTo_of_config kept.config, kept.others⟩
            have accounts : (s.log setting time now opens level text).2 ++
                (s.log setting time now opens level text).1.pending =
                  s.sink.pending ++ s.taken setting (.log time now opens level text) :=
              State.log_accounts
            have own : s.taken setting (.log time now opens level text) =
                [(location, s.record level text)] := by
              simp [State.taken, accepted, goes]
            rcases List.mem_append.mp member with before | written
            · exact kept.disk entry before
            · -- what was written was pending, or is this record
              have whole := List.mem_append_left
                (s.log setting time now opens level text).1.pending written
              rw [accounts, own] at whole
              rcases List.mem_append.mp whole with pending | new
              · exact disk_of_pending kept.disk kept.sink entry (List.mem_append_right _ pending)
              · rw [List.mem_singleton.mp new]
                exact inLogs

theorem pathsKept_daemonize_iff {sys : Sys} (kept : PathsKept setting cwd loaded files s)
    (where_ : s.proc.cwd = if s.daemonized then [] else cwd)
    (steps : Steps setting s (.daemonize sys) t) :
    PathsKept setting cwd loaded files t ↔ NoMove setting cwd history s (.daemonize sys) := by
  cases steps with
  | daemonize first atRoot =>
      have config := kept.config
      rw [where_, first, if_neg (by simp)] at config
      have moved := resolve_from_root_iff config
      constructor
      · intro after
        have same := after.config
        simp only [atRoot] at same
        exact moved.mp same
      · intro rootproof
        have same := moved.mpr rootproof
        rw [← atRoot] at same
        refine ⟨kept.disk, kept.sink, ?_, same, savesTo_of_config same, kept.others⟩
        simpa using kept.sink

/-- One step keeps the meaning of the two paths exactly when it uses none that was
lost. -/
theorem pathsKept_step_iff {e : Event} (kept : PathsKept setting cwd loaded files s)
    (where_ : s.proc.cwd = if s.daemonized then [] else cwd) (steps : Steps setting s e t) :
    PathsKept setting cwd loaded files t ↔ NoMove setting cwd history s e := by
  cases steps with
  | log running => exact pathsKept_log_iff kept where_ (.log running)
  | daemonize first atRoot => exact pathsKept_daemonize_iff kept where_ (.daemonize first atRoot)
  | exitParent there =>
      refine ⟨fun _ => trivial, fun _ => ⟨?_, kept.sink, ?_, kept.config,
        savesTo_of_config kept.config, kept.others⟩⟩
      · exact disk_of_pending kept.disk (kept.exiting _ (List.mem_of_getElem? there))
      · exact fun parent member => kept.exiting parent (List.mem_of_mem_eraseIdx member)
  | writeConfig =>
      rename_i opens delivered
      have config : (s.save setting opens delivered).files.resolve s.proc.cwd
          setting.cfg.configFile = some loaded := by
        rcases save_files kept.config opens delivered with same | ⟨_, _, notDirectory, set⟩
        · rw [same]
          exact kept.config
        · rw [set, Files.resolve_set notDirectory (by simp)]
          exact kept.config
      refine ⟨fun _ => trivial, fun _ => ⟨kept.disk, kept.sink, kept.exiting, config,
        savesTo_of_config config, fun location other => ?_⟩⟩
      exact (kept.saves.others opens delivered location other).trans (kept.others location other)
  | finish daemonized =>
      refine ⟨fun _ => trivial, fun _ => ⟨?_, ?_, kept.exiting, kept.config,
        savesTo_of_config kept.config, kept.others⟩⟩
      · exact disk_of_pending kept.disk kept.sink
      · obtain ⟨location, here, inLogs⟩ := kept.sink
        exact ⟨location, by simpa using here, inLogs⟩

end Step

theorem start_pathsKept {setting : Setting} {proc : Proc} {files : Files} {loaded : Location}
    (found : files.resolve proc.cwd setting.cfg.configFile = some loaded) (now : Time) :
    PathsKept setting proc.cwd loaded files (State.start setting proc files now) := by
  refine ⟨by simp [State.start], ⟨_, rfl, ?_⟩, by simp [State.start], found,
    savesTo_of_config found, fun _ _ => rfl⟩
  exact DailyFileSink.dropLast_place_calcFilename setting.date proc.cwd now

/-- A config file that was loaded is somewhere. -/
theorem resolve_of_parse {libs : Libraries} {cmd : CommandLine} {myEnv : String} {cwd : Location}
    {files : Files} {cfg : Config} (parsed : parse libs cmd myEnv cwd files = .ok cfg) :
    ∃ loaded, files.resolve cwd cfg.configFile = some loaded := by
  obtain ⟨_, _, _, steps⟩ := parse_eq_ok_iff.mp parsed
  obtain ⟨writable, node⟩ := Files.read_eq_some_iff.mp steps.read
  unfold Files.node at node
  cases resolved : files.resolve cwd cfg.configFile with
  | some loaded => exact ⟨loaded, rfl⟩
  | none =>
      rw [resolved] at node
      cases node

/-- `/srv` with an empty `lynx.toml`. -/
def srvFiles : Files := fun location =>
  if location = [] ∨ location = ["srv"] then .directory
  else if location = ["srv", "lynx.toml"] then .file [] true true
  else .absent

def srvProc : Proc := Proc.startUp [some 0, some 1, some 2] ["srv"] 0o22 []

/-- The configuration loaded from `path`, with the port on the command line. -/
def srvSetting (path : Path) : Setting where
  libs := plainLibraries "8888" 8888
  date _ := "today"
  cfg := ⟨{ port := 8888 }, savedDocument 8888, path, { port := some "8888" }⟩

def relativeConfig : Path := .relative ["lynx.toml"]

def absoluteConfig : Path := { absolute := true, parts := ["srv", "lynx.toml"] }

/-- Records before and after daemonizing, all on one day, and a save. -/
def oneDay : List Event :=
  [.log 10 10 true .info "started", .daemonize {}, .log 20 20 true .debug "working",
    .writeConfig true 100]

end Lynx.Daemon
