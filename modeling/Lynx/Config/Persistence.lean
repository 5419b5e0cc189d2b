/-
# Config.Persistence — what a save persists

After the parse the settings live in two places, handed out by reference: `data()`
and `toml_root()`.  A save writes the second, and only `parse` copies the first
into the second (`override_toml`).  So along any run the document keeps the
settings of the parse (`run_holds`).

A save persists the current settings when they are still those of the parse, all of the
text reaches the file, and toml11 reads the document back from its own text: it prints
a floating value with six digits unless the value has a format of its own.  Of these
the first is needed wherever the other two are given (`persisted_iff`).
-/
import Lynx.Config.RoundTrip
import Lynx.Theory.Run

namespace Lynx.Config

open Lynx.Theory.Fallible
open Lynx.Theory.PathResolution
open Lynx.Theory.Run

set_option autoImplicit false

/-- An edit through `toml_root()` of keys that are not settings. -/
structure UnrelatedEdit where
  edit : Toml → Toml
  keeps : ∀ root, ∀ setting ∈ settingPaths, (edit root).find setting = root.find setting

structure State where
  cfg : Config
  files : Files

inductive Event where
  /-- Assignments through `data()`; `data` is the value after them. -/
  | assign (data : ConfigData)
  | edit (e : UnrelatedEdit)
  | write (op : WriteOp) (io : Io)
  /-- Steps of other processes on the tree. -/
  | others (change : Files → Files)

section

variable (libs : Libraries) (cwd : Location)

def step (s : State) : Event → Option State
  | .assign data => some { s with cfg := { s.cfg with data := data } }
  | .edit e => some { s with cfg := { s.cfg with tomlRoot := e.edit s.cfg.tomlRoot } }
  | .write op io => some { s with files := (op.run libs s.cfg io cwd s.files).files }
  | .others change => some { s with files := change s.files }

/-- A write that returns true leaves in its file a document with the settings
`data()` has at that moment and the other keys of `toml_root()`. -/
def Persisted (_ : List Event) (s : State) : Event → Prop
  | .write op io =>
      (op.run libs s.cfg io cwd s.files).ok = true →
        ∃ content readable document,
          (op.run libs s.cfg io cwd s.files).files.node cwd (op.filename s.cfg) =
            .file content readable true ∧
          libs.tomlParse content = .ok document ∧ Holds s.cfg.data document ∧
          ∀ path, Unrelated path →
            Option.Rel Toml.Same (s.cfg.tomlRoot.find path) (document.find path)
  | _ => True

/-- The text of a write that returns true reaches the file whole, and toml11 reads
its document back. -/
def Delivered (_ : List Event) (s : State) : Event → Prop
  | .write op io =>
      (op.run libs s.cfg io cwd s.files).ok = true →
        ∃ text document, libs.format s.cfg.tomlRoot = .ok text ∧ io.Whole text ∧
          libs.tomlParse text = .ok document ∧ s.cfg.tomlRoot.Same document
  | _ => True

/-- At a write that returns true the settings are those of `data`. -/
def Unassigned (data : ConfigData) (_ : List Event) (s : State) : Event → Prop
  | .write op io => (op.run libs s.cfg io cwd s.files).ok = true → s.cfg.data = data
  | _ => True

end

section

variable {libs : Libraries} {cwd : Location}

theorem step_holds {data : ConfigData} {s t : State} {e : Event}
    (holds : Holds data s.cfg.tomlRoot) (stepped : step libs cwd s e = some t) :
    Holds data t.cfg.tomlRoot := by
  cases e with
  | edit e =>
      obtain rfl := Option.some.inj stepped
      intro setting member
      have path : setting.1 ∈ settingPaths := by
        rw [← settings_paths data]
        exact List.mem_map_of_mem member
      show (e.edit s.cfg.tomlRoot).find setting.1 = some setting.2
      rw [e.keeps s.cfg.tomlRoot setting.1 path]
      exact holds setting member
  | assign _ | write _ _ | others _ =>
      obtain rfl := Option.some.inj stepped
      exact holds

/-- The document keeps the settings it had. -/
theorem run_holds {data : ConfigData} {start s : State} {events : List Event}
    (holds : Holds data start.cfg.tomlRoot) (ran : run (step libs cwd) start events = some s) :
    Holds data s.cfg.tomlRoot :=
  run_invariant (fun _ _ _ before stepped => step_holds before stepped) holds ran

/-- One write persists the current settings exactly when the document has them. -/
theorem persisted_write_iff {data : ConfigData} {history : List Event} {s : State} {e : Event}
    (holds : Holds data s.cfg.tomlRoot) (delivered : Delivered libs cwd history s e) :
    Persisted libs cwd history s e ↔ Unassigned libs cwd data history s e := by
  cases e with
  | assign _ => exact Iff.rfl
  | edit _ => exact Iff.rfl
  | others _ => exact Iff.rfl
  | write op io =>
      apply forall_congr'
      intro ok
      obtain ⟨text, document, formats, whole, loaded, same⟩ := delivered ok
      have left := WriteOp.run_ok formats ok
      rw [List.take_of_length_le whole] at left
      constructor
      · rintro ⟨content, readable, document', node, loaded', current, -⟩
        rw [left] at node
        obtain ⟨rfl, -, -⟩ := Node.file.inj node
        obtain rfl := ok_unique loaded loaded'
        exact (holds.same same).unique current
      · intro unassigned
        refine ⟨_, _, document, left, loaded, ?_, fun path _ => same.find path⟩
        rw [unassigned]
        exact holds.same same

/-- **When saves persist the current settings.**  In a run of assignments, edits and
saves after a parse, every save that returns true leaves the current settings and the
current other keys when at each of them the text reaches the file and is read back,
and the settings are those of the parse; where the text is delivered, they have to
be. -/
theorem persisted_iff {cmd : CommandLine} {myEnv : String} {files : Files} {cfg : Config}
    (parsed : parse libs cmd myEnv cwd files = .ok cfg) (events : List Event) :
    (EveryStep (step libs cwd) ⟨cfg, files⟩ (Delivered libs cwd) events →
      EveryStep (step libs cwd) ⟨cfg, files⟩ (Unassigned libs cwd cfg.data) events →
        EveryStep (step libs cwd) ⟨cfg, files⟩ (Persisted libs cwd) events) ∧
    (EveryStep (step libs cwd) ⟨cfg, files⟩ (Delivered libs cwd) events →
      EveryStep (step libs cwd) ⟨cfg, files⟩ (Persisted libs cwd) events →
        EveryStep (step libs cwd) ⟨cfg, files⟩ (Unassigned libs cwd cfg.data) events) := by
  have exact : EveryStep (step libs cwd) ⟨cfg, files⟩ (Delivered libs cwd) events →
      ∀ history e s, history ++ [e] <+: events → run (step libs cwd) ⟨cfg, files⟩ history = some s →
        (Persisted libs cwd history s e ↔ Unassigned libs cwd cfg.data history s e) := by
    intro delivered history e s pre reached
    exact persisted_write_iff (run_holds (parse_holds parsed) reached)
      (delivered history e s pre reached)
  constructor
  · intro delivered unassigned history e s pre reached
    exact (exact delivered history e s pre reached).mpr (unassigned history e s pre reached)
  · intro delivered persisted history e s pre reached
    exact (exact delivered history e s pre reached).mp (persisted history e s pre reached)

end

/-- A parse of an empty file with the port on the command line, as it saves. -/
def plainStart : State :=
  { cfg := ⟨{ port := 8888 }, savedDocument 8888, .relative ["lynx.toml"], { port := some "8888" }⟩
    files := plainFiles }

theorem plainStart_parsed : parse (plainLibraries "8888" 8888)
    { options := { port := some "8888" } } "" [] plainFiles = .ok plainStart.cfg := by rfl

/-- `write_config_as(config_file() + ".sav")`. -/
def saveAs : Event := .write (.writeConfigAs savFile) { delivered := 100 }

/-- A write of the document of `plainStart` is delivered. -/
theorem delivered_saveAs {history : List Event} {s : State}
    (sameRoot : s.cfg.tomlRoot = savedDocument 8888) :
    Delivered (plainLibraries "8888" 8888) [] history s saveAs := by
  intro _
  rw [sameRoot]
  obtain ⟨document, loaded, same⟩ := (plainLibraries_readsBack "8888" 8888).inverts
  exact ⟨savedText "8888", document, rfl, by decide, loaded, same⟩

theorem persisted_iff_saveAs :
    EveryStep (step (plainLibraries "8888" 8888) []) plainStart
      (Persisted (plainLibraries "8888" 8888) []) [saveAs] := by
  refine (persisted_iff plainStart_parsed [saveAs]).1 ?_ ?_
  · exact everyStep_singleton_iff.mpr (delivered_saveAs rfl)
  · exact everyStep_singleton_iff.mpr fun _ => rfl

/-- A port assigned after the parse is not in the saved document. -/
theorem assignedPort_not_persisted :
    ¬ ∀ (libs : Libraries) (cmd : CommandLine) (myEnv : String) (cwd : Location) (files : Files)
        (cfg : Config) (events : List Event),
      parse libs cmd myEnv cwd files = .ok cfg →
      EveryStep (step libs cwd) ⟨cfg, files⟩ (Delivered libs cwd) events →
      EveryStep (step libs cwd) ⟨cfg, files⟩ (Persisted libs cwd) events := by
  intro kept
  let assigned : Event := .assign { port := 9999 }
  have reached : run (step (plainLibraries "8888" 8888) []) plainStart [assigned] =
      some { plainStart with cfg := { plainStart.cfg with data := { port := 9999 } } } := rfl
  have persisted := kept (plainLibraries "8888" 8888) _ "" [] plainFiles _
    ([assigned] ++ [saveAs]) plainStart_parsed <| by
      refine (everyStep_snoc_iff reached).mpr ⟨?_, delivered_saveAs rfl⟩
      exact everyStep_singleton_iff.mpr trivial
  obtain ⟨content, readable, document, left, loaded, holds, -⟩ :=
    ((everyStep_snoc_iff reached).mp persisted).2 (by decide)
  obtain ⟨rfl, -, -⟩ := Node.file.inj left
  obtain rfl : savedDocument 8888 = document := Except.ok.inj loaded
  have port := holds (["port"], .integer 9999) (by simp [ConfigData.settings])
  cases port

end Lynx.Config
