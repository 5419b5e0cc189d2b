/-
# Config.RoundTrip — saving a configuration and loading it again

A saved document carries all five settings, whoever supplied them, so a fresh
parse of it takes every value from the file and finds the document it would have
made (`overrideToml_of_holds`).  One validator stands in the way: `--port` must be
in its range whenever it receives a text, and the initial value 0, which a first
parse never validates, is outside.  So a saved configuration that can be
read loads exactly when some source supplied the port (`saved_loads_iff`).
-/
import Lynx.Config.Write

namespace Lynx.Config

open Lynx.Theory.Fallible
open Lynx.Theory.PathResolution

set_option autoImplicit false

/-- Each of the five options received a text of its value in `data`. -/
structure Received (libs : Libraries) (items : Supplied) (data : ConfigData) : Prop where
  dae : ∃ text, items.dae = some text ∧ libs.toFlag text = some data.dae
  pi : ∃ text, items.pi = some text ∧ libs.toDouble text = some data.pi
  port : ∃ text, items.port = some text ∧ libs.toInt text = some data.port
  env : items.env = some data.env
  sub : ∃ text, items.sub = some text ∧ libs.toFlag text = some data.sub.sub

/-- What the libraries do with the text of `root`: toml11 reads the document back, and
CLI11 gives each of the five keys to its option. -/
structure Libraries.ReadsBack (libs : Libraries) (root : Toml) (text : Text) : Prop where
  formats : libs.format root = .ok text
  inverts : ∃ document, libs.tomlParse text = .ok document ∧ root.Same document
  gives : ∀ data, Holds data root →
    ∃ items, libs.fromConfig {} text = .ok items ∧ Received libs items data

/-- A fresh parse with only `--config filename` finds the configuration `cfg`. -/
def Reloads (libs : Libraries) (cfg : Config) (filename : Path) (myEnv : String)
    (cwd : Location) (files : Files) : Prop :=
  ∃ again, parse libs { config := some filename } myEnv cwd files = .ok again ∧
    again.data = cfg.data ∧ cfg.tomlRoot.Same again.tomlRoot

/-- The port is on the command line or in the config file. -/
def PortSupplied : Libraries → CommandLine → Location → Files → Prop := SuppliedTo Supplied.port

section

variable {libs : Libraries} {cmd : CommandLine} {myEnv : String} {cwd : Location} {files : Files}
variable {cfg : Config}

theorem portSupplied_iff (parsed : parse libs cmd myEnv cwd files = .ok cfg) :
    PortSupplied libs cmd cwd files ↔ cfg.results.port.isSome = true :=
  suppliedTo_iff Supplied.port (fun _ _ => rfl) parsed

/-- A file that is there is the one `--config` names. -/
theorem configFile_of_checkPath {filename : Path}
    (there : files.checkPath cwd filename = .file) :
    configFile files cwd { config := some filename } = .ok filename := by
  have found : ∀ directory errors,
      fileOnDefaultPath files cwd directory errors filename = .ok filename := by
    intro directory errors
    simp [fileOnDefaultPath, there]
  have onPaths : onDefaultPaths files cwd filename = .ok filename := by
    unfold onDefaultPaths
    rw [found]
    show (fileOnDefaultPath files cwd _ _ filename >>= _) = _
    rw [found]
    exact found _ _
  simp [configFile, onPaths]

/-- What a fresh parse of the saved text makes of the five options. -/
theorem settled_of_received {items : Supplied} {data : ConfigData}
    (received : Received libs items data) :
    Settled libs ((({} : Supplied).orElse items).withEnv myEnv) data ↔
      1024 ≤ data.port ∧ data.port ≤ 65535 := by
  obtain ⟨⟨dae, daeText, toDae⟩, ⟨pi, piText, toPi⟩, ⟨port, portText, toPort⟩, env,
    ⟨sub, subText, toSub⟩⟩ := received
  constructor
  · intro settled
    have inRange := settled.portInRange port (by simp [Supplied.orElse, Supplied.withEnv, portText])
    simpa [toPort] using inRange
  · rintro inRange
    constructor
    · simpa [Supplied.orElse, Supplied.withEnv, daeText, Bound] using toDae
    · simpa [Supplied.orElse, Supplied.withEnv, piText, Bound] using toPi
    · intro given supplied
      obtain rfl : port = given := by
        simpa [Supplied.orElse, Supplied.withEnv, portText] using supplied
      exact ⟨data.port, toPort, inRange⟩
    · simpa [Supplied.orElse, Supplied.withEnv, portText, Bound] using toPort
    · simp [Supplied.orElse, Supplied.withEnv, env]
    · simpa [Supplied.orElse, Supplied.withEnv, subText, Bound] using toSub

/-- The port of a parse is in its range exactly when some source supplied it: its
initial value is not. -/
theorem port_inRange_iff (parsed : parse libs cmd myEnv cwd files = .ok cfg) :
    (1024 ≤ cfg.data.port ∧ cfg.data.port ≤ 65535) ↔ PortSupplied libs cmd cwd files := by
  rw [portSupplied_iff parsed]
  obtain ⟨_, _, _, steps⟩ := parse_eq_ok_iff.mp parsed
  have bound := steps.settled.port
  cases supplied : cfg.results.port with
  | none =>
      rw [supplied] at bound
      have initial : cfg.data.port = 0 := bound
      simp [initial]
  | some text =>
      obtain ⟨value, converted, inRange⟩ := steps.settled.portInRange text supplied
      rw [supplied] at bound
      have same : libs.toInt text = some cfg.data.port := bound
      rw [converted] at same
      obtain rfl : value = cfg.data.port := Option.some.inj same
      simpa using inRange

/-- The file a complete `write_config_as` leaves. -/
theorem saved_node {filename : Path} {io : Io} {text : Text}
    (written : (cfg.writeConfigAs libs filename io cwd files).ok = true)
    (formats : libs.format cfg.tomlRoot = .ok text) (whole : io.Whole text) :
    (cfg.writeConfigAs libs filename io cwd files).files.node cwd filename =
      .file text (files.node cwd filename).readableAfter true := by
  have left := @WriteOp.run_ok (.writeConfigAs filename) libs cfg io cwd files text formats written
  rw [List.take_of_length_le whole] at left
  exact left

/-- **When a saved configuration loads.**  After a parse and a complete
`write_config_as`, a fresh parse of the saved file finds the same settings and the
same document exactly when the port was supplied on the command line or in the
config file, and the saved file may be read. -/
theorem saved_loads_iff (parsed : parse libs cmd myEnv cwd files = .ok cfg) {filename : Path}
    {io : Io} {text : Text} (written : (cfg.writeConfigAs libs filename io cwd files).ok = true)
    (whole : io.Whole text) (reads : libs.ReadsBack cfg.tomlRoot text) :
    Reloads libs cfg filename myEnv cwd (cfg.writeConfigAs libs filename io cwd files).files ↔
      PortSupplied libs cmd cwd files ∧ (files.node cwd filename).readableAfter = true := by
  have holds := parse_holds parsed
  obtain ⟨document, loaded, same⟩ := reads.inverts
  obtain ⟨items, found, received⟩ := reads.gives cfg.data holds
  have saved := saved_node written reads.formats whole
  have file : configFile (cfg.writeConfigAs libs filename io cwd files).files cwd
      { config := some filename } = .ok filename := by
    apply configFile_of_checkPath
    rw [Files.checkPath, saved]
  rw [← port_inRange_iff parsed, ← settled_of_received received]
  constructor
  · rintro ⟨again, reparsed, sameData, -⟩
    obtain ⟨text', items', document', steps⟩ := parse_eq_ok_iff.mp reparsed
    obtain rfl := ok_unique steps.file file
    obtain ⟨_, node⟩ := Files.read_eq_some_iff.mp steps.read
    rw [saved] at node
    obtain ⟨rfl, readable, -⟩ := Node.file.inj node
    obtain rfl := ok_unique steps.found found
    refine ⟨?_, readable⟩
    rw [← sameData, ← steps.results]
    exact steps.settled
  · rintro ⟨settled, readable⟩
    rw [readable] at saved
    have read := Files.read_eq_some_iff.mpr ⟨true, saved⟩
    refine ⟨⟨cfg.data, document, filename, (({} : Supplied).orElse items).withEnv myEnv⟩,
      ?_, rfl, same⟩
    exact parse_eq_ok_iff.mpr ⟨_, items, document, file, read, found, rfl, settled, loaded,
      overrideToml_of_holds (holds.same same)⟩

end

/-! ## A config file without settings -/

/-- A stand-in for the text of a saved configuration in which only the port is not
initial; toml11 writes the same lines in the order of an `unordered_map`. -/
def savedText (port : String) : Text :=
  ("pi = 3.1415\nport = " ++ port ++ "\nenv = \"\"\ndae = false\n\n[sub]\nsub = false\n").toList

def savedDocument (port : Int) : Toml :=
  .table [("pi", .floating ({} : ConfigData).pi), ("port", .integer port), ("env", .string ""),
    ("dae", .boolean false), ("sub", .table [("sub", .boolean false)])]

def savedItems (port : String) : Supplied :=
  { dae := "false", pi := "3.1415", port := port, env := "", sub := "false" }

/-- The libraries on an empty file and on `savedText`, for one port. -/
def plainLibraries (portText : String) (port : Int) : Libraries where
  format _ := .ok (savedText portText)
  tomlParse text := .ok (if text = savedText portText then savedDocument port else .table [])
  fromConfig _ text := .ok (if text = savedText portText then savedItems portText else {})
  toFlag text := if text = "true" then some true else if text = "false" then some false else none
  toInt text := if text = portText then some port else none
  toDouble text := if text = "3.1415" then some ({} : ConfigData).pi else none

theorem plainLibraries_readsBack (portText : String) (port : Int) :
    (plainLibraries portText port).ReadsBack (savedDocument port) (savedText portText) := by
  constructor
  · rfl
  · exact ⟨savedDocument port, by simp [plainLibraries], .refl _⟩
  · intro data holds
    have plain : Holds { port := port } (savedDocument port) := by
      intro setting member
      simp only [ConfigData.settings, List.mem_cons, List.not_mem_nil, or_false] at member
      rcases member with rfl | rfl | rfl | rfl | rfl <;> rfl
    obtain rfl := plain.unique holds
    refine ⟨savedItems portText, by simp [plainLibraries], ?_⟩
    constructor <;> simp [plainLibraries, savedItems]

/-- An empty `lynx.toml` in the working directory. -/
def plainFiles : Files := fun location =>
  if location = [] then .directory
  else if location = ["lynx.toml"] then .file [] true true
  else .absent

/-- Where `main` saves. -/
def savFile : Path := .relative ["lynx.toml.sav"]

theorem saved_loads_iff_suppliedPort :
    ∃ cfg, parse (plainLibraries "8888" 8888) { options := { port := some "8888" } } "" []
        plainFiles = .ok cfg ∧
      (Reloads (plainLibraries "8888" 8888) cfg savFile "" []
          (cfg.writeConfigAs (plainLibraries "8888" 8888) savFile { delivered := 100 } [] plainFiles).files ↔
        PortSupplied (plainLibraries "8888" 8888) { options := { port := some "8888" } } []
          plainFiles ∧ (plainFiles.node [] savFile).readableAfter = true) := by
  have parsed : parse (plainLibraries "8888" 8888) { options := { port := some "8888" } } "" []
      plainFiles = .ok ⟨{ port := 8888 }, savedDocument 8888, .relative ["lynx.toml"],
        { port := some "8888" }⟩ := by rfl
  exact ⟨_, parsed, saved_loads_iff parsed (by decide) (by decide)
    (plainLibraries_readsBack "8888" 8888)⟩

/-- With no port from any source, the saved 0 is refused. -/
theorem savedDefaultPort_refused :
    ¬ ∀ (libs : Libraries) (cmd : CommandLine) (myEnv : String) (cwd : Location) (files : Files)
        (cfg : Config) (filename : Path) (io : Io) (text : Text),
      parse libs cmd myEnv cwd files = .ok cfg →
      (cfg.writeConfigAs libs filename io cwd files).ok = true →
      io.Whole text →
      (files.node cwd filename).readableAfter = true →
      libs.ReadsBack cfg.tomlRoot text →
      Reloads libs cfg filename myEnv cwd (cfg.writeConfigAs libs filename io cwd files).files := by
  intro loads
  have parsed : parse (plainLibraries "0" 0) {} "" [] plainFiles =
      .ok ⟨{}, savedDocument 0, .relative ["lynx.toml"], {}⟩ := by rfl
  obtain ⟨again, reparsed, -⟩ := loads (plainLibraries "0" 0) {} "" [] plainFiles _ savFile
    { delivered := 100 } _ parsed (by decide) (by decide) (by decide) (plainLibraries_readsBack "0" 0)
  cases reparsed

end Lynx.Config
