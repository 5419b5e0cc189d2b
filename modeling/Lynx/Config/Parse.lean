/-
# Config.Parse — `Config::parse`

The settings come from four sources: the command line, the config file as CLI11
reads it, the environment, and the initial values of `ConfigData`, which no
validator ever sees.  `parse` resolves them in this order, loads the same file
as a TOML document, and overrides the document with the settings.

CLI11 and toml11 are the parameter `Libraries`: how a document is written and
read, what CLI11 finds in a config file, and how it converts a text to a value.
An option's value is a text until its callback runs, whichever source it came
from.  A command line that CLI11 refuses by itself, and `--help`, do not get here.

`parse_eq_ok_iff` is the rule for a parse that returns normally.
-/
import Lynx.Config.Document
import Lynx.Config.Files
import Lynx.Theory.Fallible

namespace Lynx.Config

open Lynx.Theory.Fallible
open Lynx.Theory.PathResolution

set_option autoImplicit false
set_option linter.dupNamespace false

/-- Why `Config::parse` ends the process. -/
inductive ParseExit where
  /-- `std::exit(cli_.exit(e))`, with CLI11's exit code. -/
  | cli (code : Nat) (what : String)
  /-- `std::exit(1)` for a `toml::exception`. -/
  | toml (what : String)
  deriving DecidableEq, Repr

namespace ParseExit

/-- `CLI::FileError::Missing`. -/
def fileMissing (name : String) : ParseExit := .cli 103 (name ++ " was not readable (missing?)")

/-- `CLI::ConversionError`. -/
def conversionError (name result : String) : ParseExit :=
  .cli 104 ("Could not convert: " ++ name ++ " = " ++ result)

/-- `CLI::ValidationError`. -/
def validationError (name message : String) : ParseExit := .cli 105 (name ++ ": " ++ message)

end ParseExit

/-- The texts the five options received. -/
structure Supplied where
  dae : Option String := none
  pi : Option String := none
  port : Option String := none
  env : Option String := none
  sub : Option String := none
  deriving DecidableEq, Repr

/-- What the file adds to the options that are still empty. -/
def Supplied.orElse (first second : Supplied) : Supplied where
  dae := first.dae.or second.dae
  pi := first.pi.or second.pi
  port := first.port.or second.port
  env := first.env.or second.env
  sub := first.sub.or second.sub

/-- `App::_process_env`: `MY_ENV` for `--env` when nothing else gave it; an
empty variable counts as unset. -/
def Supplied.withEnv (given : Supplied) (myEnv : String) : Supplied :=
  { given with env := given.env.or (if myEnv = "" then none else some myEnv) }

structure CommandLine where
  /-- The argument of `--config`. -/
  config : Option Path := none
  options : Supplied := {}
  deriving DecidableEq, Repr

/-- What the development takes from toml11 and CLI11. -/
structure Libraries where
  /-- `toml::format` of a document, or the `what()` of its exception. -/
  format : Toml → Except String Text
  /-- `toml::parse` of a file with this text, or the `what()` of its exception. -/
  tomlParse : Text → Except String Toml
  /-- What `App::_parse_config` takes from a config file with this text for the
  options the command line left empty. -/
  fromConfig : Supplied → Text → Except ParseExit Supplied
  /-- `CLI::detail::lexical_conversion` of one text to `bool`, `int` and `double`. -/
  toFlag : String → Option Bool
  toInt : String → Option Int
  toDouble : String → Option Double

/-- `Config`, with the texts the options of `cli_` hold. -/
structure Config where
  data : ConfigData
  tomlRoot : Toml
  configFile : Path
  results : Supplied

/-! ## The config file -/

/-- `CLI::FileOnDefaultPath(defaultPath, enableErrorReturn)`. -/
def fileOnDefaultPath (files : Files) (cwd : Location) (defaultPath : Path)
    (enableErrorReturn : Bool) (filename : Path) : Except String Path :=
  match files.checkPath cwd filename with
  | .nonexistent =>
      let testFilePath := defaultPath.join filename
      if files.checkPath cwd testFilePath = .file then .ok testFilePath
      else if enableErrorReturn then .error ("File does not exist: " ++ filename.text)
      else .ok filename
  | _ => .ok filename

/-- The validators of `--config`, the last one added first. -/
def onDefaultPaths (files : Files) (cwd : Location) (filename : Path) : Except String Path := do
  let filename ← fileOnDefaultPath files cwd (.relative ["."]) false filename
  let filename ← fileOnDefaultPath files cwd (.relative [".", "etc"]) false filename
  fileOnDefaultPath files cwd { absolute := true, parts := ["etc"] } true filename

/-- The value of `--config`: the file to load. -/
def configFile (files : Files) (cwd : Location) (cmd : CommandLine) : Except ParseExit Path :=
  match onDefaultPaths files cwd (cmd.config.getD (.relative ["lynx.toml"])) with
  | .ok path => .ok path
  | .error message => .error (.validationError "--config" message)

/-! ## The options -/

/-- An option bound to a variable with the value `old`: assigned only when the
option received a text. -/
def assign {α : Type} (convert : String → Option α) (name : String) (old : α) :
    Option String → Except ParseExit α
  | none => .ok old
  | some text => orThrow (.conversionError name text) (convert text)

/-- `CLI::Range(min, max)`: the message of a text it refuses. -/
def range (libs : Libraries) (min max : Int) (text : String) : Option String :=
  match libs.toInt text with
  | some value => if value < min ∨ max < value then refused else none
  | none => refused
where
  refused : Option String :=
    some ("Value " ++ text ++ " not in range [" ++ toString min ++ " - " ++ toString max ++ "]")

/-- `Option::_validate_results` of `--port`. -/
def validatePort (libs : Libraries) : Option String → Except ParseExit PUnit
  | none => .ok ⟨⟩
  | some text =>
      match range libs 1024 65535 text with
      | none => .ok ⟨⟩
      | some message => .error (.validationError "--port" message)

/-- `App::_process_callbacks`, in the order the options were added. -/
def processCallbacks (libs : Libraries) (given : Supplied) : Except ParseExit ConfigData := do
  let initial : ConfigData := {}
  let dae ← assign libs.toFlag "--dae" initial.dae given.dae
  let pi ← assign libs.toDouble "--pi" initial.pi given.pi
  validatePort libs given.port
  let port ← assign libs.toInt "--port" initial.port given.port
  let env := given.env.getD initial.env
  let sub ← assign libs.toFlag "--sub" initial.sub.sub given.sub
  .ok { dae := dae, port := port, env := env, pi := pi, sub := { sub := sub } }

/-- `Config::parse`.  When the config file cannot be read the callbacks of the
command line still run first, so that their errors win. -/
def parse (libs : Libraries) (cmd : CommandLine) (myEnv : String) (cwd : Location)
    (files : Files) : Except ParseExit Config := do
  let path ← configFile files cwd cmd
  match files.read cwd path with
  | none =>
      let _ ← processCallbacks libs cmd.options
      .error (.fileMissing path.text)
  | some text =>
      let items ← libs.fromConfig cmd.options text
      let given := (cmd.options.orElse items).withEnv myEnv
      let data ← processCallbacks libs given
      match libs.tomlParse text with
      | .error what => .error (.toml what)
      | .ok document =>
          let root ← orThrow (.toml "toml::value::operator[](key_type): bad_cast to table")
            (overrideToml data document)
          .ok { data := data, tomlRoot := root, configFile := path, results := given }

/-! ## What a normal return says -/

/-- The value a bound variable has after the parse. -/
def Bound {α : Type} (convert : String → Option α) (old : α) (text : Option String) (value : α) :
    Prop :=
  match text with
  | none => value = old
  | some given => convert given = some value

theorem assign_eq_ok_iff {α : Type} {convert : String → Option α} {name : String} {old value : α}
    {text : Option String} :
    assign convert name old text = .ok value ↔ Bound convert old text value := by
  cases text with
  | none => simp [assign, Bound, eq_comm]
  | some given => exact orThrow_eq_ok

/-- The value of `--port` is in its range when the option received one. -/
def PortInRange (libs : Libraries) (text : Option String) : Prop :=
  ∀ given, text = some given → ∃ value, libs.toInt given = some value ∧ 1024 ≤ value ∧ value ≤ 65535

theorem range_eq_none_iff {libs : Libraries} {min max : Int} {text : String} :
    range libs min max text = none ↔ ∃ value, libs.toInt text = some value ∧ min ≤ value ∧ value ≤ max := by
  unfold range
  cases converted : libs.toInt text with
  | none => simp [range.refused]
  | some value =>
      by_cases outside : value < min ∨ max < value
      · simp only [outside, if_true, range.refused, Option.some.injEq, exists_eq_left']
        constructor
        · intro none_
          cases none_
        · omega
      · simp only [outside, if_false, Option.some.injEq, exists_eq_left', true_iff]
        omega

theorem validatePort_eq_ok_iff {libs : Libraries} {text : Option String} {u : PUnit} :
    validatePort libs text = .ok u ↔ PortInRange libs text := by
  cases text with
  | none => simp [validatePort, PortInRange]
  | some given =>
      have inRange : range libs 1024 65535 given = none ↔
          ∃ value, libs.toInt given = some value ∧ 1024 ≤ value ∧ value ≤ 65535 := range_eq_none_iff
      cases answer : range libs 1024 65535 given with
      | none => simp [validatePort, answer, PortInRange, inRange.mp answer]
      | some message =>
          have outside : ¬ ∃ value, libs.toInt given = some value ∧ 1024 ≤ value ∧ value ≤ 65535 := by
            intro inside
            have accepted := inRange.mpr inside
            rw [answer] at accepted
            cases accepted
          simpa [validatePort, answer, PortInRange] using outside

/-- Every option's variable has the value of its text, or its initial value. -/
structure Settled (libs : Libraries) (given : Supplied) (data : ConfigData) : Prop where
  dae : Bound libs.toFlag ({} : ConfigData).dae given.dae data.dae
  pi : Bound libs.toDouble ({} : ConfigData).pi given.pi data.pi
  portInRange : PortInRange libs given.port
  port : Bound libs.toInt ({} : ConfigData).port given.port data.port
  env : given.env.getD ({} : ConfigData).env = data.env
  sub : Bound libs.toFlag ({} : ConfigData).sub.sub given.sub data.sub.sub

theorem processCallbacks_eq_ok_iff {libs : Libraries} {given : Supplied} {data : ConfigData} :
    processCallbacks libs given = .ok data ↔ Settled libs given data := by
  unfold processCallbacks
  simp only [bind_eq_ok, assign_eq_ok_iff, validatePort_eq_ok_iff, Except.ok.injEq]
  constructor
  · rintro ⟨dae, daeBound, pi, piBound, -, portInRange, port, portBound, sub, subBound, rfl⟩
    exact ⟨daeBound, piBound, portInRange, portBound, rfl, subBound⟩
  · rintro ⟨dae, pi, portInRange, port, env, sub⟩
    refine ⟨_, dae, _, pi, ⟨⟩, portInRange, _, port, _, sub, ?_⟩
    rw [env]

/-- The steps of a parse that returns `cfg`. -/
structure Parsed (libs : Libraries) (cmd : CommandLine) (myEnv : String) (cwd : Location)
    (files : Files) (text : Text) (items : Supplied) (document : Toml) (cfg : Config) : Prop where
  file : configFile files cwd cmd = .ok cfg.configFile
  read : files.read cwd cfg.configFile = some text
  found : libs.fromConfig cmd.options text = .ok items
  results : cfg.results = (cmd.options.orElse items).withEnv myEnv
  settled : Settled libs cfg.results cfg.data
  loaded : libs.tomlParse text = .ok document
  overridden : overrideToml cfg.data document = some cfg.tomlRoot

/-- **A parse returns normally exactly when each of its steps does.** -/
theorem parse_eq_ok_iff {libs : Libraries} {cmd : CommandLine} {myEnv : String} {cwd : Location}
    {files : Files} {cfg : Config} :
    parse libs cmd myEnv cwd files = .ok cfg ↔
      ∃ text items document, Parsed libs cmd myEnv cwd files text items document cfg := by
  unfold parse
  rw [bind_eq_ok]
  constructor
  · rintro ⟨path, file, done⟩
    cases read : files.read cwd path with
    | none =>
        rw [read] at done
        obtain ⟨_, -, failed⟩ := bind_eq_ok.mp done
        cases failed
    | some text =>
        rw [read] at done
        obtain ⟨items, found, done⟩ := bind_eq_ok.mp done
        obtain ⟨data, called, done⟩ := bind_eq_ok.mp done
        cases loaded : libs.tomlParse text with
        | error what =>
            rw [loaded] at done
            cases done
        | ok document =>
            rw [loaded] at done
            obtain ⟨root, overridden, done⟩ := bind_eq_ok.mp done
            cases done
            exact ⟨text, items, document, file, read, found, rfl,
              processCallbacks_eq_ok_iff.mp called, loaded, orThrow_eq_ok.mp overridden⟩
  · rintro ⟨text, items, document, file, read, found, results, settled, loaded, overridden⟩
    refine ⟨cfg.configFile, file, ?_⟩
    rw [results] at settled
    simp only [read]
    refine bind_eq_ok.mpr ⟨items, found, bind_eq_ok.mpr ⟨cfg.data, ?_, ?_⟩⟩
    · exact processCallbacks_eq_ok_iff.mpr settled
    · simp only [loaded]
      refine bind_eq_ok.mpr ⟨cfg.tomlRoot, orThrow_eq_ok.mpr overridden, ?_⟩
      rw [← results]

/-- After a parse the document has the values of `data`. -/
theorem Parsed.holds {libs : Libraries} {cmd : CommandLine} {myEnv : String} {cwd : Location}
    {files : Files} {text : Text} {items : Supplied} {document : Toml} {cfg : Config}
    (parsed : Parsed libs cmd myEnv cwd files text items document cfg) :
    Holds cfg.data cfg.tomlRoot :=
  overrideToml_holds parsed.overridden

theorem parse_holds {libs : Libraries} {cmd : CommandLine} {myEnv : String} {cwd : Location}
    {files : Files} {cfg : Config} (parsed : parse libs cmd myEnv cwd files = .ok cfg) :
    Holds cfg.data cfg.tomlRoot := by
  obtain ⟨_, _, _, steps⟩ := parse_eq_ok_iff.mp parsed
  exact steps.holds

/-! ## Where a setting comes from -/

/-- The command line or the config file has a text for the option that `option`
reads. -/
def SuppliedTo (option : Supplied → Option String) (libs : Libraries) (cmd : CommandLine)
    (cwd : Location) (files : Files) : Prop :=
  (option cmd.options).isSome = true ∨
    ∃ path text items, configFile files cwd cmd = .ok path ∧
      files.read cwd path = some text ∧
      libs.fromConfig cmd.options text = .ok items ∧ (option items).isSome = true

/-- An option that no variable of the environment feeds has a text after the parse
exactly when one of the two supplied it. -/
theorem suppliedTo_iff (option : Supplied → Option String) {libs : Libraries} {cmd : CommandLine}
    {myEnv : String} {cwd : Location} {files : Files} {cfg : Config}
    (merged : ∀ first second, option ((Supplied.orElse first second).withEnv myEnv) =
      (option first).or (option second))
    (parsed : parse libs cmd myEnv cwd files = .ok cfg) :
    SuppliedTo option libs cmd cwd files ↔ (option cfg.results).isSome = true := by
  obtain ⟨text, items, document, steps⟩ := parse_eq_ok_iff.mp parsed
  rw [steps.results, merged, Option.isSome_or, Bool.or_eq_true]
  constructor
  · rintro (onCommandLine | ⟨path, text', items', file, read, found, inFile⟩)
    · exact .inl onCommandLine
    · obtain rfl := ok_unique steps.file file
      obtain rfl := Option.some.inj (steps.read.symm.trans read)
      obtain rfl := ok_unique steps.found found
      exact .inr inFile
  · rintro (onCommandLine | inFile)
    · exact .inl onCommandLine
    · exact .inr ⟨_, text, items, steps.file, steps.read, steps.found, inFile⟩

end Lynx.Config
