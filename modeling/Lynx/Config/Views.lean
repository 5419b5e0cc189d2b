/-
# Config.Views — one setting, three readers

After the parse a setting can be read through its option (`cli()["--pi"]->as<T>()`),
from `data()` and from `toml_root()`, and `main` prints pi all three ways.  The
document has the values of `data()` because `override_toml` puts them there
(`parse_holds`).  The option has the text that was supplied, from which its variable
in `data()` was assigned; without one it reads as the zero of its type, while the
variable keeps its initial value.  So the two agree on a setting exactly when a text
was supplied or the initial value is zero (`optionAs_eq_iff`).  Only pi has another.
-/
import Lynx.Config.RoundTrip

namespace Lynx.Config

open Lynx.Theory.Fallible
open Lynx.Theory.PathResolution

set_option autoImplicit false

/-- `Option::as<T>()` where `T{}` is `zero`; `none` is a `ConversionError`.  The
conversion is that of the callback: a flag never receives the empty text, on which
alone the two would differ. -/
def optionAs {α : Type} (convert : String → Option α) (zero : α) : Option String → Option α
  | none => some zero
  | some text => convert text

/-- `double{}`. -/
def Double.zero : Double := ⟨0⟩

/-- An option and the variable it is bound to agree. -/
theorem optionAs_eq_iff {α : Type} {convert : String → Option α} {initial zero value : α}
    {text : Option String} (bound : Bound convert initial text value) :
    optionAs convert zero text = some value ↔ text.isSome = true ∨ initial = zero := by
  cases text with
  | none =>
      obtain rfl : value = initial := bound
      simp [optionAs, eq_comm]
  | some given =>
      have converted : convert given = some value := bound
      simp [optionAs, converted]

/-- An option whose variable starts at zero agrees with it. -/
theorem optionAs_eq {α : Type} {convert : String → Option α} {initial value : α}
    {text : Option String} (bound : Bound convert initial text value) :
    optionAs convert initial text = some value :=
  (optionAs_eq_iff bound).mpr (.inr rfl)

/-- Read through the options, the settings are those of `data`. -/
structure CliAgrees (libs : Libraries) (given : Supplied) (data : ConfigData) : Prop where
  pi : optionAs libs.toDouble .zero given.pi = some data.pi
  port : optionAs libs.toInt 0 given.port = some data.port
  env : optionAs some "" given.env = some data.env
  dae : optionAs libs.toFlag false given.dae = some data.dae
  sub : optionAs libs.toFlag false given.sub = some data.sub.sub

/-- The options, `data()` and `toml_root()` have the same five settings. -/
structure ViewsAgree (libs : Libraries) (cfg : Config) : Prop where
  cli : CliAgrees libs cfg.results cfg.data
  toml : Holds cfg.data cfg.tomlRoot

/-- The other keys of the document in the config file are in `toml_root()` as they
were. -/
def OthersKept (libs : Libraries) (cwd : Location) (files : Files) (cfg : Config) : Prop :=
  ∀ text document, files.read cwd cfg.configFile = some text →
    libs.tomlParse text = .ok document →
      ∀ path, Unrelated path → cfg.tomlRoot.find path = document.find path

section

variable {libs : Libraries} {cmd : CommandLine} {myEnv : String} {cwd : Location} {files : Files}
variable {cfg : Config}

theorem Settled.boundEnv {given : Supplied} {data : ConfigData}
    (settled : Settled libs given data) : Bound some "" given.env data.env := by
  have env := settled.env
  cases supplied : given.env with
  | none =>
      rw [supplied] at env
      exact env.symm
  | some text =>
      rw [supplied] at env
      exact congrArg some env

theorem cliAgrees_iff {given : Supplied} {data : ConfigData} (settled : Settled libs given data) :
    CliAgrees libs given data ↔ given.pi.isSome = true := by
  have notZero : ({} : ConfigData).pi ≠ .zero := by decide
  constructor
  · intro agrees
    rcases (optionAs_eq_iff settled.pi).mp agrees.pi with supplied | zero
    · exact supplied
    · exact absurd zero notZero
  · intro supplied
    constructor
    · exact (optionAs_eq_iff settled.pi).mpr (.inl supplied)
    · exact optionAs_eq settled.port
    · exact optionAs_eq settled.boundEnv
    · exact optionAs_eq settled.dae
    · exact optionAs_eq settled.sub

theorem othersKept (parsed : parse libs cmd myEnv cwd files = .ok cfg) :
    OthersKept libs cwd files cfg := by
  obtain ⟨text, items, document, steps⟩ := parse_eq_ok_iff.mp parsed
  intro text' document' read loaded path unrelated
  obtain rfl := Option.some.inj (steps.read.symm.trans read)
  obtain rfl := ok_unique steps.loaded loaded
  exact overrideToml_unrelated steps.overridden unrelated

/-- **When the three views agree.**  After a parse the options, `data()` and
`toml_root()` have the same settings, and the document its other keys, exactly when
pi was supplied on the command line or in the config file. -/
theorem viewsAgree_iff (parsed : parse libs cmd myEnv cwd files = .ok cfg) :
    (ViewsAgree libs cfg ∧ OthersKept libs cwd files cfg) ↔
      SuppliedTo Supplied.pi libs cmd cwd files := by
  obtain ⟨_, _, _, steps⟩ := parse_eq_ok_iff.mp parsed
  rw [suppliedTo_iff Supplied.pi (fun _ _ => rfl) parsed, ← cliAgrees_iff steps.settled]
  constructor
  · rintro ⟨agree, -⟩
    exact agree.cli
  · intro agrees
    exact ⟨⟨agrees, parse_holds parsed⟩, othersKept parsed⟩

end

theorem viewsAgree_iff_suppliedPi :
    ∃ cfg, parse (plainLibraries "8888" 8888) { options := { pi := some "3.1415" } } "" []
        plainFiles = .ok cfg ∧
      ((ViewsAgree (plainLibraries "8888" 8888) cfg ∧
          OthersKept (plainLibraries "8888" 8888) [] plainFiles cfg) ↔
        SuppliedTo Supplied.pi (plainLibraries "8888" 8888) { options := { pi := some "3.1415" } }
          [] plainFiles) := by
  have parsed : parse (plainLibraries "8888" 8888) { options := { pi := some "3.1415" } } "" []
      plainFiles = .ok ⟨{}, savedDocument 0, .relative ["lynx.toml"],
        { pi := some "3.1415" }⟩ := by rfl
  exact ⟨_, parsed, viewsAgree_iff parsed⟩

/-- With no pi from any source, `data()` and `toml_root()` have 3.1415 and the option
has 0. -/
theorem defaultPi_differs :
    ¬ ∀ (libs : Libraries) (cmd : CommandLine) (myEnv : String) (cwd : Location) (files : Files)
        (cfg : Config), parse libs cmd myEnv cwd files = .ok cfg →
      ViewsAgree libs cfg ∧ OthersKept libs cwd files cfg := by
  intro agreesAlways
  have parsed : parse (plainLibraries "8888" 8888) {} "" [] plainFiles =
      .ok ⟨{}, savedDocument 0, .relative ["lynx.toml"], {}⟩ := by rfl
  have agree := (agreesAlways _ _ _ _ _ _ parsed).1
  exact absurd agree.cli.pi (by decide)

end Lynx.Config
