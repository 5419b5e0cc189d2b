/-
# Config.Files — the file tree, and one truncating write

`Files` gives each location of the tree what is there; a path denotes a location when
it can be followed through the directories of the tree (`Files.resolve`).  Two of the
readers of a path disagree about what exists: CLI11's `check_path` asks for its status,
while `Config::file_exists` tries to open it for reading, so a file that may not be
read exists for the first and not for the second.

`writeToFile` is `Config::write_to_file`.  Opening the target truncates it; then the text
is made, which can throw, and follows in steps that can fail one by one, and nobody
looks at the result.  What can happen to one write is its `Io`: what other processes do
before the target is opened, whether it opens, and how much of the text reaches it.
`writeToFile_of_opens` and `writeToFile_of_not_opens` are the rules for it.
-/
import Lynx.Theory.PathResolution

namespace Lynx.Config

open Lynx.Theory.PathResolution

set_option autoImplicit false

abbrev Text := List Char

/-- What is at a location. -/
inductive Node where
  | absent
  | directory
  | file (content : Text) (readable writable : Bool)
  deriving DecidableEq, Repr

abbrev Files := Location → Node

/-- `CLI::detail::path_type`. -/
inductive PathType where
  | nonexistent
  | directory
  | file
  deriving DecidableEq, Repr

/-- What the system does with one write. -/
structure Io where
  /-- The steps of other processes between the existence test and the opening. -/
  meanwhile : Files → Files := id
  /-- The opening succeeds if the tree allows it. -/
  opens : Bool := true
  /-- How many characters reach the file before writing, flushing or closing fails. -/
  delivered : Nat

namespace Node

/-- The contents of a file, whoever may read it. -/
def contents : Node → Option Text
  | .file content _ _ => some content
  | _ => none

/-- May the file that a write leaves here be read?  An old file keeps its
permissions. -/
def readableAfter : Node → Bool
  | .file _ readable _ => readable
  | _ => true

end Node

namespace Files

/-- Put `node` at `location`. -/
def set (files : Files) (location : Location) (node : Node) : Files := fun other =>
  if other = location then node else files other

@[simp] theorem set_self (files : Files) (location : Location) (node : Node) :
    files.set location node location = node := by
  simp [set]

theorem set_of_ne (files : Files) {location other : Location} (node : Node)
    (apart : other ≠ location) : files.set location node other = files other := by
  simp [set, apart]

def isDirectory (files : Files) (location : Location) : Bool :=
  decide (files location = .directory)

/-- The location a path denotes in the tree. -/
def resolve (files : Files) (cwd : Location) (path : Path) : Option Location :=
  Theory.PathResolution.resolve files.isDirectory cwd path

/-- What a path denotes. -/
def node (files : Files) (cwd : Location) (path : Path) : Node :=
  match files.resolve cwd path with
  | some location => files location
  | none => .absent

/-- `CLI::detail::check_path`. -/
def checkPath (files : Files) (cwd : Location) (path : Path) : PathType :=
  match files.node cwd path with
  | .absent => .nonexistent
  | .directory => .directory
  | .file _ _ _ => .file

/-- `std::ifstream file(name); file.good()`: a directory opens too. -/
def fileExists (files : Files) (cwd : Location) (path : Path) : Bool :=
  match files.node cwd path with
  | .absent => false
  | .directory => true
  | .file _ readable _ => readable

/-- The text an `ifstream` reads. -/
def read (files : Files) (cwd : Location) (path : Path) : Option Text :=
  match files.node cwd path with
  | .file content true _ => some content
  | _ => none

/-- The location at which a write opens a path: a file that may be written, or a new
file in an existing directory. -/
def openTarget (files : Files) (cwd : Location) (path : Path) : Option Location :=
  match files.resolve cwd path with
  | none => none
  | some location =>
      match files location with
      | .absent => if files.isDirectory location.dropLast then some location else none
      | .directory => none
      | .file _ _ writable => if writable then some location else none

/-- Every file of `before` is in `after`, with the same contents. -/
def Keeps (before after : Files) : Prop :=
  ∀ location content, (before location).contents = some content →
    (after location).contents = some content

theorem Keeps.refl (files : Files) : Keeps files files := fun _ _ there => there

section

variable {files : Files} {cwd location : Location} {path : Path}

theorem node_of_resolve (resolved : files.resolve cwd path = some location) :
    files.node cwd path = files location := by
  rw [node, resolved]

/-- A file changes no path. -/
theorem resolve_set (notDirectory : files location ≠ .directory) {node : Node}
    (file : node ≠ .directory) (cwd : Location) (path : Path) :
    (files.set location node).resolve cwd path = files.resolve cwd path := by
  have same : (files.set location node).isDirectory = files.isDirectory := by
    funext other
    by_cases here : other = location
    · simp [isDirectory, here, notDirectory, file]
    · simp [isDirectory, set_of_ne files node here]
  rw [resolve, same, resolve]

/-- A new file keeps the others. -/
theorem keeps_set_of_absent (node : Node) (absent : files location = .absent) :
    Keeps files (files.set location node) := by
  intro other content there
  by_cases same : other = location
  · rw [same, absent] at there
    cases there
  · rwa [set_of_ne files node same]

/-- What a write finds where it opens. -/
theorem openTarget_eq_some (opened : files.openTarget cwd path = some location) :
    files.resolve cwd path = some location ∧
      (files location = .absent ∨ ∃ content readable, files location = .file content readable true) := by
  unfold openTarget at opened
  cases resolved : files.resolve cwd path with
  | none =>
      rw [resolved] at opened
      cases opened
  | some target =>
      rw [resolved] at opened
      cases node : files target with
      | absent =>
          simp only [node] at opened
          split at opened
          · obtain rfl := Option.some.inj opened
            exact ⟨rfl, .inl node⟩
          · cases opened
      | directory =>
          simp only [node] at opened
          cases opened
      | file content readable writable =>
          simp only [node] at opened
          split at opened
          · rename_i may
            obtain rfl := Option.some.inj opened
            exact ⟨rfl, .inr ⟨content, readable, by rw [node, may]⟩⟩
          · cases opened

theorem ne_directory_of_openTarget (opened : files.openTarget cwd path = some location) :
    files location ≠ .directory := by
  rcases (openTarget_eq_some opened).2 with absent | ⟨content, readable, file⟩
  · rw [absent]
    simp
  · rw [file]
    simp

/-- A file that may be written can be opened. -/
theorem openTarget_of_file {content : Text} {readable : Bool}
    (there : files.node cwd path = .file content readable true) :
    ∃ location, files.openTarget cwd path = some location := by
  unfold node at there
  cases resolved : files.resolve cwd path with
  | none =>
      rw [resolved] at there
      cases there
  | some location =>
      rw [resolved] at there
      have file : files location = .file content readable true := there
      exact ⟨location, by simp [openTarget, resolved, file]⟩

/-- What is where a write has been. -/
theorem node_set (opened : files.openTarget cwd path = some location) {node : Node}
    (file : node ≠ .directory) : (files.set location node).node cwd path = node := by
  have same := resolve_set (ne_directory_of_openTarget opened) file cwd path
  rw [(openTarget_eq_some opened).1] at same
  rw [node_of_resolve same, set_self]

theorem read_eq_some_iff {content : Text} :
    files.read cwd path = some content ↔
      ∃ writable, files.node cwd path = .file content true writable := by
  unfold read
  split
  · rename_i own writable found
    simp [found]
  · rename_i notReadable
    constructor
    · intro none_
      cases none_
    · rintro ⟨writable, found⟩
      exact absurd found (notReadable content writable)

end

end Files

/-- The result of a write: the tree afterwards, the returned value or the `what()` of
the exception that leaves it, and the line printed (on `stdout` when the value is true,
on `stderr` otherwise). -/
structure Written where
  files : Files
  result : Except String Bool
  report : String

/-- The write returns true. -/
def Written.ok (written : Written) : Bool := written.result.toOption.getD false

@[simp] theorem Written.ok_mk (files : Files) (value : Bool) (report : String) :
    Written.ok ⟨files, .ok value, report⟩ = value := rfl

@[simp] theorem Written.ok_mk_error (files : Files) (what report : String) :
    Written.ok ⟨files, .error what, report⟩ = false := rfl

/-- `Config::write_to_file`, with the text of `toml::format(toml_root_)` or its
exception. -/
def writeToFile (io : Io) (cwd : Location) (filename : Path) (text : Except String Text)
    (files : Files) : Written :=
  match if io.opens then files.openTarget cwd filename else none with
  | none => ⟨files, .ok false, "Failed to open file: " ++ filename.text⟩
  | some target =>
      let readable := (files target).readableAfter
      match text with
      | .error what => ⟨files.set target (.file [] readable true), .error what, ""⟩
      | .ok text =>
          ⟨files.set target (.file (text.take io.delivered) readable true), .ok true,
            "Successfully saved config to: " ++ filename.text⟩

/-- The whole text reaches the file. -/
def Io.Whole (io : Io) (text : Text) : Prop := text.length ≤ io.delivered

instance (io : Io) (text : Text) : Decidable (io.Whole text) :=
  inferInstanceAs (Decidable (text.length ≤ io.delivered))

/-- What reaches a file that is opened: nothing of a text that cannot be made. -/
def Io.arrived (io : Io) (text : Except String Text) : Text :=
  match text with
  | .error _ => []
  | .ok text => text.take io.delivered

@[simp] theorem Io.arrived_error (io : Io) (what : String) : io.arrived (.error what) = [] := rfl

@[simp] theorem Io.arrived_ok (io : Io) (text : Text) :
    io.arrived (.ok text) = text.take io.delivered := rfl

section

variable {io : Io} {cwd target : Location} {filename : Path} {files : Files}

/-- **A write that opens its target** leaves in it what reached it, and is true unless
the text cannot be made. -/
theorem writeToFile_of_opens (text : Except String Text) (opens : io.opens = true)
    (opened : files.openTarget cwd filename = some target) :
    (writeToFile io cwd filename text files).result = text.map (fun _ => true) ∧
      (writeToFile io cwd filename text files).files =
        files.set target (.file (io.arrived text) (files target).readableAfter true) := by
  cases text with
  | error what => simp [writeToFile, opens, opened, Except.map]
  | ok text => simp [writeToFile, opens, opened, Except.map]

/-- **A write that does not open its target** is false and changes nothing. -/
theorem writeToFile_of_not_opens (text : Except String Text)
    (closed : io.opens = true → files.openTarget cwd filename = none) :
    (writeToFile io cwd filename text files).result = .ok false ∧
      (writeToFile io cwd filename text files).files = files := by
  have nothing : (if io.opens then files.openTarget cwd filename else none) = none := by
    split
    · rename_i opens
      exact closed opens
    · rfl
  simp [writeToFile, nothing]

end

end Lynx.Config
