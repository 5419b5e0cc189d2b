/-
# Theory.PathResolution — what a path denotes from a working directory

A directory or file is its list of names from the root (`Location`), with no
symbolic links.  `place cwd p` is where the components of `p` lead from `cwd`, or from
the root when `p` is absolute; `..` at the root stays there.  A component can only be
followed from a directory, so `resolve` gives this place when every location on the
way is one: `name/..` is not nothing where there is no `name`.

The components of a path are a number of steps up and then a list of names
(`place_eq`), which decides when two working directories give it one meaning:
`resolve_from_root_iff` — a path keeps its meaning when the working directory becomes
the root exactly when it is absolute, or climbs at least as many levels as the old
working directory is deep and can be followed from the root as well.
-/
import Mathlib.Data.List.DropRight

namespace Lynx.Theory.PathResolution

set_option autoImplicit false

/-- An existing or possible place in the tree: its names from the root. -/
abbrev Location := List String

structure Path where
  absolute : Bool
  parts : List String
  deriving DecidableEq, Repr

namespace Path

/-- A relative path. -/
def relative (parts : List String) : Path := { absolute := false, parts := parts }

/-- `directory + "/" + file`, as strings are joined: `file` loses its own root. -/
def join (directory file : Path) : Path :=
  { directory with parts := directory.parts ++ file.parts }

/-- The path as text. -/
def text (p : Path) : String :=
  (if p.absolute then "/" else "") ++ "/".intercalate p.parts

end Path

/-- Follow one component from a location. -/
def follow (here : Location) (part : String) : Location :=
  if part = "" ∨ part = "." then here
  else if part = ".." then here.dropLast
  else here ++ [part]

/-- Where a path is followed from. -/
def Path.start (cwd : Location) (p : Path) : Location := if p.absolute then [] else cwd

/-- Where the components of a path lead from the working directory `cwd`. -/
def place (cwd : Location) (p : Path) : Location := p.parts.foldl follow (p.start cwd)

section Walk

variable (isDirectory : Location → Bool)

/-- Follow components one after the other, each from a directory. -/
def walk : Location → List String → Option Location
  | here, [] => some here
  | here, part :: rest => if isDirectory here then walk (follow here part) rest else none

/-- The location a path denotes. -/
def resolve (cwd : Location) (p : Path) : Option Location :=
  walk isDirectory (p.start cwd) p.parts

variable {isDirectory} {here : Location} {parts : List String} {cwd : Location} {p : Path}

theorem eq_foldl_of_walk {there : Location} (walked : walk isDirectory here parts = some there) :
    there = parts.foldl follow here := by
  induction parts generalizing here with
  | nil => exact (Option.some.inj walked).symm
  | cons part rest ih =>
      unfold walk at walked
      split at walked
      · exact ih walked
      · cases walked

theorem eq_place_of_resolve {there : Location}
    (resolved : resolve isDirectory cwd p = some there) : there = place cwd p :=
  eq_foldl_of_walk resolved

theorem resolve_absolute (absolute : p.absolute = true) (other : Location) :
    resolve isDirectory cwd p = resolve isDirectory other p := by
  simp [resolve, Path.start, absolute]

end Walk

/-- A path as steps up and then names. -/
structure Climb where
  up : Nat
  names : List String
  deriving DecidableEq, Repr

namespace Climb

/-- The location reached from `here`. -/
def from_ (c : Climb) (here : Location) : Location := here.rdrop c.up ++ c.names

def follow (c : Climb) (part : String) : Climb :=
  if part = "" ∨ part = "." then c
  else if part = ".." then
    match c.names with
    | [] => { c with up := c.up + 1 }
    | _ :: _ => { c with names := c.names.dropLast }
  else { c with names := c.names ++ [part] }

end Climb

/-- The climb of a list of components. -/
def climb (parts : List String) : Climb := parts.foldl Climb.follow { up := 0, names := [] }

theorem rdrop_succ (here : Location) (n : Nat) :
    (here.rdrop n).dropLast = here.rdrop (n + 1) := by
  simp only [List.rdrop, List.dropLast_eq_take, List.length_take, List.take_take]
  congr 1
  omega

theorem follow_from (c : Climb) (here : Location) (part : String) :
    PathResolution.follow (c.from_ here) part = (c.follow part).from_ here := by
  unfold PathResolution.follow Climb.follow
  split
  · rfl
  · split
    · cases names : c.names with
      | nil => simp [Climb.from_, names, rdrop_succ]
      | cons name rest =>
          have nonempty : c.names ≠ [] := by simp [names]
          simp only [Climb.from_]
          rw [List.dropLast_append_of_ne_nil nonempty, names]
    · simp [Climb.from_]

theorem foldl_follow_from (parts : List String) (c : Climb) (here : Location) :
    parts.foldl PathResolution.follow (c.from_ here) =
      (parts.foldl Climb.follow c).from_ here := by
  induction parts generalizing c with
  | nil => rfl
  | cons part rest ih =>
      simp only [List.foldl_cons, follow_from]
      exact ih (c.follow part)

/-- **A relative path is its climb.** -/
theorem place_eq {p : Path} (relative : p.absolute = false) (cwd : Location) :
    place cwd p = (climb p.parts).from_ cwd := by
  have start : ({ up := 0, names := [] } : Climb).from_ cwd = cwd := by
    simp [Climb.from_]
  have folded := foldl_follow_from p.parts { up := 0, names := [] } cwd
  rw [start] at folded
  simpa [place, Path.start, relative, climb] using folded

/-- A relative path leads from the root where it leads from `cwd` when it climbs high
enough. -/
theorem place_from_root_iff {p : Path} (relative : p.absolute = false) (cwd : Location) :
    place [] p = place cwd p ↔ cwd.length ≤ (climb p.parts).up := by
  rw [place_eq relative, place_eq relative]
  simp only [Climb.from_, List.append_left_inj]
  rw [List.rdrop, List.rdrop]
  simp only [List.take_nil]
  rw [eq_comm, List.take_eq_nil_iff]
  constructor
  · rintro (none_ | empty)
    · omega
    · simp [empty]
  · intro enough
    exact Or.inl (by omega)

/-- **When a path keeps its meaning as the working directory becomes the root.** -/
theorem resolve_from_root_iff {isDirectory : Location → Bool} {cwd there : Location} {p : Path}
    (resolved : resolve isDirectory cwd p = some there) :
    resolve isDirectory [] p = some there ↔
      p.absolute = true ∨
        cwd.length ≤ (climb p.parts).up ∧ (walk isDirectory [] p.parts).isSome = true := by
  cases absolute : p.absolute with
  | true =>
      rw [resolve_absolute absolute cwd, resolved]
      simp
  | false =>
      have fromRoot : resolve isDirectory [] p = walk isDirectory [] p.parts := by
        simp [resolve, Path.start]
      rw [eq_place_of_resolve resolved, ← place_from_root_iff absolute, ← fromRoot]
      simp only [Bool.false_eq_true, false_or]
      constructor
      · intro same
        exact ⟨(eq_place_of_resolve same).symm, by simp [same]⟩
      · rintro ⟨same, found⟩
        obtain ⟨other, resolved'⟩ := Option.isSome_iff_exists.mp found
        rw [resolved', ← same, eq_place_of_resolve resolved']

-- A name that is not there cannot be climbed back from.
example : place ["srv"] (.relative ["sub", "..", "lynx.toml"]) = ["srv", "lynx.toml"] ∧
    resolve (fun location => decide (location = ["srv"])) ["srv"]
      (.relative ["sub", "..", "lynx.toml"]) = none := by decide

end Lynx.Theory.PathResolution
