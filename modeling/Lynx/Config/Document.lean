/-
# Config.Document — TOML documents and the five settings

`Toml` is `toml::value`.  A table is an `unordered_map`, so the order of its
entries means nothing: `Toml.Same` is the equality of documents that ignores it.
A value below a document is named by its path of keys, read by `find` and written
by `setAt`, which is a chain of `operator[]` ending in an assignment: it creates
the tables that are missing and throws (`none`) at a value that is not a table.

The settings of lynx live twice: in `ConfigData` and, after
`Config::override_toml`, in the document.  `Holds data root` says that the
document has the values of `data`; `overrideToml_holds`,
`overrideToml_unrelated` and `overrideToml_of_holds` are all the rest of the
development uses of `overrideToml`.
-/
import Lynx.Theory.AssocMap
import Mathlib.Data.List.Infix

namespace Lynx.Config

open Lynx.Theory

set_option autoImplicit false

/-- An IEEE double by its bits.  No arithmetic is done on one. -/
structure Double where
  bits : UInt64
  deriving DecidableEq, Repr

/-- `toml::value`; the four date and time types are one, by their text. -/
inductive Toml where
  | empty
  | boolean (b : Bool)
  | integer (n : Int)
  | floating (d : Double)
  | string (s : String)
  | datetime (text : String)
  | array (items : List Toml)
  | table (entries : List (String × Toml))

namespace Toml

/-- The value at `k`, when this is a table that has one. -/
def get (v : Toml) (k : String) : Option Toml :=
  match v with
  | .table entries => entries.lookup k
  | _ => none

/-- The entries `operator[]` works on: an empty value becomes a table, any other
value that is not a table throws. -/
def entries? : Toml → Option (List (String × Toml))
  | .empty => some []
  | .table entries => some entries
  | _ => none

/-- The value at a path of keys. -/
def find : Toml → List String → Option Toml
  | v, [] => some v
  | v, k :: rest => (v.get k).bind fun child => child.find rest

/-- `v[k₁][k₂]… = x`. -/
def setAt : Toml → List String → Toml → Option Toml
  | _, [], x => some x
  | v, k :: rest, x => do
      let entries ← v.entries?
      let child ← ((entries.lookup k).getD .empty).setAt rest x
      some (.table (AssocMap.insert k child entries))

/-- Assignments one after the other; the first that throws ends them. -/
def setAll (root : Toml) : List (List String × Toml) → Option Toml
  | [] => some root
  | (path, x) :: rest => (root.setAt path x).bind fun next => next.setAll rest

/-- The same document: equal values, arrays item by item, tables key by key. -/
inductive Same : Toml → Toml → Prop where
  | refl (v : Toml) : Same v v
  | array {xs ys : List Toml} : List.Forall₂ Same xs ys → Same (.array xs) (.array ys)
  | table {xs ys : List (String × Toml)} :
      (∀ k, Option.Rel Same (xs.lookup k) (ys.lookup k)) → Same (.table xs) (.table ys)

/-- A value with nothing below it. -/
def isScalar : Toml → Bool
  | .array _ => false
  | .table _ => false
  | _ => true

@[simp] theorem get_table (entries : List (String × Toml)) (k : String) :
    (table entries).get k = entries.lookup k := rfl


@[simp] theorem find_cons (v : Toml) (k : String) (rest : List String) :
    v.find (k :: rest) = (v.get k).bind fun child => child.find rest := rfl

/-! ## Reading after writing -/

/-- A value that is missing reads as an empty one. -/
theorem find_getD_empty (child : Option Toml) {path : List String} (below : path ≠ []) :
    (child.getD .empty).find path = child.bind fun v => v.find path := by
  cases child with
  | some v => rfl
  | none =>
      cases path with
      | nil => exact absurd rfl below
      | cons k rest => rfl

theorem entries?_lookup {v : Toml} {entries : List (String × Toml)}
    (opened : v.entries? = some entries) (k : String) : entries.lookup k = v.get k := by
  cases v with
  | empty => obtain rfl : [] = entries := by simpa [entries?] using opened
             rfl
  | table own => obtain rfl : own = entries := by simpa [entries?] using opened
                 rfl
  | _ => cases opened

theorem setAt_cons_eq_some {x v w : Toml} {k : String} {rest : List String}
    (done : v.setAt (k :: rest) x = some w) :
    ∃ entries child, v.entries? = some entries ∧
      ((v.get k).getD .empty).setAt rest x = some child ∧
      w = .table (AssocMap.insert k child entries) := by
  unfold setAt at done
  obtain ⟨entries, opened, done⟩ := Option.bind_eq_some_iff.mp done
  obtain ⟨child, below, done⟩ := Option.bind_eq_some_iff.mp done
  rw [entries?_lookup opened] at below
  exact ⟨entries, child, opened, below, (Option.some.inj done).symm⟩

theorem find_setAt {x : Toml} {path : List String} {v w : Toml}
    (done : v.setAt path x = some w) : w.find path = some x := by
  induction path generalizing v w with
  | nil => obtain rfl : x = w := by simpa [setAt] using done
           rfl
  | cons k rest ih =>
      obtain ⟨entries, child, -, below, rfl⟩ := setAt_cons_eq_some done
      simpa using ih below

/-- Neither path leads through the other. -/
def Diverges (p q : List String) : Prop := ¬ p <+: q ∧ ¬ q <+: p

instance (p q : List String) : Decidable (Diverges p q) :=
  inferInstanceAs (Decidable (_ ∧ _))

theorem Diverges.symm {p q : List String} (apart : Diverges p q) : Diverges q p :=
  ⟨apart.2, apart.1⟩

theorem find_setAt_of_diverges {x : Toml} {path other : List String} {v w : Toml}
    (done : v.setAt path x = some w) (apart : Diverges path other) :
    w.find other = v.find other := by
  induction path generalizing v w other with
  | nil => exact absurd (List.nil_prefix) apart.1
  | cons k rest ih =>
      obtain ⟨entries, child, opened, below, rfl⟩ := setAt_cons_eq_some done
      cases other with
      | nil => exact absurd (List.nil_prefix) apart.2
      | cons j more =>
          by_cases same : j = k
          · subst same
            have apartBelow : Diverges rest more := by
              simpa [Diverges, List.cons_prefix_cons] using apart
            have deeper : more ≠ [] := by
              rintro rfl
              exact apartBelow.2 List.nil_prefix
            have kept := ih below apartBelow
            rw [find_getD_empty _ deeper] at kept
            simpa using kept
          · simp [AssocMap.lookup_insert_ne same, entries?_lookup opened]

/-- Assigning the value that is there changes nothing. -/
theorem setAt_of_find {x : Toml} {path : List String} {v : Toml}
    (present : v.find path = some x) : v.setAt path x = some v := by
  induction path generalizing v with
  | nil => obtain rfl : v = x := by simpa [find] using present
           rfl
  | cons k rest ih =>
      obtain ⟨child, got, below⟩ := Option.bind_eq_some_iff.mp present
      cases v with
      | table entries =>
          have found : entries.lookup k = some child := got
          simp [setAt, entries?, found, ih below, AssocMap.insert_of_lookup found]
      | _ => cases got

theorem setAll_cons_eq_some {v w x : Toml} {path : List String}
    {rest : List (List String × Toml)} (done : v.setAll ((path, x) :: rest) = some w) :
    ∃ next, v.setAt path x = some next ∧ next.setAll rest = some w :=
  Option.bind_eq_some_iff.mp done

theorem find_setAll_of_diverges {assignments : List (List String × Toml)} {other : List String}
    {v w : Toml} (apart : ∀ a ∈ assignments, Diverges a.1 other)
    (done : v.setAll assignments = some w) : w.find other = v.find other := by
  induction assignments generalizing v with
  | nil => obtain rfl : v = w := by simpa [setAll] using done
           rfl
  | cons a rest ih =>
      obtain ⟨next, first, later⟩ := setAll_cons_eq_some done
      rw [ih (fun b member => apart b (List.mem_cons_of_mem a member)) later]
      exact find_setAt_of_diverges first (apart a List.mem_cons_self)

/-- Assignments to paths apart from each other all hold at the end. -/
theorem find_setAll {assignments : List (List String × Toml)} {v w : Toml}
    (apart : assignments.Pairwise fun a b => Diverges a.1 b.1)
    (done : v.setAll assignments = some w) : ∀ a ∈ assignments, w.find a.1 = some a.2 := by
  induction assignments generalizing v with
  | nil => simp
  | cons a rest ih =>
      obtain ⟨next, first, later⟩ := setAll_cons_eq_some done
      obtain ⟨fromFirst, inRest⟩ := List.pairwise_cons.mp apart
      intro b member
      rcases List.mem_cons.mp member with rfl | inLater
      · rw [find_setAll_of_diverges (fun c inTail => (fromFirst c inTail).symm) later]
        exact find_setAt first
      · exact ih inRest later b inLater

theorem setAll_of_find {assignments : List (List String × Toml)} {v : Toml}
    (present : ∀ a ∈ assignments, v.find a.1 = some a.2) : v.setAll assignments = some v := by
  induction assignments with
  | nil => rfl
  | cons a rest ih =>
      have first : v.setAt a.1 a.2 = some v := setAt_of_find (present a List.mem_cons_self)
      have later : v.setAll rest = some v :=
        ih fun b member => present b (List.mem_cons_of_mem a member)
      simp [setAll, first, later]

/-! ## The same document -/

theorem Same.get {v w : Toml} (same : Same v w) (k : String) :
    Option.Rel Same (v.get k) (w.get k) := by
  cases same with
  | refl =>
      cases v.get k with
      | none => exact .none
      | some child => exact .some (.refl child)
  | array _ => exact .none
  | table keys => exact keys k

theorem Same.find {v w : Toml} (same : Same v w) (path : List String) :
    Option.Rel Same (v.find path) (w.find path) := by
  induction path generalizing v w with
  | nil => exact .some same
  | cons k rest ih =>
      rw [find_cons, find_cons]
      have children := same.get k
      revert children
      cases v.get k <;> cases w.get k <;> intro children <;> cases children
      · exact .none
      · rename_i child
        exact ih child

theorem Same.eq_of_isScalar {v w : Toml} (same : Same v w) (scalar : v.isScalar = true) :
    w = v := by
  cases same with
  | refl => rfl
  | array _ => cases scalar
  | table _ => cases scalar

/-- The same document has the same values. -/
theorem Same.find_of_isScalar {v w x : Toml} (same : Same v w) {path : List String}
    (found : v.find path = some x) (scalar : x.isScalar = true) : w.find path = some x := by
  have values := same.find path
  rw [found] at values
  cases other : w.find path with
  | none => rw [other] at values
            cases values
  | some y =>
      rw [other] at values
      cases values with
      | some alike => rw [alike.eq_of_isScalar scalar]

end Toml

/-! ## The settings -/

/-- `ConfigData::Sub`. -/
structure Sub where
  sub : Bool := false
  deriving DecidableEq, Repr

/-- `ConfigData` with its defaults; `pi` is the double nearest 3.1415. -/
structure ConfigData where
  dae : Bool := false
  port : Int := 0
  env : String := ""
  pi : Double := ⟨0x400921cac083126f⟩
  sub : Sub := {}
  deriving DecidableEq, Repr

/-- The assignments of `override_toml`, in order. -/
def ConfigData.settings (data : ConfigData) : List (List String × Toml) :=
  [(["pi"], .floating data.pi),
    (["port"], .integer data.port),
    (["env"], .string data.env),
    (["dae"], .boolean data.dae),
    (["sub", "sub"], .boolean data.sub.sub)]

/-- `Config::override_toml`. -/
def overrideToml (data : ConfigData) (root : Toml) : Option Toml :=
  root.setAll data.settings

/-- The document has the values of `data`. -/
def Holds (data : ConfigData) (root : Toml) : Prop :=
  ∀ setting ∈ data.settings, root.find setting.1 = some setting.2

/-- The paths of the settings. -/
def settingPaths : List (List String) := [["pi"], ["port"], ["env"], ["dae"], ["sub", "sub"]]

/-- A path apart from all settings: another key of the document, or another key
inside `[sub]`. -/
def Unrelated (path : List String) : Prop := ∀ setting ∈ settingPaths, Toml.Diverges setting path

instance (path : List String) : Decidable (Unrelated path) :=
  inferInstanceAs (Decidable (∀ setting ∈ settingPaths, Toml.Diverges setting path))

theorem settings_paths (data : ConfigData) : data.settings.map (·.1) = settingPaths := rfl

theorem settings_diverge (data : ConfigData) :
    data.settings.Pairwise fun a b => Toml.Diverges a.1 b.1 := by
  have paths : settingPaths.Pairwise Toml.Diverges := by decide
  rw [← settings_paths data] at paths
  exact List.pairwise_map.mp paths

theorem isScalar_of_settings {data : ConfigData} {setting : List String × Toml}
    (member : setting ∈ data.settings) : setting.2.isScalar = true := by
  simp only [ConfigData.settings, List.mem_cons, List.not_mem_nil, or_false] at member
  rcases member with rfl | rfl | rfl | rfl | rfl <;> rfl

/-- **After `override_toml` the document has the values of `data`.** -/
theorem overrideToml_holds {data : ConfigData} {root out : Toml}
    (done : overrideToml data root = some out) : Holds data out :=
  Toml.find_setAll (settings_diverge data) done

theorem overrideToml_unrelated {data : ConfigData} {root out : Toml}
    (done : overrideToml data root = some out) {path : List String} (unrelated : Unrelated path) :
    out.find path = root.find path := by
  refine Toml.find_setAll_of_diverges (fun setting member => ?_) done
  apply unrelated
  rw [← settings_paths data]
  exact List.mem_map_of_mem member

theorem overrideToml_of_holds {data : ConfigData} {root : Toml} (holds : Holds data root) :
    overrideToml data root = some root :=
  Toml.setAll_of_find holds

theorem Holds.same {data : ConfigData} {root other : Toml} (holds : Holds data root)
    (same : Toml.Same root other) : Holds data other := fun setting member =>
  same.find_of_isScalar (holds setting member) (isScalar_of_settings member)

/-- A document has the values of one `ConfigData` only. -/
theorem Holds.unique {data other : ConfigData} {root : Toml} (holds : Holds data root)
    (also : Holds other root) : other = data := by
  simp only [Holds, ConfigData.settings, List.forall_mem_cons] at holds also
  obtain ⟨pi, port, env, dae, sub, -⟩ := holds
  obtain ⟨pi', port', env', dae', sub', -⟩ := also
  rw [pi] at pi'
  rw [port] at port'
  rw [env] at env'
  rw [dae] at dae'
  rw [sub] at sub'
  obtain ⟨_, _, _, _, ⟨_⟩⟩ := data
  obtain ⟨_, _, _, _, ⟨_⟩⟩ := other
  simp_all

end Lynx.Config
