/-
# Cli.Completion — what the tab key offers

A completion is the path of some menus and the name of a command below them, with a
space between the words.  The line is read greedily: a menu whose name the line
begins with takes the name off and looks at the rest, so the recursion ends because
the line gets shorter; the fuel is the length of the line (`helper_fuel`).

`Leads` says which words lead to a command.  `offers_of_mem` is what a completion is:
it leads to a command, and but for spaces it only adds to what was typed.
`commonPrefix_iff` is the rule of the part that several completions share.
-/
import Lynx.Cli.Menu
import Lynx.Cli.Split

namespace Lynx.Cli

open Lynx.Cli.Split (Bare Written isBlank split split_of_written)

set_option autoImplicit false

universe u v

/-! ## `CommonPrefix` -/

/-- The first of the shortest texts: `std::min_element` by size. -/
def shortest : Text → List Text → Text
  | best, [] => best
  | best, x :: rest => shortest (if x.length < best.length then x else best) rest

/-- The loop of `CommonPrefix` from index `i` on, over the rest of the shortest text. -/
def commonFrom (v : List Text) (i : Nat) : Text → Text
  | [] => []
  | c :: rest => if v.all fun x => x[i]? == some c then c :: commonFrom v (i + 1) rest else []

/-- `CommonPrefix`, of a list that is not empty. -/
def commonPrefix : List Text → Text
  | [] => []
  | first :: rest => commonFrom (first :: rest) 0 (shortest first rest)

theorem shortest_mem (best : Text) (rest : List Text) : shortest best rest ∈ best :: rest := by
  induction rest generalizing best with
  | nil => simp [shortest]
  | cons y rest ih =>
      simp only [shortest]
      rcases List.mem_cons.mp (ih (if y.length < best.length then y else best)) with same | later
      · rw [same]
        split <;> simp
      · simp [later]

/-- What the loop keeps: it goes on as long as the character is that of every text. -/
theorem isPrefix_commonFrom_iff (v : List Text) (i : Nat) (s p : Text) :
    p <+: commonFrom v i s ↔ p <+: s ∧ ∀ x ∈ v, p <+: x.drop i := by
  induction s generalizing i p with
  | nil =>
      simp only [commonFrom, List.prefix_nil]
      constructor
      · rintro rfl
        exact ⟨rfl, fun _ _ => List.nil_prefix⟩
      · exact fun h => h.1
  | cons c rest ih =>
      cases p with
      | nil => simp
      | cons d p =>
          simp only [commonFrom]
          have drop (x : Text) : (d :: p <+: x.drop i) ↔ x[i]? = some d ∧ p <+: x.drop (i + 1) := by
            by_cases inside : i < x.length
            · rw [List.drop_eq_getElem_cons inside, List.cons_prefix_cons]
              simp [inside, eq_comm]
            · rw [List.drop_eq_nil_of_le (by omega), List.getElem?_eq_none (by omega)]
              simp
          split
          · rename_i all
            have each := List.all_eq_true.mp all
            simp only [beq_iff_eq] at each
            rw [List.cons_prefix_cons, List.cons_prefix_cons, ih]
            constructor
            · rintro ⟨rfl, inRest, inAll⟩
              exact ⟨⟨rfl, inRest⟩, fun x member => (drop x).mpr ⟨each x member, inAll x member⟩⟩
            · rintro ⟨⟨rfl, inRest⟩, inAll⟩
              exact ⟨rfl, inRest, fun x member => ((drop x).mp (inAll x member)).2⟩
          · rename_i notAll
            constructor
            · intro h
              simp at h
            · rintro ⟨inRest, inAll⟩
              exfalso
              apply notAll
              obtain ⟨rfl, -⟩ := List.cons_prefix_cons.mp inRest
              exact List.all_eq_true.mpr fun x member =>
                beq_iff_eq.mpr ((drop x).mp (inAll x member)).1

/-- **`CommonPrefix`** is the longest text with which all texts begin. -/
theorem commonPrefix_iff {v : List Text} (some' : v ≠ []) (p : Text) :
    p <+: commonPrefix v ↔ ∀ x ∈ v, p <+: x := by
  cases v with
  | nil => exact absurd rfl some'
  | cons first rest =>
      have member := shortest_mem first rest
      simp only [commonPrefix, isPrefix_commonFrom_iff, List.drop_zero]
      exact ⟨fun h => h.2, fun all => ⟨all _ member, all⟩⟩

/-! ## The completions of a line -/

/-- `Command::GetCompletionRecursive`. -/
def ownCompletion (enabled : Bool) (name line : Text) : List Text :=
  if enabled && startsWith name line then [name] else []

namespace Menus

variable {ι : Type u} {H : Type v} (menus : Menus ι H)

/-- `Command::GetCompletionRecursive` and `Menu::GetCompletionRecursive`; `helper` is
the call of `GetCompletionRecursiveHelper`. -/
def recursive (helper : ι → Text → Text → List Text) (line : Text) : Command ι H → List Text
  | .function f => ownCompletion f.enabled f.name line
  | .menu n =>
      if startsWith line (menus n).name then helper n line (menus n).name
      else ownCompletion (menus n).enabled (menus n).name line

/-- `Menu::GetCompletionWithParent`, likewise. -/
def withParent (helper : ι → Text → Text → List Text) (line : Text) (p : ι) : List Text :=
  if startsWith line (menus p).name then helper p line (menus p).name
  else if startsWith line parentShortcut then helper p line parentShortcut
  else ownCompletion (menus p).enabled (menus p).name line

/-- The completions by the commands of a menu, then by its parent. -/
def completions (helper : ι → Text → Text → List Text) (line : Text) (m : ι) : List Text :=
  (menus m).cmds.flatMap (menus.recursive helper line) ++
    (menus m).parent.toList.flatMap (menus.withParent helper line)

/-- `Menu::GetCompletionRecursiveHelper`, to a depth of `fuel`. -/
def completionHelper : Nat → ι → Text → Text → List Text
  | 0, _, _, _ => []
  | fuel + 1, m, line, name =>
      (menus.completions (completionHelper fuel) (trimLeft (line.drop name.length)) m).map
        fun c => name ++ 32 :: c

/-- `Menu::GetCompletions`. -/
def getCompletions (m : ι) (currentLine : Text) : List Text :=
  menus.completions (menus.completionHelper (currentLine.length + 1)) currentLine m

/-! ## The fuel is enough -/

variable {menus}

theorem length_rest {line name : Text} (starts : startsWith line name = true) (some' : name ≠ []) :
    (trimLeft (line.drop name.length)).length < line.length := by
  have short := length_trimLeft_le (line.drop name.length)
  have inside := (startsWith_iff.mp starts).length_le
  have least := List.length_pos_iff.mpr some'
  rw [List.length_drop] at short
  omega

/-- The completions of a line ask the helper only about the line and names it begins
with. -/
theorem completions_congr (named : ∀ m, (menus m).name ≠ [])
    {first second : ι → Text → Text → List Text} {line : Text}
    (same : ∀ m name, name ≠ [] → startsWith line name = true →
      first m line name = second m line name) (m : ι) :
    menus.completions first line m = menus.completions second line m := by
  have recursives (cmd : Command ι H) :
      menus.recursive first line cmd = menus.recursive second line cmd := by
    cases cmd with
    | function f => rfl
    | menu n =>
        simp only [recursive]
        split
        · rename_i starts
          exact same n _ (named n) starts
        · rfl
  have withParents (p : ι) : menus.withParent first line p = menus.withParent second line p := by
    simp only [withParent]
    split
    · rename_i starts
      exact same p _ (named p) starts
    · split
      · rename_i starts
        exact same p _ (by decide) starts
      · rfl
  simp only [completions, funext recursives, funext withParents]

/-- **The fuel is enough**: more of it than the line is long changes nothing. -/
theorem completionHelper_fuel (named : ∀ m, (menus m).name ≠ []) {first second : Nat} {m : ι}
    {line name : Text} (some' : name ≠ []) (starts : startsWith line name = true)
    (enough : line.length < first) (enough' : line.length < second) :
    menus.completionHelper first m line name = menus.completionHelper second m line name := by
  induction first generalizing second m line name with
  | zero => omega
  | succ first ih =>
      cases second with
      | zero => omega
      | succ second =>
          have shorter := length_rest starts some'
          have same : menus.completions (menus.completionHelper first)
                (trimLeft (line.drop name.length)) m =
              menus.completions (menus.completionHelper second)
                (trimLeft (line.drop name.length)) m :=
            completions_congr named
              (fun k other some'' starts' => ih some'' starts' (by omega) (by omega)) m
          simp only [completionHelper, same]

/-! ## What a completion is -/

/-- The words that lead from a menu to a command. -/
inductive Leads (menus : Menus ι H) : ι → List Text → Prop where
  | function {m : ι} {f : Function H} (inside : .function f ∈ (menus m).cmds)
      (enabled : f.enabled = true) : Leads menus m [f.name]
  | menu {m n : ι} (inside : .menu n ∈ (menus m).cmds) (enabled : (menus n).enabled = true) :
      Leads menus m [(menus n).name]
  | parent {m p : ι} (up : (menus m).parent = some p) (enabled : (menus p).enabled = true) :
      Leads menus m [(menus p).name]
  | into {m n : ι} {words : List Text} (inside : .menu n ∈ (menus m).cmds)
      (leads : Leads menus n words) : Leads menus m ((menus n).name :: words)
  | up {m p : ι} {word : Text} {words : List Text} (up : (menus m).parent = some p)
      (named : word ∈ [(menus p).name, parentShortcut]) (leads : Leads menus p words) :
      Leads menus m (word :: words)

/-- The words with a space between two of them. -/
def join : List Text → Text
  | [] => []
  | [word] => word
  | word :: words => word ++ 32 :: join words

theorem join_cons {word : Text} {words : List Text} (more : words ≠ []) :
    join (word :: words) = word ++ 32 :: join words := by
  cases words with
  | nil => exact absurd rfl more
  | cons next words => rfl

theorem Leads.ne_nil {m : ι} {words : List Text} (leads : Leads menus m words) : words ≠ [] := by
  cases leads <;> simp

theorem mem_ownCompletion {enabled : Bool} {name line c : Text} :
    c ∈ ownCompletion enabled name line ↔ enabled = true ∧ line <+: name ∧ c = name := by
  unfold ownCompletion
  split
  · rename_i both
    obtain ⟨on, starts⟩ := Bool.and_eq_true_iff.mp both
    simp [on, startsWith_iff.mp starts]
  · rename_i notBoth
    simp only [List.not_mem_nil, false_iff, not_and]
    rintro on starts
    exact absurd (by simp [on, startsWith_iff.mpr starts]) notBoth

/-- What is not a space. -/
def unspaced (t : Text) : Text := t.filter fun c => !isspace c

/-- A completion leads to a command, and but for spaces it adds to the line. -/
def Offers (menus : Menus ι H) (m : ι) (line c : Text) : Prop :=
  ∃ words, Leads menus m words ∧ c = join words ∧ unspaced line <+: unspaced c

theorem unspaced_append (first second : Text) :
    unspaced (first ++ second) = unspaced first ++ unspaced second := List.filter_append ..

theorem unspaced_trimLeft (t : Text) : unspaced (trimLeft t) = unspaced t := by
  induction t with
  | nil => rfl
  | cons c rest ih =>
      by_cases space : isspace c = true
      · simpa [unspaced, trimLeft, space] using ih
      · simp [trimLeft, space]

/-- What the helper gives for a menu: a way from that menu, after its name. -/
def Below (menus : Menus ι H) (helper : ι → Text → Text → List Text) (line : Text) : Prop :=
  ∀ n name c, startsWith line name = true → c ∈ helper n line name →
    ∃ words, Leads menus n words ∧ c = name ++ 32 :: join words ∧ unspaced line <+: unspaced c

theorem mem_completions {helper : ι → Text → Text → List Text} {line c : Text} {m : ι}
    (below : Below menus helper line) (member : c ∈ menus.completions helper line m) :
    Offers menus m line c := by
  rcases List.mem_append.mp member with own | up
  · obtain ⟨cmd, inside, offered⟩ := List.mem_flatMap.mp own
    cases cmd with
    | function f =>
        obtain ⟨enabled, starts, rfl⟩ := mem_ownCompletion.mp offered
        exact ⟨[f.name], .function inside enabled, rfl, starts.filter _⟩
    | menu n =>
        simp only [recursive] at offered
        split at offered
        · rename_i starts
          obtain ⟨words, leads, rfl, adds⟩ := below n _ c starts offered
          exact ⟨_, .into inside leads, (join_cons leads.ne_nil).symm, adds⟩
        · obtain ⟨enabled, starts, rfl⟩ := mem_ownCompletion.mp offered
          exact ⟨[(menus n).name], .menu inside enabled, rfl, starts.filter _⟩
  · obtain ⟨p, parent, offered⟩ := List.mem_flatMap.mp up
    have isParent : (menus m).parent = some p := by simpa using parent
    simp only [withParent] at offered
    split at offered
    · rename_i starts
      obtain ⟨words, leads, rfl, adds⟩ := below p _ c starts offered
      exact ⟨_, .up isParent (by simp) leads, (join_cons leads.ne_nil).symm, adds⟩
    · split at offered
      · rename_i starts
        obtain ⟨words, leads, rfl, adds⟩ := below p _ c starts offered
        exact ⟨_, .up isParent (by simp) leads, (join_cons leads.ne_nil).symm, adds⟩
      · obtain ⟨enabled, starts, rfl⟩ := mem_ownCompletion.mp offered
        exact ⟨[(menus p).name], .parent isParent enabled, rfl, starts.filter _⟩

theorem below_completionHelper (fuel : Nat) (line : Text) :
    Below menus (menus.completionHelper fuel) line := by
  induction fuel generalizing line with
  | zero =>
      intro n name c _ member
      simp [completionHelper] at member
  | succ fuel ih =>
      intro n name c starts member
      obtain ⟨c', inside, rfl⟩ := List.mem_map.mp member
      obtain ⟨words, leads, rfl, adds⟩ := mem_completions (ih _) inside
      refine ⟨words, leads, rfl, ?_⟩
      obtain ⟨rest, rfl⟩ := startsWith_iff.mp starts
      have blank (t : Text) : unspaced (32 :: t) = unspaced t := rfl
      rw [List.drop_left, unspaced_trimLeft] at adds
      rw [unspaced_append, unspaced_append, blank]
      exact List.prefix_append_right_inj _ |>.mpr adds

/-- **Every completion leads to a command**, and but for spaces it only adds to what
was typed. -/
theorem offers_of_mem {m : ι} {line c : Text} (member : c ∈ menus.getCompletions m line) :
    Offers menus m line c :=
  mem_completions (below_completionHelper _ line) member

/-- The names of menus and commands are texts of cells. -/
structure PrintableNames (menus : Menus ι H) : Prop where
  menu : ∀ m, Printable (menus m).name
  function : ∀ m f, .function f ∈ (menus m).cmds → Printable f.name

theorem Leads.printable (names : PrintableNames menus) {m : ι} {words : List Text}
    (leads : Leads menus m words) : Printable (join words) := by
  induction leads with
  | function inside _ => exact names.function _ _ inside
  | menu _ _ => exact names.menu _
  | parent _ _ => exact names.menu _
  | into _ leads ih =>
      rw [join_cons leads.ne_nil]
      exact printable_append.mpr ⟨names.menu _, List.forall_mem_cons.mpr ⟨by decide, ih⟩⟩
  | @up m p word words _ named leads ih =>
      have printable : Printable word := by
        rcases List.mem_cons.mp named with rfl | shortcut
        · exact names.menu p
        · rw [List.mem_singleton.mp shortcut]
          decide
      rw [join_cons leads.ne_nil]
      exact printable_append.mpr ⟨printable, List.forall_mem_cons.mpr ⟨by decide, ih⟩⟩

theorem printable_of_mem (names : PrintableNames menus) {m : ι} {line c : Text}
    (member : c ∈ menus.getCompletions m line) : Printable c := by
  obtain ⟨words, leads, rfl, -⟩ := offers_of_mem member
  exact leads.printable names

/-- The names of menus and commands are bare words. -/
structure BareNames (menus : Menus ι H) : Prop where
  menu : ∀ m, Bare (menus m).name
  function : ∀ m f, .function f ∈ (menus m).cmds → Bare f.name

/-- What holds of the names holds of the words. -/
theorem Leads.each {p : Text → Prop} (menu : ∀ m, p (menus m).name)
    (function : ∀ m f, .function f ∈ (menus m).cmds → p f.name) (shortcut : p parentShortcut)
    {m : ι} {words : List Text} (leads : Leads menus m words) : ∀ word ∈ words, p word := by
  induction leads with
  | function inside _ => simpa using function _ _ inside
  | menu _ _ => simpa using menu _
  | parent _ _ => simpa using menu _
  | into _ _ ih => exact List.forall_mem_cons.mpr ⟨menu _, ih⟩
  | @up m q word words _ named _ ih =>
      refine List.forall_mem_cons.mpr ⟨?_, ih⟩
      rcases List.mem_cons.mp named with rfl | up
      · exact menu q
      · rw [List.mem_singleton.mp up]
        exact shortcut

theorem Leads.bare (names : BareNames menus) {m : ι} {words : List Text}
    (leads : Leads menus m words) : ∀ word ∈ words, Bare word :=
  leads.each names.menu names.function (by decide)

theorem written_join {words : List Text} (all : ∀ word ∈ words, Bare word) :
    Written words (join words) := by
  induction words with
  | nil => exact .nil
  | cons word words ih =>
      obtain ⟨bare, rest⟩ := List.forall_mem_cons.mp all
      cases words with
      | nil => simpa [join] using Written.bare_cons bare (by simp) .nil
      | cons next words =>
          rw [join_cons (by simp)]
          exact Written.bare_cons bare (by simp [isBlank]) (.blank 32 rfl (ih rest))

/-- A line splits into the words of which it was made. -/
theorem split_join {words : List Text} (all : ∀ word ∈ words, Bare word) :
    split (join words) = words := by
  rw [split_of_written (written_join all), List.filter_eq_self]
  exact fun word member => by simp [(all word member).1]

/-- The last word names a command of a menu, or enters a menu from it. -/
def Names (menus : Menus ι H) (n : ι) (name : Text) : Prop :=
  (∃ f, .function f ∈ (menus n).cmds ∧ f.enabled = true ∧ f.name = name) ∨
    ∃ k, menus.scanCmds n [name] = some (.enter k)

section Dispatch

variable (distinct : menus.Distinct) (enabled : ∀ m, (menus m).enabled = true)
include distinct enabled

theorem enter_child {m n : ι} (inside : .menu n ∈ (menus m).cmds) :
    menus.scanCmds m [(menus n).name] = some (.enter n) := by
  have member : n ∈ menus.answering m (menus n).name :=
    List.mem_append_left _ (List.mem_filterMap.mpr ⟨.menu n, inside, by simp [enabled n]⟩)
  exact scanCmds_of_mem_answering distinct (enabled m) member []

theorem enter_parent {m p : ι} {word : Text} (up : (menus m).parent = some p)
    (named : word ∈ [(menus p).name, parentShortcut]) :
    menus.scanCmds m [word] = some (.enter p) := by
  have member : p ∈ menus.answering m word := by
    refine List.mem_append_right _ (List.mem_filter.mpr ⟨by simp [up], ?_⟩)
    exact decide_eq_true ⟨enabled p, named⟩
  exact scanCmds_of_mem_answering distinct (enabled m) member []

/-- **Words that lead to a command** are a path that can be followed, and a name that
the menu there knows. -/
theorem Leads.follow {m : ι} {words : List Text} (leads : Leads menus m words) :
    ∃ path name n, words = path ++ [name] ∧ menus.follow m path = some n ∧
      menus.Names n name := by
  induction leads with
  | @function m f inside on => exact ⟨[], f.name, m, rfl, rfl, .inl ⟨f, inside, on, rfl⟩⟩
  | @menu m n inside _ =>
      exact ⟨[], _, m, rfl, rfl, .inr ⟨n, enter_child distinct enabled inside⟩⟩
  | @parent m p up _ =>
      exact ⟨[], _, m, rfl, rfl, .inr ⟨p, enter_parent distinct enabled up (by simp)⟩⟩
  | @into m n words inside _ ih =>
      obtain ⟨path, name, k, rfl, followed, names⟩ := ih
      refine ⟨(menus n).name :: path, name, k, rfl, ?_, names⟩
      simp only [Menus.follow, enter_child distinct enabled inside]
      exact followed
  | @up m p word words up named _ ih =>
      obtain ⟨path, name, k, rfl, followed, names⟩ := ih
      refine ⟨word :: path, name, k, rfl, ?_, names⟩
      simp only [Menus.follow, enter_parent distinct enabled up named]
      exact followed

/-- **Words that lead to a command, with any words after them**, do what the last one does in
the menu to which the others lead. -/
theorem Leads.scanCmds {m : ι} {words : List Text} (leads : Leads menus m words)
    (args : List Text) :
    ∃ path name n, words = path ++ [name] ∧ menus.follow m path = some n ∧ menus.Names n name ∧
      menus.scanCmds m (words ++ args) = menus.scanCmds n (name :: args) := by
  obtain ⟨path, name, n, rfl, followed, named⟩ := leads.follow distinct enabled
  refine ⟨path, name, n, rfl, followed, named, ?_⟩
  rw [List.append_assoc, List.singleton_append]
  exact scanCmds_path distinct followed (by simp)

end Dispatch

end Menus

end Lynx.Cli
