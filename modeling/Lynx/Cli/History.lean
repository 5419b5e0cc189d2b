/-
# Cli.History — the commands of a session

`History` keeps the last commands, the newest first, and hands them out in two
ways: to the arrow keys, one by one from the newest (`previous`, `next`), and to
`!` by the number that `history` prints before them (`at'`).  While the arrow keys
browse it, the line that was being typed stands in it as well.

The assertions of the source and the exception of an unknown number are the two
failures.  `Good` is the invariant: from it, no assertion fails but the one of
`at'`, and `at'_assertion_iff` says exactly when that one does.  `listed_recall` is what a user of
`!` relies on: which of the numbers that `history` lists still work once the line with
the `!` is there.

The counters do not wrap: that takes 2 ^ 64 insertions.  The subtraction of one
from their sum does, when both are zero.
-/
import Lynx.Cli.FromString
import Lynx.Theory.Fallible

namespace Lynx.Cli

open Lynx.Cli.FromString (printNat)
open Lynx.Theory.Fallible

set_option autoImplicit false

inductive Failure where
  /-- An `assert` fails: the process ends. -/
  | assertion
  /-- `std::out_of_range("Index not found in history")`. -/
  | outOfRange
  deriving DecidableEq, Repr

/-- `History::Mode`. -/
inductive Mode where
  | inserting
  | browsing
  deriving DecidableEq, Repr

structure History where
  maxSize : Nat
  /-- `buffer[0]` is the newest element. -/
  buffer : List Text := []
  current : Nat := 0
  /-- The number of commands issued. -/
  commands : Nat := 0
  mode : Mode := .inserting
  /-- The id of the oldest element kept in the history. -/
  idOfOldest : Nat := 0
  deriving DecidableEq, Repr

namespace History

/-- `History::Insert`. -/
def insert (h : History) (item : Text) : History :=
  if h.buffer.length + 1 > h.maxSize then
    { h with buffer := (item :: h.buffer).dropLast, idOfOldest := h.idOfOldest + 1 }
  else { h with buffer := item :: h.buffer }

/-- `++commands; current = 0;` -/
def issue (h : History) : History := { h with commands := h.commands + 1, current := 0 }

/-- `History::NewCommand`. -/
def newCommand (h : History) (item : Text) : Except Failure History :=
  let h := h.issue
  match h.mode with
  | .browsing =>
      if h.buffer.isEmpty then .error .assertion
      else
        let buffer := if h.buffer[1]? = some item then h.buffer.tail else h.buffer.set 0 item
        .ok { h with buffer := buffer, mode := .inserting }
  | .inserting => .ok (if h.buffer.head? = some item then h else h.insert item)

/-- `buffer[current]`, after the assertion that there is one. -/
def currentItem (h : History) : Except Failure Text := orThrow .assertion h.buffer[h.current]?

/-- `History::Previous`. -/
def previous (h : History) (line : Text) : Except Failure (Text × History) :=
  match h.mode with
  | .inserting =>
      let h := h.insert line
      let h := { h with mode := .browsing, current := if h.buffer.length > 1 then 1 else 0 }
      do .ok (← h.currentItem, h)
  | .browsing =>
      if h.buffer.isEmpty then .error .assertion
      else
        let h := { h with buffer := h.buffer.set h.current line }
        let h := if h.current ≠ h.buffer.length - 1 then { h with current := h.current + 1 } else h
        do .ok (← h.currentItem, h)

/-- `History::Next`. -/
def next (h : History) : Except Failure (Text × History) :=
  if h.buffer.isEmpty || h.current == 0 then .ok ([], h)
  else
    let h := { h with current := h.current - 1 }
    do .ok (← h.currentItem, h)

/-- `idOfOldest + buffer.size() - 1`, in `size_t`. -/
def newestId (h : History) : Nat :=
  if h.idOfOldest + h.buffer.length = 0 then 2 ^ 64 - 1 else h.idOfOldest + h.buffer.length - 1

/-- `IndexToId`. -/
def indexToId (h : History) (index : Nat) : Except Failure Nat :=
  if index > h.newestId then .error .outOfRange else .ok (h.newestId - index)

/-- `IdToIndex`. -/
def idToIndex (h : History) (id : Nat) : Except Failure Nat :=
  if id < h.idOfOldest ∨ id > h.newestId then .error .outOfRange else .ok (h.newestId - id)

/-- `History::At`. -/
def at' (h : History) (id : Nat) : Except Failure Text := do
  let index ← h.idToIndex id
  orThrow .assertion h.buffer[index]?

/-- `History::ForgetLatest`. -/
def forgetLatest (h : History) : Except Failure History :=
  if h.buffer.isEmpty then .error .assertion else .ok { h with buffer := h.buffer.tail }

/-- `History::Show`: the oldest command first. -/
def show' (h : History) : Except Failure Text := do
  let lines ← (List.range h.buffer.length).mapM fun i => do
    let j := h.buffer.length - 1 - i
    let id ← h.indexToId j
    let item ← orThrow .assertion h.buffer[j]?
    Except.ok (printNat id ++ text "\t" ++ item ++ text "\n")
  .ok (text "\n" ++ lines.flatten ++ text "\n")

/-- `History::LoadCommands`. -/
def loadCommands (h : History) (cmds : List Text) : History := cmds.foldl insert h

/-- `History::GetCommands`. -/
def getCommands (h : History) : List Text :=
  match h.mode with
  | .browsing => (h.buffer.tail.take (min h.commands (h.buffer.length - 1))).reverse
  | .inserting => (h.buffer.take (min h.commands h.buffer.length)).reverse

/-- What happens to the history when a line with a `!` is entered, before the
command is looked up: `CliSession::Feed` up to its handler, and the first line of
`ExecFromHistory`. -/
def beginRecall (h : History) (item : Text) : Except Failure History := do
  let h ← h.newCommand item
  h.forgetLatest

/-! ## The invariant -/

/-- What holds of the history of a session between two keys. -/
structure Good (h : History) : Prop where
  capacity : 0 < h.maxSize
  size : h.buffer.length ≤ h.maxSize
  browsing : h.mode = .browsing → h.current < h.buffer.length
  inserting : h.mode = .inserting → h.current = 0

theorem good_start {maxSize : Nat} (capacity : 0 < maxSize) : Good { maxSize := maxSize } :=
  ⟨capacity, Nat.zero_le _, by simp, by simp⟩

/-- What an insertion does: the new item is there, and the oldest is gone if there
was no room. -/
theorem insert_eq (h : History) (item : Text) :
    (h.buffer.length < h.maxSize ∧ h.insert item = { h with buffer := item :: h.buffer }) ∨
      (h.maxSize ≤ h.buffer.length ∧ h.insert item =
        { h with buffer := (item :: h.buffer).dropLast, idOfOldest := h.idOfOldest + 1 }) := by
  unfold insert
  split
  · exact .inr ⟨by omega, rfl⟩
  · exact .inl ⟨by omega, rfl⟩

theorem length_insert {h : History} (size : h.buffer.length ≤ h.maxSize) (item : Text) :
    (h.insert item).buffer.length = min (h.buffer.length + 1) h.maxSize := by
  rcases insert_eq h item with ⟨room, same⟩ | ⟨full, same⟩
  · simp only [same, List.length_cons]
    omega
  · simp only [same, List.length_dropLast, List.length_cons]
    omega

section Insert

variable (h : History) (item : Text)

@[simp] theorem insert_maxSize : (h.insert item).maxSize = h.maxSize := by
  rcases insert_eq h item with ⟨-, same⟩ | ⟨-, same⟩ <;> rw [same]

@[simp] theorem insert_mode : (h.insert item).mode = h.mode := by
  rcases insert_eq h item with ⟨-, same⟩ | ⟨-, same⟩ <;> rw [same]

@[simp] theorem insert_current : (h.insert item).current = h.current := by
  rcases insert_eq h item with ⟨-, same⟩ | ⟨-, same⟩ <;> rw [same]

@[simp] theorem insert_commands : (h.insert item).commands = h.commands := by
  rcases insert_eq h item with ⟨-, same⟩ | ⟨-, same⟩ <;> rw [same]

theorem head?_insert {h : History} (capacity : 0 < h.maxSize) :
    (h.insert item).buffer.head? = some item := by
  rcases insert_eq h item with ⟨room, same⟩ | ⟨full, same⟩
  · simp [same]
  · obtain ⟨first, rest, buffer⟩ :=
      List.exists_cons_of_length_pos (Nat.lt_of_lt_of_le capacity full)
    simp [same, buffer]

end Insert

theorem Good.insert {h : History} (good : Good h) (inserting : h.mode = .inserting) (item : Text) :
    Good (h.insert item) := by
  have length := length_insert good.size item
  have capacity := good.capacity
  refine ⟨by simpa using capacity, ?_, by simp [inserting], ?_⟩
  · rw [length, insert_maxSize]
    omega
  · rw [insert_current]
    exact fun _ => good.inserting inserting

theorem Good.loadCommands {h : History} (good : Good h) (inserting : h.mode = .inserting)
    (cmds : List Text) :
    Good (h.loadCommands cmds) ∧ (h.loadCommands cmds).mode = .inserting := by
  induction cmds generalizing h with
  | nil => exact ⟨good, inserting⟩
  | cons cmd rest ih =>
      exact ih (good.insert inserting cmd) (by simpa using inserting)

/-! ## What the operations do -/

theorem Good.issue {h : History} (good : Good h) (inserting : h.mode = .inserting) :
    Good h.issue :=
  ⟨good.capacity, good.size, by simp [History.issue, inserting], by simp [History.issue]⟩

theorem newCommand_inserting {h : History} (inserting : h.mode = .inserting) (item : Text) :
    h.newCommand item =
      .ok (if h.buffer.head? = some item then h.issue else h.issue.insert item) := by
  simp [newCommand, issue, inserting]

theorem newCommand_browsing {h : History} (good : Good h) (browsing : h.mode = .browsing)
    (item : Text) :
    h.newCommand item =
      .ok { h.issue with
        mode := .inserting,
        buffer := if h.buffer[1]? = some item then h.buffer.tail else h.buffer.set 0 item } := by
  have some' : h.buffer ≠ [] := by
    have inside := good.browsing browsing
    rintro none'
    simp [none'] at inside
  simp [newCommand, issue, browsing, some']

/-- **A command** is taken without a failure; it is the newest element then. -/
theorem Good.newCommand {h : History} (good : Good h) (item : Text) :
    ∃ after, h.newCommand item = .ok after ∧ Good after ∧ after.mode = .inserting ∧
      after.buffer.head? = some item := by
  have capacity := good.capacity
  have size := good.size
  cases mode : h.mode with
  | inserting =>
      refine ⟨_, newCommand_inserting mode item, ?_⟩
      split
      · rename_i same
        exact ⟨good.issue mode, mode, same⟩
      · exact ⟨(good.issue mode).insert mode item, by simpa [History.issue] using mode,
          head?_insert item capacity⟩
  | browsing =>
      refine ⟨_, newCommand_browsing good mode item, ?_⟩
      have inside := good.browsing mode
      obtain ⟨first, rest, buffer⟩ := List.exists_cons_of_length_pos (Nat.zero_lt_of_lt inside)
      rw [buffer] at size ⊢
      split
      · rename_i second
        refine ⟨⟨capacity, ?_, by simp, by simp [History.issue]⟩, rfl, ?_⟩
        · simp only [List.tail_cons, List.length_cons, History.issue] at size ⊢
          omega
        · simpa [List.head?_eq_getElem?] using second
      · exact ⟨⟨capacity, by simpa [History.issue] using size, by simp, by simp [History.issue]⟩,
          rfl, by simp⟩

theorem currentItem_eq {h : History} (inside : h.current < h.buffer.length) :
    h.currentItem = .ok h.buffer[h.current] := by
  simp [currentItem, orThrow, inside]

/-- **An arrow up** finds an element. -/
theorem Good.previous {h : History} (good : Good h) (line : Text) :
    ∃ shown after, h.previous line = .ok (shown, after) ∧ Good after := by
  have capacity := good.capacity
  have size := good.size
  cases mode : h.mode with
  | inserting =>
      have inserted := good.insert mode line
      have length := length_insert size line
      let after : History :=
        { h.insert line with
          mode := .browsing, current := if (h.insert line).buffer.length > 1 then 1 else 0 }
      have inside : after.current < after.buffer.length := by
        simp only [after]
        split <;> omega
      refine ⟨after.buffer[after.current], after, ?_, inserted.capacity, inserted.size,
        fun _ => inside, by simp [after]⟩
      have steps : h.previous line = (do .ok (← after.currentItem, after)) := by
        simp [History.previous, mode, after]
      rw [steps, currentItem_eq inside]
      rfl
  | browsing =>
      have inside := good.browsing mode
      have some' : h.buffer ≠ [] := by
        rintro none'
        simp [none'] at inside
      let after : History :=
        { h with
          buffer := h.buffer.set h.current line,
          current := if h.current ≠ h.buffer.length - 1 then h.current + 1 else h.current }
      have insideAfter : after.current < after.buffer.length := by
        simp only [after, List.length_set]
        split <;> omega
      refine ⟨after.buffer[after.current], after, ?_, capacity, by simpa [after] using size,
        fun _ => insideAfter, by simp [after, mode]⟩
      have steps : h.previous line = (do .ok (← after.currentItem, after)) := by
        simp only [History.previous, mode, after, List.length_set]
        by_cases last : h.current = h.buffer.length - 1
        · simp [some', last]
        · simp [some', last]
      rw [steps, currentItem_eq insideAfter]
      rfl

/-- **An arrow down** finds an element, or there is nothing newer. -/
theorem Good.next {h : History} (good : Good h) :
    ∃ shown after, h.next = .ok (shown, after) ∧ Good after := by
  unfold History.next
  split
  · exact ⟨_, _, rfl, good⟩
  · rename_i notFirst
    simp only [Bool.or_eq_true, List.isEmpty_iff, beq_iff_eq, not_or] at notFirst
    have browsing : h.mode = .browsing := by
      cases mode : h.mode with
      | browsing => rfl
      | inserting => exact absurd (good.inserting mode) notFirst.2
    have inside := good.browsing browsing
    let after : History := { h with current := h.current - 1 }
    have insideAfter : after.current < after.buffer.length := by
      simp only [after]
      omega
    refine ⟨after.buffer[after.current], after, ?_, good.capacity, good.size,
      fun _ => insideAfter, by simp [after, browsing]⟩
    have found := currentItem_eq insideAfter
    simp only [after] at found ⊢
    rw [found]
    rfl

/-! ## What the history holds -/

/-- `p` holds of every element. -/
def Each (p : Text → Prop) (h : History) : Prop := ∀ item ∈ h.buffer, p item

section Each

variable {p : Text → Prop} {h after : History} {item line shown : Text} {id : Nat}

theorem Each.insert (each : Each p h) (holds : p item) : Each p (h.insert item) := by
  have more : ∀ other ∈ item :: h.buffer, p other := List.forall_mem_cons.mpr ⟨holds, each⟩
  rcases insert_eq h item with ⟨-, same⟩ | ⟨-, same⟩
  · rw [same]
    exact more
  · rw [same]
    exact fun other member => more other (List.dropLast_subset _ member)

theorem Each.loadCommands (each : Each p h) {cmds : List Text} (all : ∀ cmd ∈ cmds, p cmd) :
    Each p (h.loadCommands cmds) := by
  induction cmds generalizing h with
  | nil => exact each
  | cons cmd rest ih =>
      exact ih (each.insert (all cmd (by simp))) fun other member => all other (by simp [member])

theorem each_set {buffer : List Text} (all : ∀ other ∈ buffer, p other) (holds : p item) (i : Nat) :
    ∀ other ∈ buffer.set i item, p other := by
  intro other member
  rcases List.mem_or_eq_of_mem_set member with old | rfl
  · exact all other old
  · exact holds

theorem Each.newCommand (each : Each p h) (holds : p item) (taken : h.newCommand item = .ok after) :
    Each p after := by
  simp only [History.newCommand] at taken
  split at taken
  · split at taken
    · cases taken
    · cases taken
      intro other member
      simp only at member
      split at member
      · exact each other (List.mem_of_mem_tail member)
      · exact each_set each holds 0 other member
  · cases taken
    split
    · exact each
    · exact Each.insert (h := h.issue) each holds

theorem Each.forgetLatest (each : Each p h) (gone : h.forgetLatest = .ok after) : Each p after := by
  simp only [History.forgetLatest] at gone
  split at gone
  · cases gone
  · cases gone
    exact fun other member => each other (List.mem_of_mem_tail member)

theorem each_currentItem (found : h.currentItem = .ok item) (each : Each p h) : p item :=
  each item (List.mem_of_getElem? (orThrow_eq_ok.mp found))

theorem Each.previous (each : Each p h) (holds : p line)
    (found : h.previous line = .ok (shown, after)) : p shown ∧ Each p after := by
  simp only [History.previous] at found
  split at found
  · obtain ⟨item, current, same⟩ := bind_eq_ok.mp found
    cases same
    have inserted : Each p _ := each.insert holds
    exact ⟨each_currentItem current inserted, inserted⟩
  · split at found
    · cases found
    · obtain ⟨item, current, same⟩ := bind_eq_ok.mp found
      have stored := each_set each holds h.current
      split at current
      · rename_i notLast
        rw [if_pos notLast] at same
        cases same
        exact ⟨each_currentItem current stored, stored⟩
      · rename_i last
        rw [if_neg last] at same
        cases same
        exact ⟨each_currentItem current stored, stored⟩

theorem Each.next (each : Each p h) (found : h.next = .ok (shown, after)) :
    (shown = [] ∨ p shown) ∧ Each p after := by
  simp only [History.next] at found
  split at found
  · cases found
    exact ⟨.inl rfl, each⟩
  · obtain ⟨item, current, same⟩ := bind_eq_ok.mp found
    cases same
    exact ⟨.inr (each_currentItem current each), each⟩

theorem Each.getCommands (each : Each p h) : ∀ cmd ∈ h.getCommands, p cmd := by
  intro cmd member
  unfold History.getCommands at member
  cases mode : h.mode with
  | browsing =>
      simp only [mode] at member
      exact each cmd (List.mem_of_mem_tail (List.mem_of_mem_take (List.mem_reverse.mp member)))
  | inserting =>
      simp only [mode] at member
      exact each cmd (List.mem_of_mem_take (List.mem_reverse.mp member))

theorem Each.at' (each : Each p h) (found : h.at' id = .ok item) : p item := by
  obtain ⟨index, -, current⟩ := bind_eq_ok.mp found
  exact each item (List.mem_of_getElem? (orThrow_eq_ok.mp current))

end Each

/-! ## Recalling a command by its number -/

/-- The history once a line with a `!` has come and gone. -/
def afterRecall (h : History) (item : Text) : History :=
  match h.mode with
  | .browsing =>
      { h.issue with
        mode := .inserting,
        buffer := if h.buffer[1]? = some item then h.buffer.tail.tail else h.buffer.tail }
  | .inserting =>
      if h.buffer.head? = some item then { h.issue with buffer := h.buffer.tail }
      else if h.buffer.length < h.maxSize then h.issue
      else { h.issue with buffer := h.buffer.dropLast, idOfOldest := h.idOfOldest + 1 }

theorem Each.afterRecall {p : Text → Prop} {h : History} (each : Each p h) (item : Text) :
    Each p (h.afterRecall item) := by
  have tail : ∀ other ∈ h.buffer.tail, p other := fun other member =>
    each other (List.mem_of_mem_tail member)
  unfold History.afterRecall
  cases h.mode with
  | browsing =>
      intro other member
      simp only at member
      split at member
      · exact tail other (List.mem_of_mem_tail member)
      · exact tail other member
  | inserting =>
      simp only
      split_ifs
      · exact tail
      · exact each
      · exact fun other member => each other (List.dropLast_subset _ member)

theorem tail_dropLast_cons (item : Text) (buffer : List Text) (some' : buffer ≠ []) :
    (item :: buffer).dropLast.tail = buffer.dropLast := by
  cases buffer with
  | nil => exact absurd rfl some'
  | cons first rest => rfl

theorem forgetLatest_eq {h : History} {item : Text} (newest : h.buffer.head? = some item) :
    h.forgetLatest = .ok { h with buffer := h.buffer.tail } := by
  cases buffer : h.buffer with
  | nil => simp [buffer] at newest
  | cons first rest => simp [forgetLatest, buffer]

/-- **A line with a `!`** comes and goes without a failure. -/
theorem beginRecall_eq {h : History} (good : Good h) (item : Text) :
    h.beginRecall item = .ok (h.afterRecall item) := by
  obtain ⟨after, taken, -, -, newest⟩ := good.newCommand item
  have gone := forgetLatest_eq newest
  have steps : h.beginRecall item = after.forgetLatest := by
    simp only [beginRecall, taken]
    rfl
  rw [steps, gone, afterRecall]
  congr 1
  cases mode : h.mode with
  | browsing =>
      obtain rfl := ok_unique (newCommand_browsing good mode item) taken
      have inside := good.browsing mode
      obtain ⟨first, rest, buffer⟩ := List.exists_cons_of_length_pos (Nat.zero_lt_of_lt inside)
      simp only [buffer]
      split <;> rfl
  | inserting =>
      obtain rfl := ok_unique (newCommand_inserting mode item) taken
      by_cases same : h.buffer.head? = some item
      · simp [same, issue]
      · simp only [same, if_false]
        rcases insert_eq h.issue item with ⟨room, inserted⟩ | ⟨full, inserted⟩
        · have room' : h.buffer.length < h.maxSize := room
          rw [inserted, if_pos room']
          rfl
        · have full' : ¬ h.buffer.length < h.maxSize := Nat.not_lt.mpr full
          have capacity := good.capacity
          have some' : h.buffer ≠ [] := by
            rintro none'
            simp [none'] at full'
            omega
          simp only [inserted, full', if_false]
          simp [issue, tail_dropLast_cons item h.buffer some']

theorem Good.afterRecall {h : History} (good : Good h) (item : Text) :
    Good (h.afterRecall item) ∧ (h.afterRecall item).mode = .inserting := by
  have capacity := good.capacity
  have size := good.size
  unfold History.afterRecall
  cases mode : h.mode with
  | browsing =>
      refine ⟨⟨capacity, ?_, by simp, by simp [History.issue]⟩, rfl⟩
      simp only [History.issue]
      split
      · simp only [List.length_tail]
        omega
      · simp only [List.length_tail]
        omega
  | inserting =>
      simp only
      split_ifs
      · refine ⟨⟨capacity, ?_, by simp [mode, History.issue], by simp [History.issue]⟩, mode⟩
        simp only [List.length_tail, History.issue]
        omega
      · exact ⟨good.issue mode, mode⟩
      · refine ⟨⟨capacity, ?_, by simp [mode, History.issue], by simp [History.issue]⟩, mode⟩
        simp only [List.length_dropLast, History.issue]
        omega

/-- A new line with a `!` leaves room for the next, and the newest element, if any. -/
theorem afterRecall_room {h : History} (good : Good h) (inserting : h.mode = .inserting)
    {item : Text} (fresh : h.buffer.head? ≠ some item) :
    (h.afterRecall item).buffer.length < (h.afterRecall item).maxSize ∧
      (h.afterRecall item).buffer.head? ≠ some item := by
  have capacity := good.capacity
  have size := good.size
  simp only [afterRecall, inserting, fresh, if_false]
  split
  · rename_i room
    exact ⟨room, fresh⟩
  · refine ⟨?_, ?_⟩
    · simp only [List.length_dropLast, issue]
      omega
    · rw [List.head?_dropLast]
      split
      · exact fresh
      · simp

/-- The command with a number. -/
def entry (h : History) (id : Nat) : Option Text :=
  if id < h.idOfOldest then none else h.buffer.reverse[id - h.idOfOldest]?

/-- **`At`** gives the command with that number. -/
theorem at'_eq_ok_iff {h : History} {id : Nat} {cmd : Text} :
    h.at' id = .ok cmd ↔ h.entry id = some cmd := by
  simp only [at', idToIndex, newestId, entry]
  by_cases old : id < h.idOfOldest
  · simp [old, bind, Except.bind]
  · by_cases none' : h.buffer = []
    · simp only [old, none', List.length_nil, false_or, if_false, List.reverse_nil,
        List.getElem?_nil]
      split_ifs <;> simp [bind, Except.bind, orThrow]
    · have least := List.length_pos_iff.mpr none'
      have counted : h.idOfOldest + h.buffer.length ≠ 0 := by omega
      simp only [old, counted, if_false, false_or]
      by_cases new : id > h.idOfOldest + h.buffer.length - 1
      · have outside : h.buffer.reverse[id - h.idOfOldest]? = none := by
          apply List.getElem?_eq_none
          simp only [List.length_reverse]
          omega
        simp [new, outside, bind, Except.bind]
      · have inside : id - h.idOfOldest < h.buffer.length := by omega
        have index : h.idOfOldest + h.buffer.length - 1 - id =
            h.buffer.length - 1 - (id - h.idOfOldest) := by omega
        have found := List.getElem?_reverse (l := h.buffer) inside
        simp only [new, if_false, bind, Except.bind, index, ← found]
        exact orThrow_eq_ok

/-- **The assertion of `At`** fails exactly when there is no command, and never was
one: one is subtracted from zero. -/
theorem at'_assertion_iff {h : History} {id : Nat} (small : id < 2 ^ 64) :
    h.at' id = .error .assertion ↔ h.buffer = [] ∧ h.idOfOldest = 0 := by
  simp only [at', idToIndex, newestId]
  constructor
  · intro failed
    by_cases zero : h.idOfOldest + h.buffer.length = 0
    · exact ⟨List.length_eq_zero_iff.mp (by omega), by omega⟩
    · exfalso
      simp only [zero, if_false] at failed
      split_ifs at failed with outside
      · simp [bind, Except.bind] at failed
      · have inside : h.idOfOldest + h.buffer.length - 1 - id < h.buffer.length := by omega
        simp [bind, Except.bind, orThrow, inside] at failed
  · rintro ⟨none', zero⟩
    have low : ¬ (id > 18446744073709551615) := by omega
    simp [none', zero, low, bind, Except.bind, orThrow]

/-- The numbers and the commands, the oldest first. -/
def listing (h : History) : List (Text × Nat) := h.buffer.reverse.zipIdx h.idOfOldest

theorem mem_listing_iff {h : History} {cmd : Text} {id : Nat} :
    (cmd, id) ∈ h.listing ↔ h.entry id = some cmd := by
  unfold listing entry
  rw [List.mem_zipIdx_iff_le_and_getElem?_sub]
  split
  · simp only [reduceCtorEq, iff_false, not_and]
    omega
  · simp only [and_iff_right_iff_imp]
    omega

/-- One line of `history`. -/
def listingLine (numbered : Text × Nat) : Text :=
  printNat numbered.2 ++ text "\t" ++ numbered.1 ++ text "\n"

/-- **`history`** prints every command with its number. -/
theorem show'_eq (h : History) :
    h.show' = .ok (text "\n" ++ h.listing.flatMap listingLine ++ text "\n") := by
  have size : h.listing.length = h.buffer.length := by simp [listing]
  let line (i : Nat) : Text := (h.listing[i]?.map listingLine).getD []
  have each : ∀ i ∈ List.range h.buffer.length,
      (do
        let j := h.buffer.length - 1 - i
        let id ← h.indexToId j
        let item ← orThrow .assertion h.buffer[j]?
        Except.ok (printNat id ++ text "\t" ++ item ++ text "\n")) = .ok (line i) := by
    intro i member
    have inside : i < h.buffer.length := List.mem_range.mp member
    have counted : h.idOfOldest + h.buffer.length ≠ 0 := by omega
    have low : ¬ h.buffer.length - 1 - i > h.idOfOldest + h.buffer.length - 1 := by omega
    have number : h.idOfOldest + h.buffer.length - 1 - (h.buffer.length - 1 - i) =
        h.idOfOldest + i := by omega
    have here : h.buffer.length - 1 - i < h.buffer.length := by omega
    have item : line i = listingLine (h.buffer[h.buffer.length - 1 - i], h.idOfOldest + i) := by
      simp [line, listing, inside]
    simp only [indexToId, newestId, counted, if_false, low, number, List.getElem?_eq_getElem here,
      orThrow, item]
    rfl
  have lines : (List.range h.buffer.length).map line = h.listing.map listingLine := by
    apply List.ext_getElem
    · simp [size]
    · intro i first second
      have inside : i < h.listing.length := by simpa using second
      simp [line, inside]
  rw [show', mapM_eq_ok each, lines]
  rfl

/-- **What is listed can be recalled.**  After a new line with a `!` has been
entered, the numbers that `history` has listed before give their commands, all but
one where the history is full: the line has pushed the oldest command out. -/
theorem listed_recall {h : History} (good : Good h) (inserting : h.mode = .inserting)
    {item : Text} (fresh : h.buffer.head? ≠ some item) (cmd : Text) (id : Nat) :
    (∃ after, h.beginRecall item = .ok after ∧ after.at' id = .ok cmd) ↔
      (cmd, id) ∈ h.listing ∧ ¬ (h.buffer.length = h.maxSize ∧ id = h.idOfOldest) := by
  have entered : h.afterRecall item =
      if h.buffer.length < h.maxSize then h.issue
      else { h.issue with buffer := h.buffer.dropLast, idOfOldest := h.idOfOldest + 1 } := by
    simp [afterRecall, inserting, fresh]
  have size := good.size
  simp only [beginRecall_eq good, Except.ok.injEq, exists_eq_left', at'_eq_ok_iff, mem_listing_iff,
    entered]
  by_cases room : h.buffer.length < h.maxSize
  · have notFull : h.buffer.length ≠ h.maxSize := by omega
    simp [room, notFull, entry, issue]
  · have full : h.buffer.length = h.maxSize := by omega
    have oldest : h.buffer.dropLast.reverse = h.buffer.reverse.tail := (List.tail_reverse).symm
    rw [if_neg room]
    simp only [entry, full, true_and, oldest]
    by_cases old : id < h.idOfOldest + 1
    · have gone : id < h.idOfOldest ∨ id = h.idOfOldest := by omega
      simp only [old, if_true, reduceCtorEq, false_iff, not_and, not_not]
      rcases gone with before | same
      · simp [before]
      · exact fun _ => same
    · have kept : ¬ id < h.idOfOldest := by omega
      have index : id - h.idOfOldest = id - (h.idOfOldest + 1) + 1 := by omega
      have other : id ≠ h.idOfOldest := by omega
      simp only [old, kept, if_false, other, not_false_eq_true, and_true, index, List.getElem?_tail]

end History

end Lynx.Cli
