/-
# Cli.Recall — lines that recall other lines

`!` feeds a line of the history inside the line that is being handled, and that
line can have a `!` again.  A line with a `!` is taken out of the history before it is
looked up, so it is not meant to be there; but an arrow key puts what is being typed
there, whatever it is.

Without the arrow up no line of the history has a `!` (`Plain`): then every line
is handled with one recall at most, and the only assertion that can fail is that of
a `!` where there is nothing to recall (`keypressed_settled`).  With the arrow up a
line can stand under its own number, and then it is fed for ever (`feed_itself`).
-/
import Lynx.Cli.Session

namespace Lynx.Cli

open Lynx.Cli.Telnet (Key)
open Lynx.Cli.Split (split)
open Lynx.Theory.Fallible

set_option autoImplicit false

universe u v w x

namespace Program

variable {ι : Type u} {H : Type v} {S : Type w} {O : Type x} {P : Program ι H S O} {self : O}

/-- No line with a `!`. -/
structure Plain (h : History) : Prop where
  good : h.Good
  inserting : h.mode = .inserting
  entries : h.Each fun line => recalls line = none

/-- There is nothing to recall, and never was. -/
def Void (h : History) : Prop := h.buffer = [] ∧ h.idOfOldest = 0

theorem Plain.newCommand {h after : History} {cmd : Text} (plain : Plain h)
    (noRecall : recalls cmd = none) (taken : h.newCommand cmd = .ok after) : Plain after := by
  obtain ⟨after', taken', good, inserting, -⟩ := plain.good.newCommand cmd
  obtain rfl := ok_unique taken taken'
  exact ⟨good, inserting, plain.entries.newCommand noRecall taken⟩

theorem Plain.afterRecall {h : History} (plain : Plain h) (cmd : Text) :
    Plain (h.afterRecall cmd) :=
  have after := plain.good.afterRecall cmd
  ⟨after.1, after.2, plain.entries.afterRecall cmd⟩

/-- A line with a `!` is not the newest, so that nothing else is taken out with it. -/
theorem Plain.afterRecall_eq {h : History} {cmd : Text} (plain : Plain h)
    (named : recalls cmd ≠ none) :
    h.afterRecall cmd =
      if h.buffer.length < h.maxSize then h.issue
      else { h.issue with buffer := h.buffer.dropLast, idOfOldest := h.idOfOldest + 1 } := by
  have other : h.buffer.head? ≠ some cmd := by
    intro newest
    exact named (plain.entries cmd (List.mem_of_mem_head? newest))
  simp [History.afterRecall, plain.inserting, other]

theorem Plain.void_afterRecall {h : History} {cmd : Text} (plain : Plain h)
    (named : recalls cmd ≠ none) : Void (h.afterRecall cmd) ↔ Void h := by
  have capacity := plain.good.capacity
  rw [plain.afterRecall_eq named]
  split
  · exact Iff.rfl
  · rename_i full
    have some' : h.buffer ≠ [] := by
      rintro none'
      simp [none'] at full
      omega
    simp [Void, some']

/-! ## Without the arrow up -/

/-- How a line ends where no line of the history has a `!`. -/
structure Settled (h : History) (cmd : Text) (result : Except Ending (World ι S)) : Prop where
  plain : ∀ after, result = .ok after → Plain after.session.history
  ends : ∀ ending, result = .error ending ↔ ending = .assertion ∧ recalls cmd ≠ none ∧ Void h

/-- A line without a `!` is handled at once. -/
theorem feed_plain (P : Program ι H S O) (self : O) (fuel : Nat) {w : World ι S} {cmd : Text} (plain : Plain w.session.history)
    (noRecall : recalls cmd = none) :
    ∃ after, P.feed self (fuel + 1) w cmd = some (.ok after) ∧ Plain after.session.history := by
  by_cases blank : split cmd = []
  · exact ⟨w, feed_blank blank, plain⟩
  · obtain ⟨history, taken, obeyed⟩ := feed_obey P self fuel plain.good blank noRecall
    refine ⟨_, obeyed, ?_⟩
    rw [obey_history]
    exact plain.newCommand noRecall taken

/-- **Every line is handled**, with one recall at most; the assertion fails exactly for
a `!` where there is nothing to recall. -/
theorem feed_settled (P : Program ι H S O) (self : O) (fuel : Nat) {w : World ι S} (cmd : Text) (plain : Plain w.session.history) :
    ∃ result, P.feed self (fuel + 2) w cmd = some result ∧
      Settled w.session.history cmd result := by
  cases named : recalls cmd with
  | none =>
      obtain ⟨after, fed, plainAfter⟩ := feed_plain P self (fuel + 1) plain named
      exact ⟨_, fed, ⟨fun _ same => by cases same; exact plainAfter, by simp [named]⟩⟩
  | some index =>
      have some' : recalls cmd ≠ none := by simp [named]
      have plainAfter := plain.afterRecall cmd
      have small : index.toNat < 2 ^ 64 := Nat.lt_trans index.toNat_lt (by decide)
      have void := (History.at'_assertion_iff (h := w.session.history.afterRecall cmd)
        small).trans (plain.void_afterRecall some')
      have notVoid (failure : Except Failure Text) (other : failure ≠ .error .assertion)
          (found : (w.session.history.afterRecall cmd).at' index.toNat = failure) :
          ¬ Void w.session.history := fun nothing => other (found.symm.trans (void.mpr nothing))
      rw [feed_recalls plain.good named]
      simp only [World.withHistory_history]
      cases found : (w.session.history.afterRecall cmd).at' index.toNat with
      | ok recalled =>
          obtain ⟨after, fed, plainFed⟩ := feed_plain P self fuel
            (w := w.withHistory (w.session.history.afterRecall cmd)) plainAfter
            ((plain.entries.afterRecall cmd).at' found)
          exact ⟨_, fed, ⟨fun _ same => by cases same; exact plainFed,
            by simp [notVoid _ (by simp) found]⟩⟩
      | error failure =>
          cases failure with
          | outOfRange =>
              exact ⟨_, rfl, ⟨fun _ same => by cases same; exact plainAfter,
                by simp [notVoid _ (by simp) found]⟩⟩
          | assertion =>
              have nothing := void.mp found
              refine ⟨_, rfl, ⟨fun _ same => (nomatch same), fun ending => ?_⟩⟩
              simp [some', nothing, eq_comm]

/-! ## Runs without the arrow up -/

theorem Plain.next {h : History} (plain : Plain h) : h.next = .ok ([], h) := by
  simp [History.next, plain.good.inserting plain.inserting]

/-- How the process can end: with a `!` where there is nothing to recall, or with an
exit action that throws at the end of the file. -/
def Ends (P : Program ι H S O) (self : O) (t : Terminal) (w : World ι S) (k : Key)
    (ending : Ending) : Prop :=
  (ending = .assertion ∧ k = .ret ∧ recalls t.currentLine ≠ none ∧ Void w.session.history) ∨
    (k = .eof ∧ ∃ what, (P.sessionExit self w.shared).what = some what ∧
      ending = .exception what)

theorem newCommand_eof {fuel : Nat} {t : Terminal} {w : World ι S} :
    P.newCommand self fuel t w .eof =
      some (match (P.sessionExit self w.shared).what with
        | some what => .error (.exception what)
        | none => .ok (t, (P.exit self w).1)) := by
  simp only [newCommand, Program.exit]
  cases (P.sessionExit self w.shared).what <;> rfl

/-- A key is handled without an end. -/
theorem settled_ok {t : Terminal} {w : World ι S} {k : Key} {after : Terminal × World ι S}
    (plain : Plain after.2.session.history) (other : k ≠ .ret) (other' : k ≠ .eof) :
    (∀ t' w', Except.ok (ε := Ending) after = .ok (t', w') → Plain w'.session.history) ∧
      ∀ ending, Except.ok after = .error ending ↔ Ends P self t w k ending := by
  refine ⟨?_, fun ending => by simp [Ends, other, other']⟩
  intro t' w' same
  cases same
  exact plain

/-- **A key** other than the arrow up is handled. -/
theorem keypressed_settled (P : Program ι H S O) (self : O) (fuel : Nat) (t : Terminal)
    {w : World ι S} {k : Key}
    (plain : Plain w.session.history) (noUp : k ≠ .up) :
    ∃ result, P.keypressed self (fuel + 2) t w k = some result ∧
      (∀ t' w', result = .ok (t', w') → Plain w'.session.history) ∧
      ∀ ending, result = .error ending ↔ Ends P self t w k ending := by
  rw [keypressed_eq]
  cases k with
  | up => exact absurd rfl noUp
  | ret =>
      obtain ⟨result, fed, settled⟩ := feed_settled P self fuel
        (w := w.withOut (w.session.out.put [13, 10])) t.currentLine plain
      refine ⟨_, congrArg (Option.map _) fed, ?_, ?_⟩
      · intro t' w' same
        cases result with
        | error ending => cases same
        | ok after =>
            cases same
            rw [prompt_history]
            exact settled.plain after rfl
      · intro ending
        have ends := settled.ends ending
        cases result with
        | error ending' => simpa [Ends, Except.map] using ends
        | ok after => simpa [Ends, Except.map] using ends
  | eof =>
      have shared : (w.withOut (t.keypressed (P.color w.shared) .eof w.session.out).2.2).shared =
          w.shared := rfl
      refine ⟨_, newCommand_eof, ?_, ?_⟩
      · intro t' w' same
        split at same
        · cases same
        · cases same
          rw [exit_history]
          exact plain
      · intro ending
        rw [shared]
        cases thrown : (P.sessionExit self w.shared).what with
        | none => simp [Ends, thrown]
        | some what => simp [Ends, thrown, eq_comm]
  | down =>
      have nothing : w.session.history.next = .ok ([], w.session.history) := plain.next
      have moved : P.newCommand self (fuel + 2) t w .down =
          some (.ok (P.setLine t (w.withHistory w.session.history) [])) := by
        simp only [newCommand, nothing]
        rfl
      exact ⟨_, moved, settled_ok plain (by simp) (by simp)⟩
  | ascii c =>
      by_cases tab : c = 9
      · subst tab
        refine ⟨_, rfl, settled_ok ?_ (by simp) (by simp)⟩
        rw [tab_history]
        exact plain
      · simp only [Terminal.symbol, tab, if_false]
        exact ⟨_, rfl, settled_ok plain (by simp) (by simp)⟩
  | clear =>
      refine ⟨_, rfl, settled_ok ?_ (by simp) (by simp)⟩
      rw [redraw, setLine_history, prompt_history]
      exact plain
  | backspace | canc | left | right | home | end' | ignored =>
      exact ⟨_, rfl, settled_ok plain (by simp) (by simp)⟩

theorem plain_opened {historySize : Nat} (capacity : 0 < historySize) {stored : List Text}
    (noRecall : ∀ cmd ∈ stored, recalls cmd = none) (shared : S) :
    Plain (P.opened historySize stored shared).2.session.history := by
  have loaded := (History.good_start capacity).loadCommands rfl stored
  have entries := History.Each.loadCommands (p := fun line => recalls line = none)
    (h := { maxSize := historySize }) (by simp [History.Each]) noRecall
  rw [opened, prompt_history]
  exact ⟨loaded.1, loaded.2, entries⟩

/-! ## A line under its own number -/

/-- **A line that recalls itself** is fed for ever: no depth of nesting is enough. -/
theorem feed_itself {w : World ι S} {cmd : Text} {index : UInt32}
    (good : w.session.history.Good) (inserting : w.session.history.mode = .inserting)
    (fresh : w.session.history.buffer.head? ≠ some cmd) (named : recalls cmd = some index)
    (itself : (cmd, index.toNat) ∈ w.session.history.listing)
    (kept : ¬ (w.session.history.buffer.length = w.session.history.maxSize ∧
      index.toNat = w.session.history.idOfOldest)) (fuel : Nat) :
    P.feed self fuel w cmd = none := by
  induction fuel generalizing w with
  | zero => rfl
  | succ fuel ih =>
      obtain ⟨after, begun, found⟩ :=
        (History.listed_recall good inserting fresh cmd index.toNat).mpr ⟨itself, kept⟩
      rw [History.beginRecall_eq good] at begun
      cases begun
      rw [feed_recalls good named]
      simp only [World.withHistory_history, found]
      obtain ⟨goodAfter, insertingAfter⟩ := good.afterRecall cmd
      have listed := History.mem_listing_iff.mpr (History.at'_eq_ok_iff.mp found)
      obtain ⟨room, other⟩ := History.afterRecall_room good inserting fresh
      apply ih
      · exact goodAfter
      · exact insertingAfter
      · exact other
      · exact listed
      · rintro ⟨full, -⟩
        exact Nat.lt_irrefl _ (full ▸ room)

end Program

end Lynx.Cli
