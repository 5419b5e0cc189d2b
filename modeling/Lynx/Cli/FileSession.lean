/-
# Cli.FileSession — the session that reads a file

`CliFileSession::Start` reads a line, feeds it, and goes on until the session has ended.
It ends itself at the end of the file, and then what stands after the last newline has been
read but is not fed: `fileLines_append`.  The history of such a
session has one place, and nobody can browse in it, so no line is nested deeper than one recall:
`fileLoop_settled` says how every file ends.
-/
import Lynx.Cli.Recall

namespace Lynx.Cli

open Lynx.Cli.Split (split)
open Lynx.Theory.Fallible

set_option autoImplicit false

universe u v w x

/-- The lines that `std::getline` finds before the end of the file. -/
def fileLines (input : Text) : List Text := (input.splitOn 10).dropLast

/-- **The lines of a file** end with a newline: what stands after the last one is not fed. -/
theorem fileLines_append (content : Text) {tail : Text} (noNewline : 10 ∉ tail) :
    fileLines (content ++ 10 :: tail) = content.splitOn 10 := by
  rw [fileLines, List.splitOn_append_cons_self, List.splitOn_eq_singleton noNewline,
    List.dropLast_concat]

theorem fileLines_unfinished {tail : Text} (noNewline : 10 ∉ tail) : fileLines tail = [] := by
  rw [fileLines, List.splitOn_eq_singleton noNewline]
  rfl

namespace Program

variable {ι : Type u} {H : Type v} {S : Type w} {O : Type x} (P : Program ι H S O) (self : O)

/-- The loop of `Start`, over the lines that are still to come. -/
def fileLoop (fuel : Nat) (w : World ι S) : List Text → Option (Except Ending (World ι S))
  | [] =>
      match P.exit self (P.prompt w) with
      | (_, some what) => some (.error (.exception what))
      | (w, none) => some (.ok w)
  | line :: rest =>
      match P.feed self fuel (P.prompt w) line with
      | none => none
      | some (.error ending) => some (.error ending)
      | some (.ok w) => if w.session.exit then some (.ok w) else fileLoop fuel w rest

/-- `CliFileSession::Start`, of a session with a history of one command. -/
def start (fuel : Nat) (stored : List Text) (shared : S) (input : Text) :
    Option (Except Ending (World ι S)) :=
  P.fileLoop self fuel
    { session := {
        current := P.rootMenu
        history := History.loadCommands { maxSize := 1 } stored }
      shared := shared }
    (fileLines input)

variable {P self}

/-! ## How a file ends -/

/-- The first command of a file. -/
def firstCommand (lines : List Text) : Option Text := lines.find? fun line => split line ≠ []

theorem firstCommand_cons (line : Text) (rest : List Text) :
    firstCommand (line :: rest) = if split line = [] then firstCommand rest else some line := by
  by_cases blank : split line = []
  · simp [firstCommand, blank]
  · simp [firstCommand, blank]

theorem not_void_newCommand {h after : History} {cmd : Text} (good : h.Good)
    (taken : h.newCommand cmd = .ok after) : ¬ Void after := by
  obtain ⟨after', taken', -, -, newest⟩ := good.newCommand cmd
  obtain rfl := ok_unique taken taken'
  rintro ⟨nothing, -⟩
  simp [nothing] at newest

/-- A line without a `!` leaves the history void only if it is blank. -/
theorem void_feed_plain {fuel : Nat} {w after : World ι S} {cmd : Text}
    (plain : Plain w.session.history) (noRecall : recalls cmd = none)
    (fed : P.feed self (fuel + 1) w cmd = some (.ok after)) :
    Void after.session.history ↔ split cmd = [] ∧ Void w.session.history := by
  by_cases blank : split cmd = []
  · rw [feed_blank blank] at fed
    cases fed
    simp [blank]
  · obtain ⟨history, taken, obeyed⟩ := feed_obey P self fuel plain.good blank noRecall
    rw [obeyed] at fed
    cases fed
    have some' := not_void_newCommand plain.good taken
    simp only [obey_history, World.withHistory_history, blank, some', false_and]

/-- A line leaves the history void only if it is blank. -/
theorem void_feed {fuel : Nat} {w after : World ι S} {cmd : Text}
    (plain : Plain w.session.history)
    (fed : P.feed self (fuel + 2) w cmd = some (.ok after)) :
    Void after.session.history ↔ split cmd = [] ∧ Void w.session.history := by
  cases named : recalls cmd with
  | none => exact void_feed_plain plain named fed
  | some index =>
      have some' : recalls cmd ≠ none := by simp [named]
      have notBlank : split cmd ≠ [] := by
        intro blank
        rw [recalls, blank] at named
        cases named
      have plainAfter := plain.afterRecall cmd
      have void := plain.void_afterRecall some'
      obtain ⟨result, fed', settled⟩ := feed_settled P self fuel cmd plain
      obtain rfl := Option.some.inj (fed.symm.trans fed')
      have notVoid : ¬ Void w.session.history := by
        intro nothing
        cases (settled.ends .assertion).mpr ⟨rfl, some', nothing⟩
      rw [feed_recalls plain.good named] at fed
      simp only [World.withHistory_history] at fed
      split at fed
      · rename_i recalled found
        have same : Void after.session.history ↔
            split recalled = [] ∧ Void (w.session.history.afterRecall cmd) :=
          void_feed_plain plainAfter (plainAfter.entries.at' found) fed
        rw [same]
        simp [notBlank, void, notVoid]
      · cases fed
        have same : Void (w.session.history.afterRecall cmd) ↔ Void w.session.history := void
        exact iff_of_false (fun nothing => notVoid (same.mp nothing)) (fun both => notBlank both.1)
      · cases fed

theorem prompt_exit (w : World ι S) : (P.prompt w).session.exit = w.session.exit := by
  unfold prompt
  split <;> rfl

/-- There is nothing to recall, and the first command has a `!`. -/
def RecallsNothing (w : World ι S) (lines : List Text) : Prop :=
  Void w.session.history ∧ ∃ cmd, firstCommand lines = some cmd ∧ recalls cmd ≠ none

/-- One line, and the rest of the file. -/
theorem recallsNothing_cons {fuel : Nat} {w after : World ι S} {line : Text} (rest : List Text)
    (plain : Plain w.session.history)
    (fed : P.feed self (fuel + 2) w line = some (.ok after)) :
    RecallsNothing w (line :: rest) ↔ RecallsNothing after rest := by
  have void := void_feed plain fed
  obtain ⟨result, fed', settled⟩ := feed_settled P self fuel line plain
  obtain rfl := Option.some.inj (fed.symm.trans fed')
  unfold RecallsNothing
  rw [firstCommand_cons, void]
  by_cases blank : split line = []
  · simp [blank]
  · rw [if_neg blank]
    simp only [blank, false_and, iff_false]
    rintro ⟨nothing, cmd, same, named⟩
    cases same
    cases (settled.ends .assertion).mpr ⟨rfl, named, nothing⟩

/-- **How a file ends**: the session has ended, or an assertion has failed, which is when the
first command of the file has a `!` and there is nothing to recall. -/
theorem fileLoop_settled (P : Program ι H S O) (self : O) (fuel : Nat)
    (calm : ∀ shared, (P.sessionExit self shared).what = none) (lines : List Text)
    {w : World ι S} (plain : Plain w.session.history) (running : w.session.exit = false) :
    ∃ result, P.fileLoop self (fuel + 2) w lines = some result ∧
      (∀ after, result = .ok after → after.session.exit = true ∧ Plain after.session.history) ∧
      ∀ ending, result = .error ending ↔ ending = .assertion ∧ RecallsNothing w lines := by
  induction lines generalizing w with
  | nil =>
      have quiet := calm (P.prompt w).shared
      refine ⟨.ok (P.exit self (P.prompt w)).1, ?_, ?_, ?_⟩
      · simp only [fileLoop, Program.exit, quiet]
      · intro after same
        cases same
        refine ⟨by simp only [Program.exit, quiet], ?_⟩
        rw [exit_history, prompt_history]
        exact plain
      · simp [RecallsNothing, firstCommand]
  | cons line rest ih =>
      have plainPrompt : Plain (P.prompt w).session.history := by rwa [prompt_history]
      have same : RecallsNothing (P.prompt w) (line :: rest) ↔ RecallsNothing w (line :: rest) := by
        rw [RecallsNothing, prompt_history]
        rfl
      obtain ⟨result, fed, settled⟩ := feed_settled P self fuel line plainPrompt
      cases result with
      | error ending' =>
          obtain ⟨rfl, named, nothing⟩ := (settled.ends ending').mp rfl
          have notBlank : split line ≠ [] := by
            intro blank
            exact named (by rw [recalls, blank]; rfl)
          have first : RecallsNothing (P.prompt w) (line :: rest) :=
            ⟨nothing, line, by rw [firstCommand_cons, if_neg notBlank], named⟩
          refine ⟨.error .assertion, by simp only [fileLoop, fed], by simp, fun ending => ?_⟩
          rw [← same]
          simp [first, eq_comm]
      | ok after =>
          have recallsNothing := recallsNothing_cons rest plainPrompt fed
          cases exited : after.session.exit with
          | true =>
              have notVoid : ¬ RecallsNothing after rest := by
                rintro ⟨nothing, -⟩
                obtain ⟨blank, -⟩ := (void_feed plainPrompt fed).mp nothing
                rw [feed_blank blank] at fed
                cases fed
                rw [prompt_exit, running] at exited
                cases exited
              refine ⟨.ok after, by simp only [fileLoop, fed, exited, if_true], ?_, fun ending => ?_⟩
              · intro after' same'
                cases same'
                exact ⟨exited, settled.plain after rfl⟩
              · rw [← same, recallsNothing]
                simp [notVoid]
          | false =>
              obtain ⟨result, ran, ok, ends⟩ := ih (settled.plain after rfl) exited
              have goesOn : P.fileLoop self (fuel + 2) w (line :: rest) =
                  P.fileLoop self (fuel + 2) after rest := by
                simp only [fileLoop, fed, exited, Bool.false_eq_true, if_false]
              refine ⟨result, goesOn.trans ran, ok, fun ending => ?_⟩
              rw [ends, ← same, recallsNothing]

/-! ## What a file does to what is shared -/

section Shared

variable {p : Text → Prop} {R : S → S → Prop} {fuel : Nat} {lines : List Text} {w after : World ι S}

/-- **A file** moves what is shared as the handlers do. -/
theorem Moves.fileLoop (moves : Moves P self p R) (good : w.session.history.Good)
    (each : w.session.history.Each p) (holds : ∀ line ∈ lines, recalls line = none → p line)
    (ran : P.fileLoop self fuel w lines = some (.ok after)) : R w.shared after.shared := by
  induction lines generalizing w with
  | nil =>
      have ended := moves.exit (w := P.prompt w) (by rwa [prompt_history])
      simp only [Program.fileLoop] at ran
      split at ran
      · cases ran
      · rename_i w' exited
        cases ran
        rw [exited, prompt_shared] at ended
        exact ended
  | cons line rest ih =>
      have goodPrompt : (P.prompt w).session.history.Good := by rwa [prompt_history]
      have eachPrompt : (P.prompt w).session.history.Each p := by rwa [prompt_history]
      obtain ⟨first, later⟩ := List.forall_mem_cons.mp holds
      simp only [Program.fileLoop] at ran
      split at ran
      · cases ran
      · cases ran
      · rename_i middle fed
        have here := moves.feed goodPrompt eachPrompt first fed
        rw [prompt_shared] at here
        split at ran
        · cases ran
          exact here
        · exact moves.trans here (ih (good_feed goodPrompt fed)
            (each_feed goodPrompt eachPrompt first fed) later ran)

end Shared

end Program

end Lynx.Cli
