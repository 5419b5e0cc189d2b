/-
# Cli.Session — a session: lines, prompts and keys

`Program` is what an application gives to the library: its menus and handlers, the
state they share, and the actions at the end of a session.  `feed` handles one line,
`keypressed` one key.

A handler that throws is reported on the session and forgotten, and so is an exit
action that throws while a line is handled.  The same action run by an end-of-file
key is not inside `Feed`, and what it throws leaves the event loop: `Ending` is how
a process can end here.

`!` feeds a line from the history, inside the line that is being handled; the fuel
of `feed` is how deep this goes.
-/
import Lynx.Cli.Completion
import Lynx.Cli.History
import Lynx.Cli.Screen
import Lynx.Cli.Split
import Lynx.Theory.Run

namespace Lynx.Cli

open Lynx.Cli.Telnet (Key)
open Lynx.Cli.Split (split)
open Lynx.Theory.Fallible

set_option autoImplicit false

universe u v w x

/-! ## The application -/

/-- What a handler or an exit action did: what it wrote to the session, the `what()`
of the exception it threw, and the state it left. -/
structure Outcome (S : Type w) where
  out : Text := []
  what : Option Text := none
  shared : S

structure Program (ι : Type u) (H : Type v) (S : Type w) (O : Type x) where
  menus : S → Menus ι H
  rootMenu : ι
  /-- `Color()`. -/
  color : S → Bool
  handler : O → H → Args → S → Outcome S
  /-- `CliSession::exitAction`. -/
  sessionExit : O → S → Outcome S
  /-- What `Cli::ExitAction` writes. -/
  cliExit : Text
  /-- What `Cli::StdExceptionHandler` writes: of a line, and of what was thrown. -/
  stdException : Text → Text → Text
  storeCommands : List Text → S → S

/-- The handlers of the commands that every session has. -/
inductive Global where
  | help
  | exit
  | history
  /-- `!`. -/
  | recall
  deriving DecidableEq, Repr

/-- `CliSession::globalScopeMenu`. -/
def globalScopeMenu : Menus Unit Global := fun _ =>
  { name := [], description := [], prompt := [], parent := none
    cmds := [
      .function ⟨text "help", .variadic [], .help, text "This help message", [], true⟩,
      .function ⟨text "exit", .variadic [], .exit, text "Quit the session", [], true⟩,
      .function ⟨text "history", .variadic [], .history, text "Show the history", [], true⟩,
      .function ⟨text "!", .variadic [.unsigned], .recall,
        text "Exec a command by index in the history", [text "history entry index"], true⟩] }

/-! ## `CliSession` -/

structure CliSession (ι : Type u) where
  current : ι
  history : History
  out : OStream := {}
  /-- Prevents the prompt after the exit command. -/
  exit : Bool := false

/-- A session and the state it shares with the others. -/
structure World (ι : Type u) (S : Type w) where
  session : CliSession ι
  shared : S

namespace World

variable {ι : Type u} {S : Type w}

def withOut (w : World ι S) (out : OStream) : World ι S :=
  { w with session := { w.session with out := out } }

def write (w : World ι S) (t : Text) : World ι S := w.withOut (w.session.out.put t)

def withHistory (w : World ι S) (history : History) : World ι S :=
  { w with session := { w.session with history := history } }

@[simp] theorem withHistory_history (w : World ι S) (history : History) :
    (w.withHistory history).session.history = history := rfl

@[simp] theorem withOut_history (w : World ι S) (out : OStream) :
    (w.withOut out).session.history = w.session.history := rfl

@[simp] theorem write_history (w : World ι S) (t : Text) :
    (w.write t).session.history = w.session.history := rfl

end World

/-- How the process ends. -/
inductive Ending where
  | assertion
  /-- An exception leaves `io_context::run`. -/
  | exception (what : Text)
  /-- A write to a stream that has been destroyed. -/
  | destroyedStream
  deriving DecidableEq, Repr

namespace Program

variable {ι : Type u} {H : Type v} {S : Type w} {O : Type x} (P : Program ι H S O) (self : O)

/-- `CliSession::Exit`, with what it throws. -/
def exit (w : World ι S) : World ι S × Option Text :=
  let done := P.sessionExit self w.shared
  let w := { w with shared := done.shared }.write done.out
  match done.what with
  | some what => (w, some what)
  | none =>
      let w := w.write P.cliExit
      let w := { w with shared := P.storeCommands w.session.history.getCommands w.shared }
      ({ w with session := { w.session with exit := true } }, none)

/-- The `catch` of `Feed`. -/
def report (cmd : Text) (done : World ι S × Option Text) : World ι S :=
  match done.2 with
  | none => done.1
  | some what => done.1.write (P.stdException cmd what)

/-- `CliSession::Help`. -/
def help (w : World ι S) : World ι S :=
  w.write (text "Commands available:\n" ++ globalScopeMenu.mainHelp () ++
    (P.menus w.shared).mainHelp w.session.current)

/-- `CliSession::ShowHistory`. -/
def showHistory (cmd : Text) (w : World ι S) : Except Ending (World ι S) :=
  match w.session.history.show' with
  | .ok listing => .ok (w.write listing)
  | .error .outOfRange => .ok (w.write (P.stdException cmd (text "Index not found in history")))
  | .error .assertion => .error .assertion

/-- A command of the menu tree, or of none: the line is wrong. -/
def execute (cmd : Text) (strs : List Text) (w : World ι S) : World ι S :=
  match (P.menus w.shared).scanCmds w.session.current strs with
  | some (.enter m) => { w with session := { w.session with current := m } }
  | some (.call handler args) =>
      let done := P.handler self handler args w.shared
      P.report cmd ({ w with shared := done.shared }.write done.out, done.what)
  | none => w.write (text "wrong command: " ++ cmd ++ text "\n")

/-- `CliSession::Feed`; `none` when the line is nested deeper than `fuel`. -/
def feed : Nat → World ι S → Text → Option (Except Ending (World ι S))
  | 0, _, _ => none
  | fuel + 1, w, cmd =>
      match split cmd with
      | [] => some (.ok w)
      | strs =>
          match w.session.history.newCommand cmd with
          | .error _ => some (.error .assertion)
          | .ok history =>
              let w := w.withHistory history
              match globalScopeMenu.scanCmds () strs with
              | some (.call .help _) => some (.ok (P.help w))
              | some (.call .exit _) => some (.ok (P.report cmd (P.exit self w)))
              | some (.call .history _) => some (P.showHistory cmd w)
              | some (.call .recall (.values [.unsigned index])) =>
                  match history.forgetLatest with
                  | .error _ => some (.error .assertion)
                  | .ok history =>
                      let w := w.withHistory history
                      match history.at' index.toNat with
                      | .ok recalled => feed fuel w recalled
                      | .error .outOfRange =>
                          some (.ok (w.write
                            (P.stdException cmd (text "Index not found in history"))))
                      | .error .assertion => some (.error .assertion)
              | _ => some (.ok (P.execute self cmd strs w))

/-! ### What a line does -/

/-- The number in a line with a `!`. -/
def recalls (cmd : Text) : Option UInt32 :=
  match globalScopeMenu.scanCmds () (split cmd) with
  | some (.call .recall (.values [.unsigned index])) => some index
  | _ => none

/-- What a line does that is not blank and has no `!`, once it is in the history. -/
def obey (cmd : Text) (w : World ι S) : World ι S :=
  match globalScopeMenu.scanCmds () (split cmd) with
  | some (.call .help _) => P.help w
  | some (.call .exit _) => P.report cmd (P.exit self w)
  | some (.call .history _) =>
      w.write (text "\n" ++ w.session.history.listing.flatMap History.listingLine ++ text "\n")
  | _ => P.execute self cmd (split cmd) w

variable {P self}

theorem feed_blank {fuel : Nat} {w : World ι S} {cmd : Text} (blank : split cmd = []) :
    P.feed self (fuel + 1) w cmd = some (.ok w) := by
  simp only [feed, blank]

/-- **A line with a `!`** is taken back, and the one it names is fed. -/
theorem feed_recalls {fuel : Nat} {w : World ι S} {cmd : Text} {index : UInt32}
    (good : w.session.history.Good) (named : recalls cmd = some index) :
    P.feed self (fuel + 1) w cmd =
      let w := w.withHistory (w.session.history.afterRecall cmd)
      match w.session.history.at' index.toNat with
      | .ok recalled => P.feed self fuel w recalled
      | .error .outOfRange =>
          some (.ok (w.write (P.stdException cmd (text "Index not found in history"))))
      | .error .assertion => some (.error .assertion) := by
  obtain ⟨history, taken, -⟩ := good.newCommand cmd
  have gone : history.forgetLatest = .ok (w.session.history.afterRecall cmd) := by
    have both := History.beginRecall_eq good cmd
    rw [History.beginRecall, taken] at both
    exact both
  unfold recalls at named
  cases words : split cmd with
  | nil =>
      rw [words] at named
      cases named
  | cons word rest =>
      rw [words] at named
      split at named
      · rename_i index' found
        cases named
        simp only [feed, words, taken, found, gone]
        rfl
      · cases named

/-- **Any other line** is put into the history and obeyed. -/
theorem feed_obey (P : Program ι H S O) (self : O) (fuel : Nat) {w : World ι S} {cmd : Text} (good : w.session.history.Good)
    (some' : split cmd ≠ []) (plain : recalls cmd = none) :
    ∃ history, w.session.history.newCommand cmd = .ok history ∧
      P.feed self (fuel + 1) w cmd = some (.ok (P.obey self cmd (w.withHistory history))) := by
  obtain ⟨history, taken, -⟩ := good.newCommand cmd
  refine ⟨history, taken, ?_⟩
  unfold recalls at plain
  cases words : split cmd with
  | nil => exact absurd words some'
  | cons word rest =>
      rw [words] at plain
      simp only [feed, obey, words, taken]
      split
      · rename_i found
        simp only [found]
      · rename_i found
        simp only [found]
      · rename_i found
        simp only [found, showHistory, History.show'_eq]
      · rename_i found
        rw [found] at plain
        cases plain
      · rename_i noHelp noExit noHistory noRecall
        split
        · exact absurd ‹_› (noHelp _)
        · exact absurd ‹_› (noExit _)
        · exact absurd ‹_› (noHistory _)
        · rfl

variable (P self)

/-- `CliSession::Prompt`. -/
def prompt (w : World ι S) : World ι S :=
  if w.session.exit then w
  else
    let out := w.session.out.beforePrompt (P.color w.shared)
    let out := (out.put ((P.menus w.shared) w.session.current).prompt).reset
    w.withOut (out.put (text "> "))

/-- `CliSession::GetCompletions`: sorted, each once. -/
def getCompletions (w : World ι S) (currentLine : Text) : List Text :=
  let currentLine := trimLeft currentLine
  ((globalScopeMenu.getCompletions () currentLine ++
    (P.menus w.shared).getCompletions w.session.current currentLine).mergeSort
      fun a b => decide (a ≤ b)).dedup

/-! ## `CommandProcessor` -/

/-- `terminal.SetLine`. -/
def setLine (t : Terminal) (w : World ι S) (newLine : Text) : Terminal × World ι S :=
  let (t, out) := t.setLine (P.color w.shared) newLine w.session.out
  (t, w.withOut out)

/-- `Prompt`, `ResetCursor` and `SetLine`, on a new row. -/
def redraw (t : Terminal) (w : World ι S) (line : Text) : Terminal × World ι S :=
  P.setLine t.resetCursor (P.prompt w) line

/-- What the tab key does. -/
def tab (t : Terminal) (w : World ι S) : Terminal × World ι S :=
  let line := t.currentLine
  match P.getCompletions w line with
  | [] => (t, w)
  | [completion] => P.setLine t w (completion ++ text " ")
  | completions =>
      if (commonPrefix completions).length > line.length then
        P.setLine t w (commonPrefix completions)
      else
        let items := completions.flatMap fun cmd => text "\t" ++ cmd
        P.redraw t ((w.write (text "\n")).write (items ++ text "\n")) line

/-- The result of an operation of the history that cannot fail otherwise. -/
def orAssertion {α : Type _} (x : Except Failure α) : Except Ending α :=
  match x with
  | .ok a => .ok a
  | .error _ => .error .assertion

/-- `CommandProcessor::NewCommand`. -/
def newCommand (fuel : Nat) (t : Terminal) (w : World ι S) :
    Symbol → Option (Except Ending (Terminal × World ι S))
  | .nothing => some (.ok (t, w))
  | .eof =>
      match P.exit self w with
      | (_, some what) => some (.error (.exception what))
      | (w, none) => some (.ok (t, w))
  | .command line =>
      (P.feed self fuel w line).map fun result => result.map fun w => (t, P.prompt w)
  | .down =>
      some ((orAssertion w.session.history.next).map fun (line, history) =>
        P.setLine t (w.withHistory history) line)
  | .up =>
      some ((orAssertion (w.session.history.previous t.currentLine)).map fun (line, history) =>
        P.setLine t (w.withHistory history) line)
  | .tab => some (.ok (P.tab t w))
  | .clear =>
      let line := t.currentLine
      let w := w.write (text "\x1b[H\x1b[J")
      some (.ok (P.redraw t w line))

/-- `CommandProcessor::Keypressed`. -/
def keypressed (fuel : Nat) (t : Terminal) (w : World ι S) (k : Key) :
    Option (Except Ending (Terminal × World ι S)) :=
  let (symbol, t, out) := t.keypressed (P.color w.shared) k w.session.out
  P.newCommand self fuel t (w.withOut out) symbol

variable {P self}

theorem keypressed_eq (fuel : Nat) (t : Terminal) (w : World ι S) (k : Key) :
    P.keypressed self fuel t w k =
      P.newCommand self fuel (t.keypressed (P.color w.shared) k w.session.out).2.1
        (w.withOut (t.keypressed (P.color w.shared) k w.session.out).2.2) (t.symbol k) := by
  rw [← Terminal.keypressed_symbol t (P.color w.shared) k w.session.out]
  rfl

/-- What the tab key does: nothing, a new line, or the completions and the line again. -/
theorem tab_cases (P : Program ι H S O) (t : Terminal) (w : World ι S) :
    P.tab t w = (t, w) ∨
      (∃ c ∈ P.getCompletions w t.currentLine, P.tab t w = P.setLine t w (c ++ text " ")) ∨
      (P.getCompletions w t.currentLine ≠ [] ∧
        P.tab t w = P.setLine t w (commonPrefix (P.getCompletions w t.currentLine))) ∨
      P.tab t w =
        P.redraw t
          ((w.write (text "\n")).write
            ((P.getCompletions w t.currentLine).flatMap (fun cmd => text "\t" ++ cmd) ++
              text "\n"))
          t.currentLine := by
  simp only [tab]
  split
  · exact .inl rfl
  · rename_i completion offered
    exact .inr (.inl ⟨completion, by simp [offered], rfl⟩)
  · rename_i some' _
    split
    · exact .inr (.inr (.inl ⟨some', rfl⟩))
    · exact .inr (.inr (.inr rfl))

/-! ## What a key does to the history -/

section Obey

variable {w : World ι S} {cmd : Text}

theorem report_history (done : World ι S × Option Text) :
    (P.report cmd done).session.history = done.1.session.history := by
  unfold report
  split <;> rfl

theorem exit_history (P : Program ι H S O) (self : O) (w : World ι S) :
    (P.exit self w).1.session.history = w.session.history := by
  simp only [Program.exit]
  split <;> rfl

theorem execute_history (strs : List Text) :
    (P.execute self cmd strs w).session.history = w.session.history := by
  simp only [execute]
  split
  · rfl
  · exact report_history _
  · rfl

theorem obey_history : (P.obey self cmd w).session.history = w.session.history := by
  simp only [obey]
  split
  · rfl
  · rw [report_history, exit_history]
  · rfl
  · exact execute_history _

end Obey

theorem setLine_history (t : Terminal) (w : World ι S) (newLine : Text) :
    (P.setLine t w newLine).2.session.history = w.session.history := rfl

theorem prompt_history (w : World ι S) : (P.prompt w).session.history = w.session.history := by
  unfold prompt
  split <;> rfl

theorem tab_history (t : Terminal) (w : World ι S) :
    (P.tab t w).2.session.history = w.session.history := by
  rcases tab_cases P t w with same | ⟨c, -, same⟩ | ⟨-, same⟩ | same
  · rw [same]
  · rw [same, setLine_history]
  · rw [same, setLine_history]
  · rw [same, redraw, setLine_history, prompt_history]
    rfl

theorem good_feed {fuel : Nat} {w after : World ι S} {cmd : Text} (good : w.session.history.Good)
    (fed : P.feed self fuel w cmd = some (.ok after)) : after.session.history.Good := by
  induction fuel generalizing w cmd with
  | zero => cases fed
  | succ fuel ih =>
      by_cases blank : split cmd = []
      · rw [feed_blank blank] at fed
        cases fed
        exact good
      · cases named : recalls cmd with
        | none =>
            obtain ⟨history, taken, obeyed⟩ := feed_obey P self fuel good blank named
            obtain ⟨history', taken', goodAfter, -, -⟩ := good.newCommand cmd
            obtain rfl := ok_unique taken taken'
            rw [obeyed] at fed
            cases fed
            rw [obey_history]
            exact goodAfter
        | some index =>
            have goodAfter := (good.afterRecall cmd).1
            rw [feed_recalls good named] at fed
            simp only at fed
            split at fed
            · exact ih (w := w.withHistory (w.session.history.afterRecall cmd)) goodAfter fed
            · cases fed
              exact goodAfter
            · cases fed

/-- What holds of the lines of the history, and of a line that is put there. -/
theorem each_feed {p : Text → Prop} {fuel : Nat} {w after : World ι S} {cmd : Text}
    (good : w.session.history.Good) (each : w.session.history.Each p)
    (holds : recalls cmd = none → p cmd) (fed : P.feed self fuel w cmd = some (.ok after)) :
    after.session.history.Each p := by
  induction fuel generalizing w cmd with
  | zero => cases fed
  | succ fuel ih =>
      by_cases blank : split cmd = []
      · rw [feed_blank blank] at fed
        cases fed
        exact each
      · cases named : recalls cmd with
        | none =>
            obtain ⟨history, taken, obeyed⟩ := feed_obey P self fuel good blank named
            rw [obeyed] at fed
            cases fed
            rw [obey_history]
            exact each.newCommand (holds named) taken
        | some index =>
            have eachAfter := each.afterRecall cmd
            rw [feed_recalls good named] at fed
            simp only at fed
            split at fed
            · rename_i recalled found
              exact ih (w := w.withHistory (w.session.history.afterRecall cmd))
                (good.afterRecall cmd).1 eachAfter (fun _ => eachAfter.at' found) fed
            · cases fed
              exact eachAfter
            · cases fed

/-- An arrow that found a line has left the history it found. -/
theorem arrow_history {t t' : Terminal} {w w' : World ι S}
    {found : Except Failure (Text × History)}
    (ran : some ((orAssertion found).map fun (line, history) =>
      P.setLine t (w.withHistory history) line) = some (.ok (t', w'))) :
    ∃ line, found = .ok (line, w'.session.history) := by
  cases found with
  | error failure => cases ran
  | ok pair =>
      cases ran
      exact ⟨pair.1, rfl⟩

/-- **A key** keeps the invariant of the history. -/
theorem good_keypressed {fuel : Nat} {t t' : Terminal} {w w' : World ι S} {k : Key}
    (good : w.session.history.Good)
    (ran : P.keypressed self fuel t w k = some (.ok (t', w'))) : w'.session.history.Good := by
  rw [keypressed_eq] at ran
  cases k with
  | ret =>
      obtain ⟨result, fed, same⟩ := Option.map_eq_some_iff.mp ran
      cases result with
      | error ending => cases same
      | ok after =>
          cases same
          rw [prompt_history]
          exact good_feed (w := w.withOut (w.session.out.put [13, 10])) good fed
  | eof =>
      have kept := exit_history P self w
      simp only [Terminal.symbol, newCommand] at ran
      split at ran
      · cases ran
      · rename_i after exited
        cases ran
        have same : P.exit self w = (w', none) := exited
        rw [same] at kept
        rwa [kept]
  | up =>
      obtain ⟨line, found⟩ := arrow_history ran
      obtain ⟨line', history, found', goodAfter⟩ := good.previous t.currentLine
      have same : (line, w'.session.history) = (line', history) := ok_unique found found'
      exact (Prod.mk.inj same).2 ▸ goodAfter
  | down =>
      obtain ⟨line, found⟩ := arrow_history ran
      obtain ⟨line', history, found', goodAfter⟩ := good.next
      have same : (line, w'.session.history) = (line', history) := ok_unique found found'
      exact (Prod.mk.inj same).2 ▸ goodAfter
  | ascii c =>
      by_cases tab : c = 9
      · simp only [Terminal.symbol, tab, if_true] at ran
        have same : P.tab _ _ = (t', w') := Except.ok.inj (Option.some.inj ran)
        have kept := tab_history (P := P)
          (t.keypressed (P.color w.shared) (.ascii 9) w.session.out).2.1
          (w.withOut (t.keypressed (P.color w.shared) (.ascii 9) w.session.out).2.2)
        rw [same] at kept
        exact kept ▸ good
      · simp only [Terminal.symbol, tab, if_false] at ran
        cases ran
        exact good
  | clear =>
      cases ran
      exact (prompt_history _).symm ▸ good
  | backspace | canc | left | right | home | end' | ignored =>
      cases ran
      exact good

/-! ## What a key does to what is shared -/

/-- The handlers, the exit action and the storage of commands with `p` go from a shared
state to one that `R` relates to it. -/
structure Moves (P : Program ι H S O) (origin : O) (p : Text → Prop) (R : S → S → Prop) :
    Prop where
  refl : ∀ s, R s s
  trans : ∀ {a b c}, R a b → R b c → R a c
  handler : ∀ h args s, R s (P.handler origin h args s).shared
  sessionExit : ∀ s, R s (P.sessionExit origin s).shared
  storeCommands : ∀ cmds s, (∀ cmd ∈ cmds, p cmd) → R s (P.storeCommands cmds s)

section Shared

variable {p : Text → Prop} {R : S → S → Prop} (moves : Moves P self p R) {fuel : Nat}
  {t t' : Terminal}
  {w w' : World ι S} {cmd : Text} {k : Key}

theorem report_shared (done : World ι S × Option Text) :
    (P.report cmd done).shared = done.1.shared := by
  unfold report
  split <;> rfl

theorem prompt_shared (w : World ι S) : (P.prompt w).shared = w.shared := by
  unfold prompt
  split <;> rfl

theorem tab_shared (t : Terminal) (w : World ι S) : (P.tab t w).2.shared = w.shared := by
  rcases tab_cases P t w with same | ⟨c, -, same⟩ | ⟨-, same⟩ | same
  · rw [same]
  · rw [same]
    rfl
  · rw [same]
    rfl
  · rw [same]
    exact prompt_shared _

theorem arrow_shared {found : Except Failure (Text × History)}
    (ran : some ((orAssertion found).map fun (line, history) =>
      P.setLine t (w.withHistory history) line) = some (.ok (t', w'))) : w'.shared = w.shared := by
  cases found with
  | error failure => cases ran
  | ok pair =>
      cases ran
      rfl

include moves

theorem Moves.exit (each : w.session.history.Each p) : R w.shared (P.exit self w).1.shared := by
  have action := moves.sessionExit w.shared
  simp only [Program.exit]
  split
  · exact action
  · exact moves.trans action (moves.storeCommands _ _ each.getCommands)

theorem Moves.obey (each : w.session.history.Each p) : R w.shared (P.obey self cmd w).shared := by
  simp only [Program.obey]
  split
  · exact moves.refl _
  · rw [report_shared]
    exact moves.exit each
  · exact moves.refl _
  · simp only [execute]
    split
    · exact moves.refl _
    · rw [report_shared]
      exact moves.handler _ _ _
    · exact moves.refl _

theorem Moves.feed (good : w.session.history.Good) (each : w.session.history.Each p)
    (holds : recalls cmd = none → p cmd) (fed : P.feed self fuel w cmd = some (.ok w')) : R w.shared w'.shared := by
  induction fuel generalizing w cmd with
  | zero => cases fed
  | succ fuel ih =>
      by_cases blank : split cmd = []
      · rw [feed_blank blank] at fed
        cases fed
        exact moves.refl _
      · cases named : recalls cmd with
        | none =>
            obtain ⟨history, taken, obeyed⟩ := feed_obey P self fuel good blank named
            rw [obeyed] at fed
            cases fed
            exact moves.obey (w := w.withHistory history) (each.newCommand (holds named) taken)
        | some index =>
            have eachAfter := each.afterRecall cmd
            rw [feed_recalls good named] at fed
            simp only at fed
            split at fed
            · rename_i recalled found
              exact ih (w := w.withHistory (w.session.history.afterRecall cmd))
                (good.afterRecall cmd).1 eachAfter (fun _ => eachAfter.at' found) fed
            · cases fed
              exact moves.refl _
            · cases fed

/-- **A key** moves what is shared as the handlers do. -/
theorem Moves.keypressed (good : w.session.history.Good) (each : w.session.history.Each p)
    (holds : recalls t.currentLine = none → p t.currentLine)
    (ran : P.keypressed self fuel t w k = some (.ok (t', w'))) : R w.shared w'.shared := by
  rw [keypressed_eq] at ran
  cases k with
  | ret =>
      obtain ⟨result, fed, same⟩ := Option.map_eq_some_iff.mp ran
      cases result with
      | error ending => cases same
      | ok after =>
          cases same
          rw [prompt_shared]
          exact moves.feed (w := w.withOut (w.session.out.put [13, 10])) good each holds fed
  | eof =>
      have ended := moves.exit each
      simp only [Terminal.symbol, newCommand] at ran
      split at ran
      · cases ran
      · rename_i after exited
        cases ran
        have same : P.exit self w = (w', none) := exited
        rw [same] at ended
        exact ended
  | up | down =>
      rw [arrow_shared ran]
      exact moves.refl _
  | ascii c =>
      by_cases tab : c = 9
      · simp only [Terminal.symbol, tab, if_true] at ran
        have same : P.tab _ _ = (t', w') := Except.ok.inj (Option.some.inj ran)
        have kept := tab_shared (P := P) (t.keypressed (P.color w.shared) (.ascii 9) w.session.out).2.1
          (w.withOut (t.keypressed (P.color w.shared) (.ascii 9) w.session.out).2.2)
        rw [same] at kept
        exact kept ▸ moves.refl _
      · simp only [Terminal.symbol, tab, if_false] at ran
        cases ran
        exact moves.refl _
  | clear =>
      cases ran
      exact (prompt_shared _).symm ▸ moves.refl _
  | backspace | canc | left | right | home | end' | ignored =>
      cases ran
      exact moves.refl _

end Shared

section Call

variable (P self) {w : World ι S} {cmd : Text} {h : H} {args : Args}

theorem feed_call (fuel : Nat) (good : w.session.history.Good)
    (noGlobal : globalScopeMenu.scanCmds () (split cmd) = none)
    (found : (P.menus w.shared).scanCmds w.session.current (split cmd) = some (.call h args)) :
    ∃ after, P.feed self (fuel + 1) w cmd = some (.ok after) ∧
      after.shared = (P.handler self h args w.shared).shared := by
  have some' : split cmd ≠ [] := by
    intro blank
    obtain ⟨m, f, rest, -, ends, taken⟩ := Menus.takes_of_call found
    rw [blank, List.suffix_nil] at ends
    rw [ends] at taken
    cases taken
  have plain : recalls cmd = none := by simp only [recalls, noGlobal]
  obtain ⟨history, -, obeyed⟩ := feed_obey P self fuel good some' plain
  refine ⟨_, obeyed, ?_⟩
  have scanned : (P.menus (w.withHistory history).shared).scanCmds
      (w.withHistory history).session.current (split cmd) = some (.call h args) := found
  simp only [obey, noGlobal]
  rw [execute, scanned, report_shared]
  rfl

/-- **A line that calls a handler** changes what is shared as the handler does. -/
theorem keypressed_call (fuel : Nat) {t : Terminal} (good : w.session.history.Good)
    (noGlobal : globalScopeMenu.scanCmds () (split t.currentLine) = none)
    (found : (P.menus w.shared).scanCmds w.session.current (split t.currentLine) =
      some (.call h args)) :
    ∃ t' w', P.keypressed self (fuel + 1) t w .ret = some (.ok (t', w')) ∧
      w'.shared = (P.handler self h args w.shared).shared := by
  obtain ⟨after, fed, shared⟩ := feed_call P self fuel
    (w := w.withOut (w.session.out.put [13, 10])) good noGlobal found
  refine ⟨_, P.prompt after, (keypressed_eq _ _ _ _).trans (congrArg (Option.map _) fed), ?_⟩
  rw [prompt_shared, shared]
  rfl

end Call

/-! ## How the process ends -/

section Ends

variable {fuel : Nat} {t : Terminal} {w : World ι S} {k : Key} {what : Text}

/-- What a line throws is caught; only an assertion ends the process. -/
theorem feed_no_exception {cmd : Text} :
    P.feed self fuel w cmd ≠ some (.error (.exception what)) := by
  induction fuel generalizing w cmd with
  | zero => simp [feed]
  | succ fuel ih =>
      intro fed
      simp only [feed] at fed
      split at fed
      · cases fed
      · split at fed
        · cases fed
        · split at fed
          · cases fed
          · cases fed
          · simp only [showHistory] at fed
            split at fed <;> cases fed
          · split at fed
            · cases fed
            · split at fed
              · exact ih fed
              · cases fed
              · cases fed
          · cases fed

theorem arrow_no_exception {found : Except Failure (Text × History)}
    (ran : some ((orAssertion found).map fun (line, history) =>
      P.setLine t (w.withHistory history) line) = some (.error (.exception what))) : False := by
  cases found <;> cases ran

/-- **An exception leaves the event loop** exactly when the end of the file is typed and
the exit action throws. -/
theorem keypressed_exception_iff :
    P.keypressed self fuel t w k = some (.error (.exception what)) ↔
      k = .eof ∧ (P.sessionExit self w.shared).what = some what := by
  rw [keypressed_eq]
  cases k with
  | eof =>
      simp only [Terminal.symbol, newCommand, Program.exit, true_and]
      cases thrown : (P.sessionExit self w.shared).what with
      | none => simp [World.withOut, thrown]
      | some other => simp [World.withOut, thrown]
  | ret =>
      refine iff_of_false (fun ran => ?_) (by simp)
      obtain ⟨result, fed, same⟩ := Option.map_eq_some_iff.mp ran
      cases result with
      | ok after => cases same
      | error ending =>
          cases same
          exact feed_no_exception fed
  | up | down => exact iff_of_false arrow_no_exception (by simp)
  | ascii c =>
      refine iff_of_false (fun ran => ?_) (by simp)
      by_cases tab : c = 9
      · simp only [Terminal.symbol, tab, if_true] at ran
        cases ran
      · simp only [Terminal.symbol, tab, if_false] at ran
        cases ran
  | clear | backspace | canc | left | right | home | end' | ignored =>
      refine iff_of_false (fun ran => ?_) (by simp)
      cases ran

/-- The end of the file, when the process goes on. -/
theorem keypressed_eof {t' : Terminal} {w' : World ι S}
    (ran : P.keypressed self fuel t w .eof = some (.ok (t', w'))) :
    (P.sessionExit self w.shared).what = none ∧
      w'.shared =
        P.storeCommands w.session.history.getCommands (P.sessionExit self w.shared).shared := by
  rw [keypressed_eq] at ran
  simp only [Terminal.symbol, newCommand, Program.exit] at ran
  cases thrown : (P.sessionExit self w.shared).what with
  | none =>
      simp only [World.withOut, thrown] at ran
      cases ran
      exact ⟨rfl, rfl⟩
  | some what =>
      simp only [World.withOut, thrown] at ran
      cases ran

end Ends

/-! ## Runs -/

/-- What happens to a session. -/
inductive Input (S : Type w) where
  | key (k : Key)
  /-- Another session, or a log record, writes to this one and changes what is shared. -/
  | foreign (t : Text) (shared : S)

/-- One input.  A process that has ended, and a line that is nested too deep, give `none`. -/
def step (P : Program ι H S O) (self : O) (fuel : Nat) (s : Terminal × World ι S) :
    Input S → Option (Terminal × World ι S)
  | .key k =>
      match P.keypressed self fuel s.1 s.2 k with
      | some (.ok after) => some after
      | _ => none
  | .foreign t shared => some (s.1, { s.2 with shared := shared }.write t)

/-- A session as the library starts it. -/
def opened (P : Program ι H S O) (historySize : Nat) (stored : List Text) (shared : S) :
    Terminal × World ι S :=
  (.start, P.prompt
    { session := {
        current := P.rootMenu
        history := History.loadCommands { maxSize := historySize } stored }
      shared := shared })

theorem step_key {fuel : Nat} {s s' : Terminal × World ι S} {k : Key} (stepped : step P self fuel s (.key k) = some s') :
    P.keypressed self fuel s.1 s.2 k = some (.ok s') := by
  simp only [step] at stepped
  split at stepped
  · rename_i after ran
    cases stepped
    exact ran
  · cases stepped

end Program

end Lynx.Cli
