/-
# Repl.Startup — what the sessions share, and the file that is read at the start

`Commanded` is what the commands of one session can do to what all of them share.  They keep
the sessions that exist and the sockets of the others, and what they do to the lists of streams is a
run of `Repl.step`.

`startFile` is the block of `main` around `start_file_session`, and `Started` what holds when
the loop starts.  `startFile_settled` says of every `etc/repl.in` how it ends:
lynx starts, but for a file whose first command is a `!`, which fails an assertion.
-/
import Lynx.Cli.FileSession
import Lynx.Repl.Commands

namespace Lynx.Repl

open Lynx.Cli
open Lynx.Cli.Telnet (Key)
open Lynx.Theory.Run

set_option autoImplicit false

/-! ## What a command can do to what is shared -/

/-- The events of a session's own commands. -/
def Event.isCommandOf (origin : Stream) : Event → Prop
  | .monitor out | .nomonitor out | .helloEverysession out | .exit out => out = origin
  | _ => False

/-- What the commands of a session leave alone, and that what they do to the lists is a
run of `Repl.step`. -/
structure Commanded (origin : Stream) (s s' : Shared) : Prop where
  phase : s'.repl.phase = s.repl.phase
  sessions : s'.repl.sessions = s.repl.sessions
  connections : s'.repl.connections = s.repl.connections
  sockets : s'.sockets.length = s.sockets.length
  others : ∀ n, .telnet n ≠ origin → s'.socket n = s.socket n
  closed : ∀ n, s.socket n = .closed → s'.socket n = .closed
  performs : s.repl.commands origin = true → ∃ events, (∀ e ∈ events, e.isCommandOf origin) ∧
    run Repl.step s.repl events = some s'.repl

theorem Commanded.of_repl {origin : Stream} {s s' : Shared} (repl : s'.repl = s.repl)
    (sockets : s'.sockets = s.sockets) : Commanded origin s s' where
  phase := by rw [repl]
  sessions := by rw [repl]
  connections := by rw [repl]
  sockets := by rw [sockets]
  others _ _ := by rw [Shared.socket, Shared.socket, sockets]
  closed _ closed := by rwa [Shared.socket, sockets]
  performs _ := ⟨[], by simp, by rw [repl]; rfl⟩

theorem commands_congr {s s' : State} (phase : s'.phase = s.phase)
    (sessions : s'.sessions = s.sessions) (out : Stream) : s'.commands out = s.commands out := by
  simp only [State.commands, phase, sessions]

theorem Commanded.trans {origin : Stream} {a b c : Shared} (first : Commanded origin a b)
    (second : Commanded origin b c) : Commanded origin a c where
  phase := second.phase.trans first.phase
  sessions := second.sessions.trans first.sessions
  connections := second.connections.trans first.connections
  sockets := second.sockets.trans first.sockets
  others n different := (second.others n different).trans (first.others n different)
  closed n closed := second.closed n (first.closed n closed)
  performs running := by
    obtain ⟨events, own, ran⟩ := first.performs running
    obtain ⟨more, ownMore, ranMore⟩ := second.performs
      ((commands_congr first.phase first.sessions _).trans running)
    refine ⟨events ++ more, fun e member => ?_, by rw [run_append, ran, Option.bind_some, ranMore]⟩
    exact (List.mem_append.mp member).elim (own e) (ownMore e)

theorem Commanded.perform {origin : Stream} {s : Shared} {e : Event} (own : e.isCommandOf origin)
    (others : origin ≠ .stdout) : Commanded origin s (s.perform e) where
  phase := by
    cases e with
    | exit out =>
        cases own
        cases origin with
        | stdout => exact absurd rfl others
        | outfile | telnet _ => rfl
    | monitor | nomonitor | helloEverysession => rfl
    | accept | readCompletes | endFileBlock | log | signal => cases own
  sessions := by
    cases e with
    | exit out => cases out <;> rfl
    | monitor | nomonitor | helloEverysession => rfl
    | accept | readCompletes | endFileBlock | log | signal => cases own
  connections := by
    cases e with
    | exit out => cases out <;> rfl
    | monitor | nomonitor | helloEverysession => rfl
    | accept | readCompletes | endFileBlock | log | signal => cases own
  sockets := rfl
  others _ _ := rfl
  closed _ closed := closed
  performs running := by
    refine ⟨[e], by simpa using own, ?_⟩
    have can : enabled s.repl e = true := by
      cases e with
      | exit | monitor | nomonitor | helloEverysession =>
          cases own
          exact running
      | accept | readCompletes | endFileBlock | log | signal => cases own
    rw [run_cons, step_eq_some_iff.mpr ⟨can, rfl⟩]
    rfl

section Program

variable (table : Text) {origin : Stream} (notLocal : origin ≠ .stdout)
include notLocal

theorem Commanded.handle (h : Handler) (args : Args) (s : Shared) :
    Commanded origin s (handle table origin h args s).shared := by
  have same : Commanded origin s s := .of_repl rfl rfl
  unfold Repl.handle
  split
  case h_4 => exact .perform rfl notLocal
  case h_5 => exact .perform rfl notLocal
  case h_6 => exact .perform rfl notLocal
  case h_17 => exact .of_repl rfl rfl
  case h_18 => exact .of_repl rfl rfl
  case h_19 => exact .of_repl rfl rfl
  all_goals exact same

theorem Commanded.sessionExit (s : Shared) : Commanded origin s (sessionExit origin s).shared := by
  have performed : Commanded origin s (s.perform (.exit origin)) := .perform rfl notLocal
  cases origin with
  | stdout => exact absurd rfl notLocal
  | outfile => exact performed
  | telnet connection =>
      simp only [Repl.sessionExit]
      split
      · exact performed
      · refine performed.trans ⟨rfl, rfl, rfl, by simp [prints, Shared.perform], ?_, ?_,
          fun _ => ⟨[], by simp, rfl⟩⟩
        · intro n different
          have other : connection ≠ n := fun same => different (by rw [same])
          simp only [Shared.socket, prints, Shared.perform, List.getD_eq_getElem?_getD]
          rw [List.getElem?_set_ne other]
        · intro n closed
          by_cases own : connection = n
          · subst own
            by_cases inside : connection < s.sockets.length
            · simp [Shared.socket, prints, Shared.perform, inside]
            · have outside : s.sockets.length ≤ connection := Nat.not_lt.mp inside
              simp [Shared.socket, prints, Shared.perform, outside]
          · simp only [Shared.socket, prints, Shared.perform, List.getD_eq_getElem?_getD] at closed ⊢
            rwa [List.getElem?_set_ne own]

omit notLocal in
theorem Commanded.store (cmds : List Text) (s : Shared) : Commanded origin s (s.store cmds) := by
  apply Commanded.of_repl
  · simp only [Shared.store]
  · simp only [Shared.store]

theorem moves_program :
    (program table).Moves origin (fun _ => True) (Commanded origin) where
  refl _ := .of_repl rfl rfl
  trans := .trans
  handler := Commanded.handle table notLocal
  sessionExit := Commanded.sessionExit notLocal
  storeCommands cmds s _ := Commanded.store cmds s

end Program

/-- A key moves what the sessions share as the commands of its session do. -/
theorem commanded_keypressed {table : Text} {n fuel : Nat} {t t' : Terminal}
    {w w' : World MenuId Shared} {k : Key} (good : w.session.history.Good)
    (ran : (program table).keypressed (.telnet n) fuel t w k = some (.ok (t', w'))) :
    Commanded (.telnet n) w.shared w'.shared :=
  (moves_program table (by simp)).keypressed good (fun _ _ => trivial) (fun _ => trivial) ran

/-! ## The commands that are stored for later sessions -/

section Commands

variable {p : Text → Prop}

theorem store_commands {cmds : List Text} {shared : Shared} (all : ∀ cmd ∈ cmds, p cmd)
    (before : ∀ cmd ∈ shared.commands, p cmd) : ∀ cmd ∈ (shared.store cmds).commands, p cmd := by
  intro cmd member
  simp only [Shared.store] at member
  rcases List.mem_append.mp (List.mem_of_mem_drop member) with old | new
  · exact before cmd old
  · exact all cmd new

theorem commands_handle (table : Text) (origin : Stream) (h : Handler) (args : Args)
    (shared : Shared) : (handle table origin h args shared).shared.commands = shared.commands := by
  unfold handle
  split <;> rfl

theorem commands_sessionExit (origin : Stream) (shared : Shared) :
    (sessionExit origin shared).shared.commands = shared.commands := by
  unfold sessionExit
  split
  · rfl
  · rfl
  · simp only
    split <;> rfl

/-- They come from the histories of sessions. -/
theorem moves_commands (table : Text) (origin : Stream) (p : Text → Prop) :
    (program table).Moves origin p fun a b =>
      (∀ cmd ∈ a.commands, p cmd) → ∀ cmd ∈ b.commands, p cmd where
  refl _ all := all
  trans first second all := second (first all)
  handler h args shared all := by
    have same := commands_handle table origin h args shared
    exact fun cmd member => all cmd (same ▸ member)
  sessionExit shared all := by
    have same := commands_sessionExit origin shared
    exact fun cmd member => all cmd (same ▸ member)
  storeCommands _ _ all before := store_commands all before

end Commands

/-! ## The start -/

/-- What holds when the loop starts. -/
structure Started (s : Shared) : Prop where
  looping : s.repl.phase = .loop
  connections : s.repl.connections = 0
  sockets : s.sockets = []
  noTelnet : ∀ n, .telnet n ∉ s.repl.sessions
  nodup : s.repl.sessions.Nodup
  reached : ∃ b events, run Repl.step (boot b) events = some s.repl

/-- Without a file. -/
theorem started_untouched : Started untouched where
  looping := rfl
  connections := rfl
  sockets := rfl
  noTelnet _ absurd' := by cases absurd'
  nodup := List.nodup_nil
  reached := ⟨⟨true, false, false⟩, [], rfl⟩

/-- The block of `main` around the file session, when both files are open; in daemon
mode (`dae`) without a local session. -/
def startFile (table : Text) (dae : Bool) (fuel : Nat) (input : Text) :
    Option (Except Ending Shared) :=
  ((program table).start .outfile fuel [] { repl := boot ⟨dae, true, true⟩ } input).map
    fun result => result.map fun w => w.shared.perform .endFileBlock

section File

variable {table : Text} {dae : Bool} {fuel : Nat} {input : Text} {shared : Shared}

/-- The file session before its first line. -/
def fileSession (dae : Bool) : World MenuId Shared where
  session := { current := .cli, history := { maxSize := 1 } }
  shared := { repl := boot ⟨dae, true, true⟩ }

theorem startFile_eq (table : Text) (dae : Bool) (fuel : Nat) (input : Text) :
    startFile table dae fuel input =
      ((program table).fileLoop .outfile fuel (fileSession dae) (fileLines input)).map
        fun result => result.map fun w => w.shared.perform .endFileBlock := rfl

theorem startFile_ok (ran : startFile table dae fuel input = some (.ok shared)) :
    ∃ w, (program table).fileLoop .outfile fuel (fileSession dae) (fileLines input) = some (.ok w) ∧
      shared = w.shared.perform .endFileBlock := by
  rw [startFile_eq] at ran
  obtain ⟨result, looped, same⟩ := Option.map_eq_some_iff.mp ran
  cases result with
  | error ending => cases same
  | ok w =>
      cases same
      exact ⟨w, looped, rfl⟩

theorem plain_fileSession (dae : Bool) : Program.Plain (fileSession dae).session.history :=
  ⟨History.good_start (by decide), rfl, by simp [fileSession, History.Each]⟩

/-- After a file. -/
theorem started_startFile (ran : startFile table dae fuel input = some (.ok shared)) :
    Started shared := by
  obtain ⟨w, looped, rfl⟩ := startFile_ok ran
  have moved := (moves_program table (by simp)).fileLoop (plain_fileSession dae).good
    (fun _ _ => trivial) (fun _ _ _ => trivial) looped
  have sessions : w.shared.repl.sessions = if dae then [.outfile] else [.stdout, .outfile] := by
    rw [moved.sessions]
    cases dae <;> rfl
  have connections : (fileSession dae).shared.repl.connections = 0 := by cases dae <;> rfl
  refine ⟨rfl, moved.connections.trans connections, ?_, ?_, ?_, ?_⟩
  · exact List.length_eq_zero_iff.mp moved.sockets
  · intro n
    cases dae <;> simp [Shared.perform, effect, sessions]
  · cases dae <;> simp [Shared.perform, effect, sessions]
  · have phase : w.shared.repl.phase = .fileSession := moved.phase
    obtain ⟨events, -, performed⟩ := moved.performs rfl
    refine ⟨⟨dae, true, true⟩, events ++ [.endFileBlock], ?_⟩
    have performed : run Repl.step (boot ⟨dae, true, true⟩) events = some w.shared.repl := performed
    have ends : enabled w.shared.repl .endFileBlock = true := by simp [enabled, phase]
    rw [run_snoc, performed, Option.bind_some, step_eq_some_iff.mpr ⟨ends, rfl⟩]
    rfl

/-- The commands that a file leaves to later sessions are lines of it. -/
theorem commands_startFile {p : Text → Prop}
    (holds : ∀ line ∈ fileLines input, Program.recalls line = none → p line)
    (ran : startFile table dae fuel input = some (.ok shared)) : ∀ cmd ∈ shared.commands, p cmd := by
  obtain ⟨w, looped, rfl⟩ := startFile_ok ran
  have kept := (moves_commands table .outfile p).fileLoop (plain_fileSession dae).good
    (by simp [fileSession, History.Each]) holds looped
  exact kept (by simp [fileSession])

/-- **Every file ends.**  Whatever is in `etc/repl.in`, lynx gets to its loop, with no line that
recalls in the stored history; or an assertion fails, which is when the first command
of the file recalls. -/
theorem startFile_settled (table : Text) (dae : Bool) (fuel : Nat) (input : Text) :
    ∃ result, startFile table dae (fuel + 2) input = some result ∧
      (∀ shared, result = .ok shared →
        Started shared ∧ ∀ cmd ∈ shared.commands, Program.recalls cmd = none) ∧
      ∀ ending, result = .error ending ↔
        ending = .assertion ∧
          ∃ cmd, Program.firstCommand (fileLines input) = some cmd ∧
            Program.recalls cmd ≠ none := by
  obtain ⟨looped, ran, -, ends⟩ := Program.fileLoop_settled (program table) .outfile fuel
    (fun _ => rfl) (fileLines input) (plain_fileSession dae) rfl
  have started : startFile table dae (fuel + 2) input =
      some (looped.map fun w => w.shared.perform .endFileBlock) := by
    rw [startFile_eq, ran]
    rfl
  have void : Program.Void (fileSession dae).session.history := ⟨rfl, rfl⟩
  refine ⟨_, started, ?_, ?_⟩
  · intro shared same
    rw [same] at started
    exact ⟨started_startFile started, commands_startFile (fun _ _ named => named) started⟩
  · intro ending
    have same := ends ending
    simp only [Program.RecallsNothing, void, true_and] at same
    rw [← same]
    cases looped with
    | error other => simp [Except.map]
    | ok w => simp [Except.map]

/-- **The end of a file.**  What stands after the last newline is not run. -/
theorem startFile_tail (table : Text) (dae : Bool) (fuel : Nat) (content : Text) {tail : Text}
    (noNewline : 10 ∉ tail) :
    startFile table dae fuel (content ++ 10 :: tail) = startFile table dae fuel (content ++ [10]) := by
  rw [startFile_eq, startFile_eq, fileLines_append content noNewline,
    fileLines_append content (by simp)]

end File

end Lynx.Repl
