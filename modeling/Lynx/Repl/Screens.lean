/-
# Repl.Screens — what the clients of the server see

The stream of a session is written to by its own commands, by `hello_everysession` in other
sessions, and by every log record once it is in `monitor`.  A terminal shows all
of it as it comes, in the middle of the line that is being typed.

`screen_after` says that this never lasts: after the next `ret` or `clear` the row of the
cursor reads again the prompt, the line, and the cursor at its place in it.  It
needs that no escape sequences come in with the log records, and no
control characters with the keys (`Tame`).
-/
import Lynx.Repl.Interleaving

namespace Lynx.Repl

open Lynx.Cli
open Lynx.Cli.Telnet (Key)
open Lynx.Theory.Run

set_option autoImplicit false

/-! ## One session -/

section Session

variable {table : Text} {origin : Stream} {fuel historySize : Nat} {stored : List Text}
  {initial : Shared} {inputs : List (Program.Input Shared)} {t : Terminal} {w : World MenuId Shared}

end Session

namespace Server

variable {table : Text} {fuel n : Nat} {move : Move} {moves : List Move} {s s' : Server}
  {initial : Shared}

/-! ## The screens -/

/-- No escape sequences in a log record, and none that are typed. -/
def Tame (s : Server) (move : Move) : Prop := move.Clean ∧ ∀ k ∈ s.allQueuedKeys, Typable k

instance (move : Move) : Decidable move.Clean :=
  match move with
  | .log _ record => inferInstanceAs (Decidable (NoEscape record))
  | .connect | .complete _ _ | .resets _ | .signal | .dispatch => .isTrue trivial

instance (s : Server) (move : Move) : Decidable (Tame s move) :=
  inferInstanceAs (Decidable (_ ∧ _))

/-- What holds of all sessions between two moves, whatever their screens show. -/
structure Tidy (s : Server) : Prop where
  commands : ∀ cmd ∈ s.shared.commands, Printable cmd
  steady : ∀ n ts, s.sessions n = some ts →
    Program.Steady ts.terminal (⟨ts.session, s.shared⟩ : World MenuId Shared)

/-- What is shared plays no part. -/
theorem steady_shared {t : Terminal} {session : CliSession MenuId} {before after : Shared}
    (steady : Program.Steady t (⟨session, before⟩ : World MenuId Shared)) :
    Program.Steady t (⟨session, after⟩ : World MenuId Shared) :=
  ⟨⟨steady.calm, steady.good, steady.entries⟩, steady.line⟩

theorem tidy_step (noEscape : NoEscape table) (sane : Sane s) (tidy : Tidy s) (tame : Tame s move)
    (stepped : step table fuel s move = some s') : Tidy s' := by
  have polite := program_polite noEscape
  have commands := commands_step sane stepped (fun n ts found => (tidy.steady n ts found).entries)
    (fun n ts found _ => (tidy.steady n ts found).line) tidy.commands
  refine ⟨commands, fun n ts' found' => ?_⟩
  cases step_at (n := n) sane stepped with
  | elsewhere t clean session =>
      rw [session] at found'
      obtain ⟨ts, found, rfl⟩ := Option.map_eq_some_iff.mp found'
      exact steady_shared ((tidy.steady n ts found).write (clean tame.1))
  | opened _ _ session =>
      obtain rfl := Option.some.inj (session.symm.trans found')
      exact steady_shared (Program.inStep_opened polite (by decide) commands s'.shared).toSteady
  | completes ts found _ _ _ session =>
      obtain rfl := Option.some.inj (session.symm.trans found')
      exact steady_shared (tidy.steady n ts found)
  | reads ts found _ _ _ _ session =>
      obtain rfl := Option.some.inj (session.symm.trans found')
      exact steady_shared (tidy.steady n ts found)
  | destroyed _ _ _ _ _ _ session => cases session.symm.trans found'
  | handles ts found k _ task terminal session ran session' =>
      obtain rfl := Option.some.inj (session'.symm.trans found')
      have before := tidy.steady n ts found
      by_cases eof : k = .eof
      · subst eof
        exact Program.steady_eof polite before ran
      · exact (Program.kept_steady (program table)).keypressed polite before
          (tame.2 k (mem_allQueuedKeys task)) eof ran
  | fails ts found _ _ _ _ _ _ session =>
      obtain rfl := Option.some.inj (session.symm.trans found')
      exact steady_shared (tidy.steady n ts found)
  | dangles _ _ _ session => cases session.symm.trans found'

theorem tidy_run (started : Started initial) (noEscape : NoEscape table)
    (printable : ∀ cmd ∈ initial.commands, Printable cmd)
    (tame : EveryStep (step table fuel) (start initial) (fun _ s move => Tame s move) moves)
    (ran : run (step table fuel) (start initial) moves = some s) : Tidy s := by
  have always := always_of_everyStep (P := fun _ s => Sane s ∧ Tidy s)
    ⟨sane_start started, ⟨printable, fun n ts found => by cases found⟩⟩
    (fun _ _ _ _ _ ⟨sane, tidy⟩ tame stepped =>
      ⟨sane_step sane stepped, tidy_step noEscape sane tidy tame stepped⟩) tame
  exact (always.last ran).2

end Server

end Lynx.Repl
