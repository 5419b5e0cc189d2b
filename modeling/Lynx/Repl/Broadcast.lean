/-
# Repl.Broadcast — who `hello_everysession` writes to

`Cli::cout()` lists the streams of the session objects that exist
(`WellFormed.registered`).  A telnet stream is a member of its session object and
`std::cout` outlives them all, but the file session object stays in
`Repl::file_session` while `outfile` ends with its block of `main`: from then on
the registry holds a destroyed stream.  So the registry is sound after start-up
exactly when no file session was started (`broadcast_alive_iff`).
-/
import Lynx.Repl.Monitor

namespace Lynx.Repl

open Lynx.Log
open Lynx.Theory.Run

set_option autoImplicit false

/-- Start-up is over: the block of `main` around the file session has ended, or
was never entered. -/
def State.started (s : State) : Prop := s.phase ≠ .fileSession

instance (s : State) : Decidable s.started := inferInstanceAs (Decidable (s.phase ≠ .fileSession))

/-- After start-up every registered stream exists; no broadcast was ever written
to a destroyed one. -/
def BroadcastAlive (s : State) : Prop :=
  (s.started → ∀ out ∈ s.cout, s.alive out = true) ∧
    ∀ w ∈ s.writes, w.origin = .broadcast → w.alive = true

/-- Every registered stream but `outfile` exists. -/
theorem alive_of_registered {b : Boot} {s : State} (good : WellFormed b s) {out : Stream}
    (registered : out ∈ s.cout) (other : out ≠ .outfile) : s.alive out = true := by
  rw [good.registered] at registered
  cases out with
  | stdout => rfl
  | outfile => exact absurd rfl other
  | telnet n => exact decide_eq_true registered

/-- `outfile` is registered exactly when a file session was started. -/
theorem outfile_registered_iff {b : Boot} {s : State} (good : WellFormed b s) :
    .outfile ∈ s.cout ↔ b.startsFileSession = true := by
  rw [good.registered]
  exact good.fileSession

/-- While the file session reads, every registered stream exists. -/
theorem alive_of_fileSession {b : Boot} {s : State} (good : WellFormed b s)
    (reading : s.phase = .fileSession) {out : Stream} (registered : out ∈ s.cout) :
    s.alive out = true := by
  by_cases isOutfile : out = .outfile
  · subst isOutfile
    exact good.outfileOpen.mpr reading
  · exact alive_of_registered good registered isOutfile

theorem registered_alive_iff {b : Boot} {s : State} (good : WellFormed b s) (started : s.started) :
    (∀ out ∈ s.cout, s.alive out = true) ↔ b.startsFileSession = false := by
  constructor
  · intro live
    by_contra starts
    have registered := (outfile_registered_iff good).mpr (by simpa using starts)
    exact started (good.outfileOpen.mp (live .outfile registered))
  · intro noFile out registered
    refine alive_of_registered good registered ?_
    rintro rfl
    have starts := (outfile_registered_iff good).mp registered
    rw [noFile] at starts
    cases starts

/-- Without a file session no broadcast reaches a destroyed stream. -/
theorem broadcasts_alive {b : Boot} (noFile : b.startsFileSession = false) {events : List Event}
    {s : State} (ran : run step (boot b) events = some s) :
    ∀ w ∈ s.writes, w.origin = .broadcast → w.alive = true := by
  refine run_induction
    (P := fun _ t => ∀ w ∈ t.writes, w.origin = .broadcast → w.alive = true) ?_ ?_ ran
  · simp
  · intro history before e after reached written stepped w member isBroadcast
    obtain ⟨-, rfl⟩ := step_eq_some_iff.mp stepped
    have good := run_wellFormed reached
    rw [writes_effect, List.mem_append] at member
    rcases member with earlier | added
    · exact written w earlier isBroadcast
    · cases e with
      | helloEverysession by_ =>
          obtain ⟨out, registered, rfl⟩ := List.mem_map.mp added
          by_cases reading : before.phase = .fileSession
          · exact alive_of_fileSession good reading registered
          · exact (registered_alive_iff good reading).mpr noFile out registered
      | log message =>
          obtain ⟨out, -, rfl⟩ := List.mem_map.mp added
          cases isBroadcast
      | _ => cases added

/-- **When the broadcast registry is sound.**  Along a run that gets past
start-up, every registered stream exists and every `hello_everysession` writes to
existing streams exactly when no file session was started: `etc/repl.in` or
`etc/repl.out` could not be opened. -/
theorem broadcast_alive_iff {b : Boot} {events : List Event} {s : State}
    (ran : run step (boot b) events = some s) (started : s.started) :
    Always step (boot b) (fun _ t => BroadcastAlive t) events ↔
      ¬ (b.infileOpen = true ∧ b.outfileOpen = true) := by
  have noFile_iff : ¬ (b.infileOpen = true ∧ b.outfileOpen = true) ↔
      b.startsFileSession = false := by
    simp [Boot.startsFileSession]
  rw [noFile_iff]
  constructor
  · intro always
    have last : BroadcastAlive s := always.last ran
    exact (registered_alive_iff (run_wellFormed ran) started).mp (last.1 started)
  · intro noFile history t _ reached
    exact ⟨fun past => (registered_alive_iff (run_wellFormed reached) past).mpr noFile,
      broadcasts_alive noFile reached⟩

/-- A daemon that finds both files of the file session. -/
def fileBoot : Boot := { dae := true, infileOpen := true, outfileOpen := true }

/-- The file session ends, and a telnet user greets every session. -/
def helloAfterFileSession : List Event :=
  [.exit .outfile, .endFileBlock, .accept, .helloEverysession (.telnet 0)]

theorem broadcast_alive_iff_helloAfterFileSession :
    Always step (boot fileBoot) (fun _ t => BroadcastAlive t) helloAfterFileSession ↔
      ¬ (fileBoot.infileOpen = true ∧ fileBoot.outfileOpen = true) :=
  broadcast_alive_iff (s := (run step (boot fileBoot) helloAfterFileSession).get rfl) rfl
    (by decide)

/-- The greeting is written to the destroyed `outfile`. -/
theorem helloAfterFileSession_writes_destroyed :
    ¬ ∀ (b : Boot) (events : List Event) (s : State),
      run step (boot b) events = some s → BroadcastAlive s := by
  intro alive
  have written := (alive fileBoot helloAfterFileSession _ rfl).2 ⟨.broadcast, .outfile, false⟩
    (by decide) rfl
  cases written

end Lynx.Repl
