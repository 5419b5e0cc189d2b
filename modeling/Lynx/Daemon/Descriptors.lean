/-
# Daemon.Descriptors — what `daemonize` does to open files and sockets

`daemonize` closes 0, 1 and 2 without asking what they are and relies on the
lowest free number to put `/dev/null` and the output file there.  That always
works (`redirect_spec`), and nothing else is closed except what asio re-creates
(`notifyForkChild_spec`).  But a descriptor below 3 that was free at the start has been given
to the first file lynx opened, its log file.  So every file and socket survives
exactly when the process was started with all three open
(`descriptorsKept_iff`).
-/
import Lynx.Daemon.Process

namespace Lynx.Daemon

open Lynx.Theory.DescriptorTable
open Lynx.Theory.PathResolution

set_option autoImplicit false

/-- What `daemonize` is to leave: `/dev/null` on 0, the output file on 1 and 2, and
every object opened before the call where it was.  The inherited standard streams
are replaced, and asio re-creates its own descriptors. -/
structure DescriptorsKept (cfg : Dconfig) (before after : Proc) : Prop where
  input : Table.get after.fds 0 = some (.path "/dev/null" Proc.readOnly)
  output : Table.get after.fds 1 = some (.path cfg.outputFile cfg.fileFlags)
  error : Table.get after.fds 2 = some (.path cfg.outputFile cfg.fileFlags)
  kept : ∀ n x, Table.get before.fds n = some x → ¬ (n < 3 ∧ ∃ id, x = .inherited id) →
    n ∉ before.recreated → Table.get after.fds n = some x

namespace Proc

/-! ## Start-up -/

theorem open_keeps (p : Proc) (opening : Opening) :
    Table.Keeps [] p.fds (p.open_ opening).fds := by
  cases opening with
  | file id => exact Table.keeps_place _ _ _
  | socket id => exact Table.keeps_place _ _ _
  | signalPipe => exact (Table.keeps_place _ _ _).trans (Table.keeps_place _ _ _)

/-- The numbers asio keeps are those of its own objects. -/
def ReactorOpen (p : Proc) : Prop :=
  ∀ n ∈ p.recreated, ∃ x ∈ Object.internal, Table.get p.fds n = some x

theorem init_reactorOpen (inherited : Table Nat) (cwd : Location) (umask : Nat) :
    (init inherited cwd umask).ReactorOpen := by
  intro n member
  have cases_ : n = (init inherited cwd umask).epoll ∨ n = (init inherited cwd umask).timer ∨
      n = (init inherited cwd umask).interrupter := by
    simpa [recreated, init] using member
  rcases cases_ with rfl | rfl | rfl
  · refine ⟨.epoll, by simp [Object.internal], ?_⟩
    apply Table.keeps_place []
    · simp
    · simp [init, Table.get_place]
  · exact ⟨.timer, by simp [Object.internal], by simp [init, Table.get_place]⟩
  · refine ⟨.interrupter, by simp [Object.internal], ?_⟩
    apply ((Table.keeps_place [] Object.epoll _).trans (Table.keeps_place [] Object.timer _))
    · simp
    · simp [init, Table.get_place]

theorem open_reactorOpen {p : Proc} (good : p.ReactorOpen) (opening : Opening) :
    (p.open_ opening).ReactorOpen := by
  intro n member
  by_cases before : n ∈ p.recreated
  · obtain ⟨x, internal, there⟩ := good n before
    exact ⟨x, internal, open_keeps p opening n x (by simp) there⟩
  · cases opening with
    | file id => exact absurd member before
    | socket id => exact absurd member before
    | signalPipe =>
        have new : n = Table.lowestFree p.fds ∨
            n = Table.lowestFree (Table.place (.signalPipe false) p.fds) := by
          simp only [recreated, open_, List.mem_append, List.mem_cons, List.not_mem_nil,
            or_false] at member before
          rcases member with reactor | pipe
          · exact absurd (.inl reactor) before
          · exact pipe
        rcases new with rfl | rfl
        · refine ⟨.signalPipe false, by simp [Object.internal], ?_⟩
          apply Table.keeps_place []
          · simp
          · simp [Table.get_place]
        · exact ⟨.signalPipe true, by simp [Object.internal], by simp [open_, Table.get_place]⟩

theorem startUp_spec (inherited : Table Nat) (cwd : Location) (umask : Nat)
    (openings : List Opening) :
    Table.Keeps [] (init inherited cwd umask).fds (startUp inherited cwd umask openings).fds ∧
      (startUp inherited cwd umask openings).ReactorOpen := by
  unfold startUp
  have good := init_reactorOpen inherited cwd umask
  generalize init inherited cwd umask = p at good
  induction openings generalizing p with
  | nil => exact ⟨Table.Keeps.refl _ _, good⟩
  | cons opening rest ih =>
      obtain ⟨kept, reactor⟩ := ih (p.open_ opening) (open_reactorOpen good opening)
      exact ⟨(open_keeps p opening).trans kept, reactor⟩

/-- What was open at the start and the log file, which took the lowest free number. -/
theorem startUp_get (inherited : Table Nat) (cwd : Location) (umask : Nat)
    (openings : List Opening) :
    (∀ n id, Table.get inherited n = some id →
      Table.get (startUp inherited cwd umask openings).fds n = some (.inherited id)) ∧
    Table.get (startUp inherited cwd umask openings).fds (Table.lowestFree inherited) =
      some .logFile := by
  obtain ⟨kept, -⟩ := startUp_spec inherited cwd umask openings
  have reactor : Table.Keeps [] (Table.place .logFile (inherited.map (Option.map Object.inherited)))
      (init inherited cwd umask).fds :=
    ((Table.keeps_place [] Object.interrupter _).trans (Table.keeps_place [] Object.epoll _)).trans
      (Table.keeps_place [] Object.timer _)
  constructor
  · intro n id there
    apply (((Table.keeps_place [] Object.logFile _).trans reactor).trans kept)
    · simp
    · rw [Table.get_map, there]
      rfl
  · apply reactor.trans kept
    · simp
    · rw [Table.get_place, Table.lowestFree_map, if_pos rfl]

/-! ## The standard descriptors -/

/-- The redirection works, wherever the closed descriptors led. -/
theorem redirect_spec {cfg : Dconfig} {p r : Proc} (redirected : p.redirect cfg = some r) :
    r.recreated = p.recreated ∧
    ∀ n, Table.get r.fds n =
      if n = 0 then some (.path "/dev/null" readOnly)
      else if n = 1 ∨ n = 2 then some (.path cfg.outputFile cfg.fileFlags)
      else Table.get p.fds n := by
  have closed : ∀ n, Table.get p.closeStandard.fds n =
      if n < 3 then none else Table.get p.fds n := by
    intro n
    simp only [closeStandard, Table.get_close]
    split_ifs <;> first | rfl | omega
  have free0 : Table.lowestFree p.closeStandard.fds = 0 :=
    Table.lowestFree_eq_iff.mpr ⟨by simp [closed], fun m below => absurd below (Nat.not_lt_zero m)⟩
  have input : ∀ n, Table.get (p.closeStandard.openPath "/dev/null" readOnly).fds n =
      if n = 0 then some (.path "/dev/null" readOnly)
      else if n < 3 then none else Table.get p.fds n := by
    intro n
    simp only [openPath, Table.get_place, free0, closed]
  have free1 : Table.lowestFree (p.closeStandard.openPath "/dev/null" readOnly).fds = 1 := by
    refine Table.lowestFree_eq_iff.mpr ⟨by simp [input], fun m below => ?_⟩
    obtain rfl : m = 0 := by omega
    simp [input]
  have output : ∀ n, Table.get ((p.closeStandard.openPath "/dev/null" readOnly).openPath
        cfg.outputFile cfg.fileFlags).fds n =
      if n = 1 then some (.path cfg.outputFile cfg.fileFlags)
      else if n = 0 then some (.path "/dev/null" readOnly)
      else if n < 3 then none else Table.get p.fds n := by
    intro n
    rw [openPath, Table.get_place, free1, input]
  have free2 : Table.lowestFree ((p.closeStandard.openPath "/dev/null" readOnly).openPath
      cfg.outputFile cfg.fileFlags).fds = 2 := by
    refine Table.lowestFree_eq_iff.mpr ⟨by simp [output], fun m below => ?_⟩
    obtain rfl | rfl : m = 0 ∨ m = 1 := by omega
    · simp [output]
    · simp [output]
  unfold redirect dup at redirected
  rw [output 1] at redirected
  obtain rfl := Option.some.inj redirected
  refine ⟨rfl, fun n => ?_⟩
  rw [Table.get_place, free2, output]
  split_ifs <;> first | rfl | omega

/-- `notify_fork` closes nothing but the descriptors it re-creates. -/
theorem notifyForkChild_spec {sys : Sys} {p q : Proc} (notified : p.notifyForkChild sys = .ok q) :
    Table.Keeps p.recreated p.fds q.fds ∧ Table.Adds Object.internal p.fds q.fds := by
  obtain ⟨-, -, -, -, rfl⟩ := notifyForkChild_eq_ok_iff.mp notified
  have reactor : Table.Keeps p.recreated p.fds p.reopenEpoll.reopenTimer.reopenInterrupter.fds ∧
      Table.Adds Object.internal p.fds p.reopenEpoll.reopenTimer.reopenInterrupter.fds := by
    constructor
    · refine ((Table.keeps_reopen ?_ _ _).trans (Table.keeps_reopen ?_ _ _)).trans
        (Table.keeps_reopen ?_ _ _)
      · simp [recreated]
      · simp [recreated, reopenEpoll]
      · simp [recreated, reopenEpoll, reopenTimer]
    · refine ((Table.adds_reopen _ ?_ _).trans (Table.adds_reopen _ ?_ _)).trans
        (Table.adds_reopen _ ?_ _) <;> simp [Object.internal]
  obtain ⟨kept, added⟩ := reactor
  generalize same : p.reopenEpoll.reopenTimer.reopenInterrupter = r at kept added ⊢
  have pipe : r.signalPipe = p.signalPipe := by
    rw [← same]
    rfl
  unfold reopenSignalPipe
  rw [pipe]
  cases ends : p.signalPipe with
  | none => exact ⟨kept, added⟩
  | some both =>
      obtain ⟨read, write⟩ := both
      constructor
      · refine kept.trans (((Table.keeps_close ?_ _).trans (Table.keeps_close ?_ _)).trans
          ((Table.keeps_place _ _ _).trans (Table.keeps_place _ _ _))) <;>
          simp [recreated, ends]
      · refine added.trans (((Table.adds_close _ _ _).trans (Table.adds_close _ _ _)).trans
          ((Table.adds_place ?_ _).trans (Table.adds_place ?_ _))) <;> simp [Object.internal]

theorem openlog_keeps (sys : Sys) (p : Proc) : Table.Keeps [] p.fds (p.openlog sys).fds := by
  unfold openlog
  split
  · exact Table.keeps_place _ _ _
  · exact Table.Keeps.refl _ _

theorem openlog_adds (sys : Sys) (p : Proc) : Table.Adds [.syslog] p.fds (p.openlog sys).fds := by
  unfold openlog
  split
  · exact Table.adds_place (by simp) _
  · exact fun n x there => .inr there

end Proc

/-! ## The whole call -/

/-- After a normal return a descriptor that asio does not re-create is what the
redirection left, and every descriptor is that, asio's, or the one of `syslog`. -/
theorem daemonize_get {cfg : Dconfig} {sys : Sys} {p q : Proc}
    (returned : daemonize cfg sys p = .ok q) :
    ∃ redirected, (p.detach cfg).redirect cfg = some redirected ∧
      Table.Keeps p.recreated redirected.fds q.fds ∧
      ∀ n x, Table.get q.fds n = some x →
        x = .syslog ∨ x ∈ Object.internal ∨ Table.get redirected.fds n = some x := by
  obtain ⟨-, redirected, notified, found, ok, rfl⟩ := daemonize_eq_ok_iff.mp returned
  obtain ⟨sameNumbers, -⟩ := Proc.redirect_spec found
  obtain ⟨kept, added⟩ := Proc.notifyForkChild_spec ok
  rw [sameNumbers] at kept
  refine ⟨redirected, found, ?_, fun n x there => ?_⟩
  · exact kept.trans ((Proc.openlog_keeps sys notified).mono (List.nil_subset _))
  · rcases Proc.openlog_adds sys notified n x there with isSyslog | before
    · exact .inl (List.mem_singleton.mp isSyslog)
    · exact .inr (added n x before)

section

variable {inherited : Table Nat} {cwd : Location} {umask : Nat} {openings : List Proc.Opening}
  {cfg : Dconfig} {sys : Sys} {q : Proc}

/-- The log file took the lowest free number, and below 3 it is closed there. -/
theorem standard_of_descriptorsKept
    (returned : daemonize cfg sys (Proc.startUp inherited cwd umask openings) = .ok q)
    (good : DescriptorsKept cfg (Proc.startUp inherited cwd umask openings) q) :
    ∀ n, n < 3 → Table.get inherited n ≠ none := by
  intro n below free
  obtain ⟨redirected, found, -, added⟩ := daemonize_get returned
  obtain ⟨-, redirectedGet⟩ := Proc.redirect_spec found
  obtain ⟨-, log⟩ := Proc.startUp_get inherited cwd umask openings
  obtain ⟨-, reactor⟩ := Proc.startUp_spec inherited cwd umask openings
  have standard : Table.lowestFree inherited < 3 := by
    have first : ¬ n < Table.lowestFree inherited := fun lower =>
      Table.get_ne_none_of_lt lower free
    omega
  generalize Table.lowestFree inherited = m at log standard
  have outside : m ∉ (Proc.startUp inherited cwd umask openings).recreated := by
    intro member
    obtain ⟨x, internal, there⟩ := reactor m member
    rw [log] at there
    obtain rfl := Option.some.inj there
    simp [Object.internal] at internal
  have there := good.kept m .logFile log (by simp) outside
  rcases added m .logFile there with isSyslog | internal | before
  · cases isSyslog
  · simp [Object.internal] at internal
  · rw [redirectedGet] at before
    split_ifs at before
    · cases before
    · cases before
    · omega

/-- With 0, 1 and 2 inherited, only they are redirected. -/
theorem descriptorsKept_of_standard
    (returned : daemonize cfg sys (Proc.startUp inherited cwd umask openings) = .ok q)
    (taken : ∀ n, n < 3 → Table.get inherited n ≠ none) :
    DescriptorsKept cfg (Proc.startUp inherited cwd umask openings) q := by
  obtain ⟨redirected, found, kept, -⟩ := daemonize_get returned
  obtain ⟨-, redirectedGet⟩ := Proc.redirect_spec found
  obtain ⟨fromStart, -⟩ := Proc.startUp_get inherited cwd umask openings
  obtain ⟨-, reactor⟩ := Proc.startUp_spec inherited cwd umask openings
  generalize Proc.startUp inherited cwd umask openings = p at *
  have standard : ∀ n, n < 3 → n ∉ p.recreated := by
    intro n below member
    obtain ⟨id, start⟩ := Option.ne_none_iff_exists'.mp (taken n below)
    obtain ⟨x, internal, there⟩ := reactor n member
    rw [fromStart n id start] at there
    obtain rfl := Option.some.inj there
    simp [Object.internal] at internal
  have redirectedTo : ∀ n x, n < 3 → Table.get redirected.fds n = some x →
      Table.get q.fds n = some x := fun n x below there => kept n x (standard n below) there
  refine ⟨redirectedTo 0 _ (by omega) (by simp [redirectedGet]),
    redirectedTo 1 _ (by omega) (by simp [redirectedGet]),
    redirectedTo 2 _ (by omega) (by simp [redirectedGet]), ?_⟩
  intro n x there notStandard outside
  refine kept n x outside ?_
  have high : 3 ≤ n := by
    by_contra low
    obtain ⟨id, start⟩ := Option.ne_none_iff_exists'.mp (taken n (by omega))
    rw [fromStart n id start] at there
    exact notStandard ⟨by omega, id, (Option.some.inj there).symm⟩
  rw [redirectedGet, if_neg (by omega), if_neg (by omega)]
  exact there

end

/-- **When every file and socket survives.**  For every start-up, `daemonize`
leaves the standard descriptors redirected and everything opened before where it
was exactly when the process was started with 0, 1 and 2 open. -/
theorem descriptorsKept_iff {inherited : Table Nat} {cwd : Location} {umask : Nat}
    {openings : List Proc.Opening} {cfg : Dconfig} {sys : Sys} {q : Proc}
    (returned : daemonize cfg sys (Proc.startUp inherited cwd umask openings) = .ok q) :
    DescriptorsKept cfg (Proc.startUp inherited cwd umask openings) q ↔
      ∀ n, n < 3 → Table.get inherited n ≠ none :=
  ⟨standard_of_descriptorsKept returned, descriptorsKept_of_standard returned⟩

/-- The servers of `main` and the pipe of its signal sets. -/
def mainOpenings : List Proc.Opening := [.socket 8080, .socket 8888, .signalPipe]

/-- A launch from a terminal. -/
theorem descriptorsKept_iff_terminal :
    ∃ q, daemonize {} {} (Proc.startUp [some 0, some 1, some 2] [] 0o22 mainOpenings) = .ok q ∧
      (DescriptorsKept {} (Proc.startUp [some 0, some 1, some 2] [] 0o22 mainOpenings) q ↔
        ∀ n, n < 3 → Table.get [some 0, some 1, some 2] n ≠ none) := by
  have returned : daemonize {} {} (Proc.startUp [some 0, some 1, some 2] [] 0o22 mainOpenings) =
      .ok _ := rfl
  exact ⟨_, returned, descriptorsKept_iff returned⟩

/-- Started with descriptor 0 closed, the log file is closed with it. -/
theorem closedInput_loses_log :
    ¬ ∀ (inherited : Table Nat) (cwd : Location) (umask : Nat) (openings : List Proc.Opening)
        (cfg : Dconfig) (sys : Sys) (q : Proc),
      daemonize cfg sys (Proc.startUp inherited cwd umask openings) = .ok q →
      DescriptorsKept cfg (Proc.startUp inherited cwd umask openings) q := by
  intro everyStart
  have kept := everyStart [none, some 1, some 2] [] 0o22 mainOpenings {} {} _ rfl
  have log := kept.kept 0 .logFile (by decide) (by simp) (by decide)
  rw [kept.input] at log
  cases log

end Lynx.Daemon
