/-
# Daemon.Process — `Daemon::daemonize`, from one process's point of view

`daemonize` is run by up to three processes: each fork leaves a parent that ends
with `std::exit` and a child that goes on.  `Sys` says what the system answers in
the process that is looked at, the result of each fork included; the function
returns normally in the daemon only.

The parts of a process that matter here are its working directory, its umask and
its descriptor table, with the numbers asio keeps: the three descriptors of the
reactor, the pipe of the signal service, and the sockets registered with `epoll`.
`notify_fork(fork_child)` closes and re-creates asio's own descriptors and
registers the sockets again.

`daemonize_eq_ok_iff` is the rule for a normal return.
-/
import Lynx.Theory.DescriptorTable
import Lynx.Theory.Fallible
import Lynx.Theory.PathResolution

namespace Lynx.Daemon

open Lynx.Theory.DescriptorTable
open Lynx.Theory.Fallible
open Lynx.Theory.PathResolution

set_option autoImplicit false

/-- `dconfig`. -/
structure Dconfig where
  workingDir : Path := { absolute := true, parts := [] }
  daemonName : String := "lynx"
  outputFile : String := "/tmp/" ++ daemonName ++ ".log"
  /-- `O_WRONLY | O_CREAT | O_APPEND`. -/
  fileFlags : Nat := 0o2101
  deriving DecidableEq, Repr

/-- What a descriptor refers to. -/
inductive Object where
  /-- Open when the process was started. -/
  | inherited (id : Nat)
  /-- The file of the default logger. -/
  | logFile
  | interrupter
  | epoll
  | timer
  | file (id : Nat)
  | socket (id : Nat)
  | signalPipe (writes : Bool)
  /-- Opened by `daemonize`. -/
  | path (name : String) (flags : Nat)
  | syslog
  deriving DecidableEq, Repr

/-- Does `epoll_ctl(EPOLL_CTL_ADD)` take it?  Regular files and `/dev/null` are
refused. -/
def Object.pollable : Object → Bool
  | .logFile => false
  | .file _ => false
  | .path _ _ => false
  | _ => true

/-- The objects asio re-creates in `notify_fork`. -/
def Object.internal : List Object :=
  [.epoll, .timer, .interrupter, .signalPipe false, .signalPipe true]

structure Proc where
  cwd : Location
  umask : Nat
  fds : Table Object
  interrupter : Nat
  epoll : Nat
  timer : Nat
  /-- The read and write end. -/
  signalPipe : Option (Nat × Nat)
  /-- The descriptors registered with the reactor. -/
  registered : List Nat
  deriving DecidableEq, Repr

inductive Fork where
  | failed
  | parent
  | child
  deriving DecidableEq, Repr

/-- What the system answers. -/
structure Sys where
  firstFork : Fork := .child
  setsid : Bool := true
  chdir : Bool := true
  secondFork : Fork := .child
  openDevNull : Bool := true
  openOutput : Bool := true
  dup : Bool := true
  epollCreate : Bool := true
  eventfd : Bool := true
  pipe : Bool := true
  /-- `/dev/log` can be connected to. -/
  openlog : Bool := true
  deriving DecidableEq, Repr

/-- A process ended with `std::exit`: with `EXIT_SUCCESS`, or after the exception
`what` with `EXIT_FAILURE`. -/
inductive Exited where
  | success
  | failure (what : String)
  deriving DecidableEq, Repr

namespace Proc

/-- The numbers of the descriptors asio re-creates. -/
def recreated (p : Proc) : List Nat :=
  [p.epoll, p.timer, p.interrupter] ++
    match p.signalPipe with
    | none => []
    | some (read, write) => [read, write]

/-! ## Start-up -/

/-- `main` up to the timers: the log file, then the reactor. -/
def init (inherited : Table Nat) (cwd : Location) (umask : Nat) : Proc :=
  let log := Table.place .logFile (inherited.map (Option.map Object.inherited))
  let interrupter := Table.place .interrupter log
  let epoll := Table.place .epoll interrupter
  { cwd := cwd
    umask := umask
    fds := Table.place .timer epoll
    interrupter := Table.lowestFree log
    epoll := Table.lowestFree interrupter
    timer := Table.lowestFree epoll
    signalPipe := none
    registered := [] }

/-- What else is opened before `daemonize`. -/
inductive Opening where
  | file (id : Nat)
  /-- A socket of a server, registered with the reactor. -/
  | socket (id : Nat)
  /-- The pipe of the first `signal_set`. -/
  | signalPipe
  deriving DecidableEq, Repr

def open_ (p : Proc) : Opening → Proc
  | .file id => { p with fds := Table.place (.file id) p.fds }
  | .socket id =>
      { p with fds := Table.place (.socket id) p.fds
               registered := p.registered ++ [Table.lowestFree p.fds] }
  | .signalPipe =>
      let read := Table.place (.signalPipe false) p.fds
      { p with fds := Table.place (.signalPipe true) read
               signalPipe := some (Table.lowestFree p.fds, Table.lowestFree read) }

/-- `main` up to `daemonize`. -/
def startUp (inherited : Table Nat) (cwd : Location) (umask : Nat) (openings : List Opening) :
    Proc :=
  openings.foldl open_ (init inherited cwd umask)

/-! ## The steps of `daemonize` -/

/-- `chdir` and `umask(0)`. -/
def detach (cfg : Dconfig) (p : Proc) : Proc :=
  { p with cwd := place p.cwd cfg.workingDir, umask := 0 }

/-- `close(0); close(1); close(2)`. -/
def closeStandard (p : Proc) : Proc :=
  { p with fds := Table.close 2 (Table.close 1 (Table.close 0 p.fds)) }

/-- `open(name, flags)`. -/
def openPath (name : String) (flags : Nat) (p : Proc) : Proc :=
  { p with fds := Table.place (.path name flags) p.fds }

/-- `O_RDONLY`. -/
def readOnly : Nat := 0

/-- `dup(fd)`; `none` when `fd` is not open. -/
def dup (fd : Nat) (p : Proc) : Option Proc :=
  (Table.get p.fds fd).map fun x => { p with fds := Table.place x p.fds }

def reopenEpoll (p : Proc) : Proc :=
  { p with fds := (Table.reopen p.epoll .epoll p.fds).1
           epoll := (Table.reopen p.epoll Object.epoll p.fds).2 }

def reopenTimer (p : Proc) : Proc :=
  { p with fds := (Table.reopen p.timer .timer p.fds).1
           timer := (Table.reopen p.timer Object.timer p.fds).2 }

def reopenInterrupter (p : Proc) : Proc :=
  { p with fds := (Table.reopen p.interrupter .interrupter p.fds).1
           interrupter := (Table.reopen p.interrupter Object.interrupter p.fds).2 }

/-- `signal_set_service`: both ends are closed before the new pipe is opened. -/
def reopenSignalPipe (p : Proc) : Proc :=
  match p.signalPipe with
  | none => p
  | some (read, write) =>
      let closed := Table.close write (Table.close read p.fds)
      let newRead := Table.place (.signalPipe false) closed
      { p with fds := Table.place (.signalPipe true) newRead
               signalPipe := some (Table.lowestFree closed, Table.lowestFree newRead) }

/-- Every registered descriptor can be added to the new `epoll`. -/
def canRegister (p : Proc) : Bool :=
  p.registered.all fun fd => (Table.get p.fds fd).any Object.pollable

/-- `io_context::notify_fork(fork_child)`: the reactor, then the signal service. -/
def notifyForkChild (sys : Sys) (p : Proc) : Except Exited Proc := do
  check (.failure "epoll") sys.epollCreate
  check (.failure "eventfd_select_interrupter") sys.eventfd
  let reactor := p.reopenEpoll.reopenTimer.reopenInterrupter
  check (.failure "epoll re-registration") reactor.canRegister
  check (.failure "signal_set_service pipe") (sys.pipe || p.signalPipe.isNone)
  .ok reactor.reopenSignalPipe

/-- `dlog::init` and the first `syslog` call. -/
def openlog (sys : Sys) (p : Proc) : Proc :=
  if sys.openlog then { p with fds := Table.place .syslog p.fds } else p

end Proc

/-- How the process goes on after a fork. -/
def afterFork (what : String) : Fork → Except Exited PUnit
  | .failed => .error (.failure what)
  | .parent => .error .success
  | .child => .ok ⟨⟩

/-- `Daemon::daemonize`. -/
def daemonize (cfg : Dconfig) (sys : Sys) (p : Proc) : Except Exited Proc := do
  afterFork "First fork failed" sys.firstFork
  check (.failure "setsid failed") sys.setsid
  check (.failure "chdir failed") sys.chdir
  let detached := p.detach cfg
  afterFork "Second fork failed" sys.secondFork
  let closed := detached.closeStandard
  check (.failure "Unable to open /dev/null") sys.openDevNull
  let input := closed.openPath "/dev/null" Proc.readOnly
  check (.failure "Unable to open output file") sys.openOutput
  let output := input.openPath cfg.outputFile cfg.fileFlags
  check (.failure "Unable to dup stderr") sys.dup
  let error ← orThrow (.failure "Unable to dup stderr") (output.dup 1)
  let notified ← error.notifyForkChild sys
  .ok (notified.openlog sys)

/-- The standard descriptors redirected. -/
def Proc.redirect (cfg : Dconfig) (p : Proc) : Option Proc :=
  ((p.closeStandard.openPath "/dev/null" readOnly).openPath cfg.outputFile cfg.fileFlags).dup 1

theorem afterFork_eq_ok {what : String} {fork : Fork} {u : PUnit} :
    afterFork what fork = .ok u ↔ fork = .child := by
  cases fork <;> simp [afterFork]

theorem notifyForkChild_eq_ok_iff {sys : Sys} {p q : Proc} :
    p.notifyForkChild sys = .ok q ↔
      sys.epollCreate = true ∧ sys.eventfd = true ∧
      p.reopenEpoll.reopenTimer.reopenInterrupter.canRegister = true ∧
      (sys.pipe || p.signalPipe.isNone) = true ∧
      p.reopenEpoll.reopenTimer.reopenInterrupter.reopenSignalPipe = q := by
  simp only [Proc.notifyForkChild, bind_eq_ok, check_eq_ok, Except.ok.injEq, exists_const]

/-- **A normal return**: both forks left this process the child, every call
succeeded, and the process is the one these steps make. -/
theorem daemonize_eq_ok_iff {cfg : Dconfig} {sys : Sys} {p q : Proc} :
    daemonize cfg sys p = .ok q ↔
      (sys.firstFork = .child ∧ sys.setsid = true ∧ sys.chdir = true ∧ sys.secondFork = .child ∧
        sys.openDevNull = true ∧ sys.openOutput = true ∧ sys.dup = true) ∧
      ∃ redirected notified, (p.detach cfg).redirect cfg = some redirected ∧
        redirected.notifyForkChild sys = .ok notified ∧ notified.openlog sys = q := by
  simp only [daemonize, Proc.redirect, bind_eq_ok, check_eq_ok, afterFork_eq_ok, orThrow_eq_ok,
    Except.ok.injEq, exists_const, exists_and_left]
  constructor
  · rintro ⟨first, setsid, chdir, second, devNull, output, dup, redirected, found, notified, ok, same⟩
    exact ⟨⟨first, setsid, chdir, second, devNull, output, dup⟩, redirected, found, notified, ok, same⟩
  · rintro ⟨⟨first, setsid, chdir, second, devNull, output, dup⟩, redirected, found, notified, ok, same⟩
    exact ⟨first, setsid, chdir, second, devNull, output, dup, redirected, found, notified, ok, same⟩

end Lynx.Daemon
