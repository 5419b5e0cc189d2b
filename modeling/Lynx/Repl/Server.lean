/-
# Repl.Server — the telnet server on its event loop

Handlers run one at a time, in the order in which they were queued.  When the bytes
of a packet arrive, the session does not act on the keys among them: it posts one
handler for each (`InputDevice::Notify`), and such a handler holds the session by a plain
`this`.  What keeps the session alive is the read: its handler holds a `shared_ptr`,
and starts the next read.

`step` is one move of the network or of the loop.  `Held` is what holds in every run,
of each session: the handlers that are queued for it are those of keys, and after
them that of its read, if it is not pending.  So no key is handled after its session is gone
(`never_dangling`), and every key that a client sends is handled once and in order
(`keys_in_order`), whatever the other sessions do.

This is lynx in daemon mode, without a local terminal, from any state in which its loop
can start (`Started`).  A write to a stream that has been destroyed is the end of it.
`received` and `handled` are there for the statements only.
-/
import Lynx.Repl.Startup

namespace Lynx.Repl

open Lynx.Cli
open Lynx.Cli.Telnet (Key keysOf keysOf_append receive)
open Lynx.Theory.Run
open Lynx.Theory.Transducer (feed feed_append)

set_option autoImplicit false

/-- `CliTelnetSession`. -/
structure TelnetSession where
  reader : Telnet.Rx × Telnet.Step := ({}, .step1)
  terminal : Terminal
  session : CliSession MenuId
  /-- The read of `Session::Read` is pending. -/
  reading : Bool := true
  received : List Byte := []
  handled : List Key := []

/-- How a read completes. -/
inductive ReadResult where
  | data (bytes : List Byte)
  /-- The end of the stream, a reset, or the socket was closed here. -/
  | error
  deriving DecidableEq, Repr

/-- A handler in the queue of the `io_context`. -/
inductive Task where
  /-- Of `async_accept`. -/
  | accept
  /-- Of `async_read_some`; it holds the session. -/
  | read (connection : Nat) (result : ReadResult)
  /-- Of `Notify`; it does not. -/
  | key (connection : Nat) (k : Key)
  deriving DecidableEq, Repr

structure Server where
  shared : Shared
  /-- The session objects that exist. -/
  sessions : Nat → Option TelnetSession
  queue : List Task := []
  ended : Option Ending := none
  /-- A handler has used a session that does not exist. -/
  dangling : Bool := false

inductive Move where
  /-- A client connects. -/
  | connect
  /-- The pending read of a session completes. -/
  | complete (connection : Nat) (result : ReadResult)
  /-- A client resets its connection. -/
  | resets (connection : Nat)
  /-- A log record is written. -/
  | log (level : Log.Level) (record : Text)
  /-- SIGINT or SIGTERM. -/
  | signal
  /-- The loop runs the next handler. -/
  | dispatch
  deriving DecidableEq, Repr

/-- A log record has no escape sequences. -/
def Move.Clean : Move → Prop
  | .log _ record => NoEscape record
  | _ => True

namespace Server

/-- What the session of a connection is sent, when `text` is written to the streams
of `writes`. -/
def foreignText (connection : Nat) (writes : List Write) (t : Text) : Text :=
  (writes.filter fun w => w.stream = .telnet connection).flatMap fun _ => t

/-- The session after others have written to its stream. -/
def deliver (connection : Nat) (writes : List Write) (t : Text) (ts : TelnetSession) :
    TelnetSession :=
  { ts with
    session := { ts.session with
      out := ts.session.out.put (foreignText connection writes t) } }

/-- `Accept`: a session is created and started. -/
def accept (table : Text) (s : Server) : Server :=
  let connection := s.shared.repl.connections
  let shared : Shared :=
    { s.shared.perform .accept with sockets := s.shared.sockets ++ [.connected] }
  let started := (program table).opened 100 shared.commands shared
  let ts : TelnetSession := { terminal := started.1, session := started.2.session }
  { s with shared := shared, sessions := Function.update s.sessions connection (some ts) }

/-- The last reference to a session goes with the handler of its read. -/
def destroy (connection : Nat) (s : Server) : Server :=
  { s with
    shared := s.shared.perform (.readCompletes connection)
    sessions := Function.update s.sessions connection none }

/-- The handler of a read. -/
def read (connection : Nat) (result : ReadResult) (ts : TelnetSession) (s : Server) : Server :=
  match result with
  | .data bytes =>
      if s.shared.socket connection = .closed then s.destroy connection
      else
        let found := feed receive ts.reader bytes
        let ts := { ts with
          reader := found.1, reading := true, received := ts.received ++ bytes }
        { s with
          sessions := Function.update s.sessions connection (some ts)
          queue := s.queue ++ (keysOf found.2).map (.key connection) }
  | .error => s.destroy connection

/-- The handler of a key; `none` when it is nested deeper than `fuel`. -/
def key (table : Text) (fuel connection : Nat) (k : Key) (ts : TelnetSession) (s : Server) :
    Option Server :=
  match (program table).keypressed (.telnet connection) fuel ts.terminal ⟨ts.session, s.shared⟩ k with
  | none => none
  | some (.error ending) =>
      let ts := { ts with handled := ts.handled ++ [k] }
      some { s with
        ended := some ending, sessions := Function.update s.sessions connection (some ts) }
  | some (.ok (terminal, after)) =>
      let writes := after.shared.repl.writes.drop s.shared.repl.writes.length
      if writes.all (·.alive) then
        let ts := { ts with
          terminal := terminal, session := after.session, handled := ts.handled ++ [k] }
        some { s with
          shared := after.shared
          sessions := fun other =>
            if other = connection then some ts
            else (s.sessions other).map (deliver other writes (text "Hello, everybody\n")) }
      else
        let ts := { ts with handled := ts.handled ++ [k] }
        some { s with
          ended := some .destroyedStream
          sessions := Function.update s.sessions connection (some ts) }

/-- One handler. -/
def runTask (table : Text) (fuel : Nat) (task : Task) (s : Server) : Option Server :=
  match task with
  | .accept => some (s.accept table)
  | .read connection result =>
      match s.sessions connection with
      | none => some { s with dangling := true }
      | some ts => some (read connection result ts s)
  | .key connection k =>
      match s.sessions connection with
      | none => some { s with dangling := true }
      | some ts => key table fuel connection k ts s

/-- Is the loop running? -/
def running (s : Server) : Bool := s.ended.isNone && decide (s.shared.repl.phase = .loop)

/-- A log record goes to the streams of `monitor`. -/
def log (level : Log.Level) (record : Text) (s : Server) : Server :=
  let shared := s.shared.perform (.log level)
  let writes := shared.repl.writes.drop s.shared.repl.writes.length
  if writes.all (·.alive) then
    { s with
      shared := shared
      sessions := fun other => (s.sessions other).map (deliver other writes record) }
  else { s with ended := some .destroyedStream }

def reset (connection : Nat) (s : Server) : Server :=
  if s.shared.socket connection = .connected then
    { s with shared := { s.shared with sockets := s.shared.sockets.set connection .reset } }
  else s

/-- One move. -/
def step (table : Text) (fuel : Nat) (s : Server) (move : Move) : Option Server :=
  if !s.running then none
  else
    match move with
    | .connect => some { s with queue := s.queue ++ [.accept] }
    | .complete connection result =>
        match s.sessions connection with
        | some ts =>
            if ts.reading then
              some { s with
                sessions := Function.update s.sessions connection
                  (some { ts with reading := false })
                queue := s.queue ++ [.read connection result] }
            else none
        | none => none
    | .resets connection => some (s.reset connection)
    | .log level record => some (s.log level record)
    | .signal => some { s with shared := s.shared.perform .signal }
    | .dispatch =>
        match s.queue with
        | [] => none
        | task :: rest => runTask table fuel task { s with queue := rest }

/-- The server when the loop starts. -/
def start (initial : Shared) : Server := { shared := initial, sessions := fun _ => none }

/-- A client connects and sends `bytes` in one packet, and the loop handles `n` keys. -/
def client (bytes : List Byte) (n : Nat) : List Move :=
  [.connect, .dispatch, .complete 0 (.data bytes), .dispatch] ++ List.replicate n .dispatch

end Server

theorem Server.running_of_step {table : Text} {fuel : Nat} {move : Move} {s s' : Server}
    (stepped : Server.step table fuel s move = some s') :
    s.ended = none ∧ s.shared.repl.phase = .loop := by
  simp only [Server.step] at stepped
  split at stepped
  · cases stepped
  · rename_i isRunning
    simpa [Server.running, Option.isNone_iff_eq_none] using isRunning

/-! ## One move, as one connection sees it -/

namespace Server

def Task.connection? : Task → Option Nat
  | .accept => none
  | .read connection _ => some connection
  | .key connection _ => some connection

def Task.key? : Task → Option Key
  | .key _ k => some k
  | _ => none

/-- The handlers that are queued for a connection. -/
def tasksOf (n : Nat) (queue : List Task) : List Task :=
  queue.filter fun task => Task.connection? task = some n

section Tasks

variable (n : Nat)

@[simp] theorem tasksOf_append (first second : List Task) :
    tasksOf n (first ++ second) = tasksOf n first ++ tasksOf n second := List.filter_append ..

@[simp] theorem tasksOf_accept (rest : List Task) : tasksOf n (.accept :: rest) = tasksOf n rest := by
  simp [tasksOf, Task.connection?]

@[simp] theorem tasksOf_nil : tasksOf n [] = [] := rfl

@[simp] theorem tasksOf_read_self (result : ReadResult) (rest : List Task) :
    tasksOf n (.read n result :: rest) = .read n result :: tasksOf n rest := by
  simp [tasksOf, Task.connection?]

@[simp] theorem tasksOf_key_self (k : Key) (rest : List Task) :
    tasksOf n (.key n k :: rest) = .key n k :: tasksOf n rest := by
  simp [tasksOf, Task.connection?]

variable {n}

theorem tasksOf_read_other {m : Nat} (other : m ≠ n) (result : ReadResult) (rest : List Task) :
    tasksOf n (.read m result :: rest) = tasksOf n rest := by
  simp [tasksOf, Task.connection?, other]

theorem tasksOf_key_other {m : Nat} (other : m ≠ n) (k : Key) (rest : List Task) :
    tasksOf n (.key m k :: rest) = tasksOf n rest := by
  simp [tasksOf, Task.connection?, other]

theorem tasksOf_keys_self (keys : List Key) :
    tasksOf n (keys.map (.key n)) = keys.map (.key n) := by
  induction keys with
  | nil => rfl
  | cons k rest ih => simp [ih]

theorem tasksOf_keys_other {m : Nat} (other : m ≠ n) (keys : List Key) :
    tasksOf n (keys.map (.key m)) = [] := by
  induction keys with
  | nil => rfl
  | cons k rest ih => simp [ih, tasksOf_key_other other]

end Tasks

/-- What happened to the session of a connection in one move. -/
inductive StepAt (table : Text) (fuel : Nat) (n : Nat) (move : Move) (s s' : Server) : Prop where
  /-- Something else; others may have written to the session. -/
  | elsewhere (t : Text) (noEscape : move.Clean → NoEscape t)
      (session : s'.sessions n = (s.sessions n).map fun ts =>
        { ts with session := { ts.session with out := ts.session.out.put t } })
      (tasks : tasksOf n s'.queue = tasksOf n s.queue)
      (sockets : s'.shared.socket n = s.shared.socket n ∨
        s.shared.socket n = .connected ∧ s'.shared.socket n = .reset)
      (listed : .telnet n ∈ s'.shared.repl.sessions ↔ .telnet n ∈ s.shared.repl.sessions)
  | opened (number : n = s.shared.repl.connections)
      (shared : s'.shared =
        { s.shared.perform .accept with sockets := s.shared.sockets ++ [.connected] })
      (session : s'.sessions n = some {
        terminal := ((program table).opened 100 s'.shared.commands s'.shared).1
        session := ((program table).opened 100 s'.shared.commands s'.shared).2.session })
      (tasks : tasksOf n s'.queue = tasksOf n s.queue)
  | completes (ts : TelnetSession) (found : s.sessions n = some ts) (reading : ts.reading = true)
      (result : ReadResult) (shared : s'.shared = s.shared)
      (session : s'.sessions n = some { ts with reading := false })
      (tasks : tasksOf n s'.queue = tasksOf n s.queue ++ [.read n result])
  | reads (ts : TelnetSession) (found : s.sessions n = some ts) (bytes : List Byte)
      (rest : List Task) (task : tasksOf n s.queue = .read n (.data bytes) :: rest)
      (shared : s'.shared = s.shared)
      (session : s'.sessions n = some { ts with
        reader := (feed receive ts.reader bytes).1, reading := true
        received := ts.received ++ bytes })
      (tasks : tasksOf n s'.queue =
        rest ++ (keysOf (feed receive ts.reader bytes).2).map (.key n))
  | destroyed (ts : TelnetSession) (found : s.sessions n = some ts) (result : ReadResult)
      (rest : List Task) (task : tasksOf n s.queue = .read n result :: rest)
      (shared : s'.shared = s.shared.perform (.readCompletes n))
      (session : s'.sessions n = none) (tasks : tasksOf n s'.queue = rest)
  | handles (ts : TelnetSession) (found : s.sessions n = some ts) (k : Key) (rest : List Task)
      (task : tasksOf n s.queue = .key n k :: rest) (terminal : Terminal)
      (session : CliSession MenuId)
      (ran : (program table).keypressed (.telnet n) fuel ts.terminal ⟨ts.session, s.shared⟩ k =
        some (.ok (terminal, ⟨session, s'.shared⟩)))
      (session' : s'.sessions n = some { ts with
        terminal := terminal, session := session, handled := ts.handled ++ [k] })
      (tasks : tasksOf n s'.queue = rest)
  | fails (ts : TelnetSession) (found : s.sessions n = some ts) (k : Key) (rest : List Task)
      (task : tasksOf n s.queue = .key n k :: rest) (ending : Ending)
      (ended : s'.ended = some ending) (shared : s'.shared = s.shared)
      (session : s'.sessions n = some { ts with handled := ts.handled ++ [k] })
      (tasks : tasksOf n s'.queue = rest)
  | dangles (absent : s.sessions n = none) (task : tasksOf n s.queue ≠ [])
      (shared : s'.shared = s.shared) (session : s'.sessions n = none)

/-- What holds of the server between two moves. -/
structure Sane (s : Server) : Prop where
  counted : s.shared.sockets.length = s.shared.repl.connections
  unborn : ∀ n, s.shared.repl.connections ≤ n → s.sessions n = none
  good : ∀ n ts, s.sessions n = some ts → ts.session.history.Good
  listed : ∀ n, s.sessions n ≠ none ↔ .telnet n ∈ s.shared.repl.sessions

theorem put_nil (out : OStream) : out.put [] = out := by
  simp [OStream.put]

section StepAt

variable {table : Text} {fuel n : Nat} {move : Move} {s s' : Server}

/-- A move that does not touch the session. -/
theorem StepAt.untouched (session : s'.sessions n = s.sessions n)
    (tasks : tasksOf n s'.queue = tasksOf n s.queue)
    (sockets : s'.shared.socket n = s.shared.socket n ∨
      s.shared.socket n = .connected ∧ s'.shared.socket n = .reset)
    (listed : .telnet n ∈ s'.shared.repl.sessions ↔ .telnet n ∈ s.shared.repl.sessions) :
    StepAt table fuel n move s s' := by
  refine .elsewhere [] (fun _ => by simp [NoEscape]) ?_ tasks sockets listed
  rw [session]
  cases s.sessions n with
  | none => rfl
  | some ts => simp [put_nil]

theorem noEscape_foreignText {t : Text} (noEscape : NoEscape t) (writes : List Write) :
    NoEscape (foreignText n writes t) := by
  intro c member
  obtain ⟨_, -, inside⟩ := List.mem_flatMap.mp member
  exact noEscape c inside

theorem socket_append {shared : Shared} (other : n ≠ shared.sockets.length) :
    (shared.sockets ++ [Socket.connected]).getD n .closed = shared.socket n := by
  simp only [Shared.socket, List.getD_eq_getElem?_getD]
  by_cases before : n < shared.sockets.length
  · rw [List.getElem?_append_left before]
  · rw [List.getElem?_eq_none (by simp only [List.length_append, List.length_singleton]; omega),
      List.getElem?_eq_none (by omega)]

theorem socket_reset {m : Nat} :
    (reset m s).shared.socket n = s.shared.socket n ∨
      s.shared.socket n = .connected ∧ (reset m s).shared.socket n = .reset := by
  unfold reset
  split
  · rename_i connected
    by_cases mine : n = m
    · subst mine
      have inside : n < s.shared.sockets.length := by
        by_contra outside
        have none' := List.getElem?_eq_none (Nat.not_lt.mp outside)
        simp [Shared.socket, none'] at connected
      exact .inr ⟨connected, by simp [Shared.socket, inside]⟩
    · refine .inl ?_
      simp only [Shared.socket, List.getD_eq_getElem?_getD]
      rw [List.getElem?_set_ne (Ne.symm mine)]
  · exact .inl rfl

theorem stepAt_accept (sane : Sane s) (rest : List Task) (queue : s.queue = .accept :: rest) :
    StepAt table fuel n .dispatch s (accept table { s with queue := rest }) := by
  by_cases mine : n = s.shared.repl.connections
  · subst mine
    exact .opened rfl rfl (by simp [accept]) (by simp [accept, queue])
  · refine .untouched ?_ (by simp [accept, queue]) (.inl ?_) ?_
    · simp [accept, Function.update_of_ne mine]
    · exact socket_append (sane.counted ▸ mine)
    · simp [accept, Shared.perform, effect, mine]

theorem stepAt_read (m : Nat) (result : ReadResult) (rest : List Task)
    (queue : s.queue = .read m result :: rest) (ts : TelnetSession)
    (found : s.sessions m = some ts) :
    StepAt table fuel n .dispatch s (read m result ts { s with queue := rest }) := by
  by_cases mine : n = m
  · subst mine
    have task : tasksOf n s.queue = .read n result :: tasksOf n rest := by simp [queue]
    have gone : StepAt table fuel n .dispatch s (destroy n { s with queue := rest }) :=
      .destroyed ts found result _ task rfl (by simp [destroy]) rfl
    cases result with
    | error => exact gone
    | data bytes =>
        simp only [read]
        split
        · exact gone
        · exact .reads ts found bytes _ task rfl (by simp)
            (by rw [tasksOf_append, tasksOf_keys_self])
  · have task : tasksOf n s.queue = tasksOf n rest := by
      rw [queue, tasksOf_read_other (Ne.symm mine)]
    have gone : StepAt table fuel n .dispatch s (destroy m { s with queue := rest }) :=
      .untouched (by simp [destroy, Function.update_of_ne mine]) task.symm (.inl rfl)
        (by simp [destroy, Shared.perform, effect, mine])
    cases result with
    | error => exact gone
    | data bytes =>
        simp only [read]
        split
        · exact gone
        · refine .untouched (by simp [Function.update_of_ne mine]) ?_ (.inl rfl) Iff.rfl
          rw [tasksOf_append, tasksOf_keys_other (Ne.symm mine), task, List.append_nil]

theorem stepAt_key (sane : Sane s) (m : Nat) (k : Key) (rest : List Task)
    (queue : s.queue = .key m k :: rest) (ts : TelnetSession) (found : s.sessions m = some ts)
    (ran : key table fuel m k ts { s with queue := rest } = some s') :
    StepAt table fuel n .dispatch s s' := by
  simp only [key] at ran
  by_cases mine : n = m
  · subst mine
    have task : tasksOf n s.queue = .key n k :: tasksOf n rest := by simp [queue]
    split at ran
    · cases ran
    · rename_i ending failed
      cases ran
      exact .fails ts found k _ task ending rfl rfl (by simp) rfl
    · rename_i terminal after handled
      split at ran
      · cases ran
        exact .handles ts found k _ task terminal after.session handled (by simp) rfl
      · cases ran
        exact .fails ts found k _ task .destroyedStream rfl rfl (by simp) rfl
  · have task : tasksOf n s.queue = tasksOf n rest := by
      rw [queue, tasksOf_key_other (Ne.symm mine)]
    split at ran
    · cases ran
    · cases ran
      exact .untouched (by simp [Function.update_of_ne mine]) task.symm (.inl rfl) Iff.rfl
    · rename_i terminal after handled
      split at ran
      · cases ran
        have moved := commanded_keypressed (sane.good m ts found) handled
        have noEscape : NoEscape (text "Hello, everybody\n") := by decide
        refine .elsewhere
          (foreignText n (after.shared.repl.writes.drop s.shared.repl.writes.length)
            (text "Hello, everybody\n"))
          (fun _ => noEscape_foreignText noEscape _) ?_ task.symm
          (.inl (moved.others n (by simpa using mine))) (by rw [moved.sessions])
        simp only [mine, if_false]
        rfl
      · cases ran
        exact .untouched (by simp [Function.update_of_ne mine]) task.symm (.inl rfl) Iff.rfl

/-- **One move**, as one connection sees it. -/
theorem step_at (sane : Sane s) (stepped : step table fuel s move = some s') :
    StepAt table fuel n move s s' := by
  simp only [step] at stepped
  split at stepped
  · cases stepped
  · cases move with
    | connect =>
        cases stepped
        exact .untouched rfl (by simp) (.inl rfl) Iff.rfl
    | complete m result =>
        simp only at stepped
        split at stepped
        · rename_i ts found
          split at stepped
          · rename_i reading
            cases stepped
            by_cases mine : n = m
            · subst mine
              exact .completes ts found reading result rfl (by simp) (by simp)
            · exact .untouched (by simp [Function.update_of_ne mine])
                (by simp [tasksOf_read_other (Ne.symm mine)]) (.inl rfl) Iff.rfl
          · cases stepped
        · cases stepped
    | resets m =>
        cases stepped
        refine .untouched ?_ ?_ socket_reset ?_
        · simp only [reset]
          split <;> rfl
        · simp only [reset]
          split <;> rfl
        · simp only [reset]
          split <;> exact Iff.rfl
    | log level record =>
        cases stepped
        simp only [log]
        split
        · exact .elsewhere _ (fun clean => noEscape_foreignText clean _) rfl rfl (.inl rfl) Iff.rfl
        · exact .untouched rfl rfl (.inl rfl) Iff.rfl
    | signal =>
        cases stepped
        exact .untouched rfl rfl (.inl rfl) Iff.rfl
    | dispatch =>
        simp only at stepped
        split at stepped
        · cases stepped
        · rename_i task rest queue
          cases task with
          | accept =>
              cases stepped
              exact stepAt_accept sane rest queue
          | read m result =>
              simp only [runTask] at stepped
              split at stepped
              · rename_i absent
                cases stepped
                by_cases mine : n = m
                · subst mine
                  exact .dangles absent (by simp [queue]) rfl absent
                · exact .untouched rfl
                    (by rw [queue, tasksOf_read_other (Ne.symm mine)]) (.inl rfl) Iff.rfl
              · rename_i ts found
                cases stepped
                exact stepAt_read m result rest queue ts found
          | key m k =>
              simp only [runTask] at stepped
              split at stepped
              · rename_i absent
                cases stepped
                by_cases mine : n = m
                · subst mine
                  exact .dangles absent (by simp [queue]) rfl absent
                · exact .untouched rfl
                    (by rw [queue, tasksOf_key_other (Ne.symm mine)]) (.inl rfl) Iff.rfl
              · rename_i ts found
                exact stepAt_key sane m k rest queue ts found stepped

end StepAt

/-! ## What one move does to what is shared -/

/-- The change of the shared state in one move, by sessions that exist. -/
inductive Change (table : Text) (fuel : Nat) (sessions : Nat → Option TelnetSession)
    (s s' : Shared) : Prop where
  | unchanged (shared : s' = s)
  | accepted (shared : s' =
      { s.perform .accept with sockets := s.sockets ++ [.connected] })
  | destroyed (n : Nat) (found : sessions n ≠ none) (shared : s' = s.perform (.readCompletes n))
  | handled (n : Nat) (ts : TelnetSession) (found : sessions n = some ts) (k : Key)
      (terminal : Terminal) (session : CliSession MenuId)
      (ran : (program table).keypressed (.telnet n) fuel ts.terminal ⟨ts.session, s⟩ k =
        some (.ok (terminal, ⟨session, s'⟩)))
  | logged (level : Log.Level) (shared : s' = s.perform (.log level))
  | reset (n : Nat) (shared : s' = { s with sockets := s.sockets.set n .reset })
  | signalled (shared : s' = s.perform .signal)

section Change

variable {table : Text} {fuel : Nat} {move : Move} {s s' : Server}

theorem change_read (n : Nat) (result : ReadResult) (ts : TelnetSession)
    (found : s.sessions n = some ts) :
    Change table fuel s.sessions s.shared (read n result ts s).shared := by
  have some' : s.sessions n ≠ none := by simp [found]
  cases result with
  | error => exact .destroyed n some' rfl
  | data bytes =>
      simp only [read]
      split
      · exact .destroyed n some' rfl
      · exact .unchanged rfl

theorem change_key (n : Nat) (k : Key) (ts : TelnetSession) (found : s.sessions n = some ts)
    (ran : key table fuel n k ts s = some s') :
    Change table fuel s.sessions s.shared s'.shared := by
  simp only [key] at ran
  split at ran
  · cases ran
  · cases ran
    exact .unchanged rfl
  · rename_i terminal after handled
    split at ran
    · cases ran
      exact .handled n ts found k terminal after.session handled
    · cases ran
      exact .unchanged rfl

theorem step_change (stepped : step table fuel s move = some s') :
    Change table fuel s.sessions s.shared s'.shared := by
  simp only [step] at stepped
  split at stepped
  · cases stepped
  · cases move with
    | connect =>
        cases stepped
        exact .unchanged rfl
    | complete m result =>
        simp only at stepped
        split at stepped
        · split at stepped
          · cases stepped
            exact .unchanged rfl
          · cases stepped
        · cases stepped
    | resets m =>
        cases stepped
        unfold reset
        split
        · exact .reset m rfl
        · exact .unchanged rfl
    | log level record =>
        cases stepped
        simp only [log]
        split
        · exact .logged level rfl
        · exact .unchanged rfl
    | signal =>
        cases stepped
        exact .signalled rfl
    | dispatch =>
        simp only at stepped
        split at stepped
        · cases stepped
        · rename_i task rest queue
          cases task with
          | accept =>
              cases stepped
              exact .accepted rfl
          | read m result =>
              simp only [runTask] at stepped
              split at stepped
              · cases stepped
                exact .unchanged rfl
              · rename_i ts found
                cases stepped
                exact change_read (s := { s with queue := rest }) m result ts found
          | key m k =>
              simp only [runTask] at stepped
              split at stepped
              · cases stepped
                exact .unchanged rfl
              · rename_i ts found
                exact change_key (s := { s with queue := rest }) m k ts found stepped

end Change

/-! ## What every run keeps -/

section Run

variable {table : Text} {fuel : Nat} {move : Move} {s s' : Server}

theorem sane_start {initial : Shared} (started : Started initial) : Sane (start initial) where
  counted := by rw [start, started.sockets, started.connections]; rfl
  unborn _ _ := rfl
  good n ts absurd' := by cases absurd'
  listed n := by simp [start, started.noTelnet n]

theorem good_opened (stored : List Text) (shared : Shared) :
    ((program table).opened 100 stored shared).2.session.history.Good := by
  have start : History.Good { maxSize := 100 } := History.good_start (by decide)
  rw [Program.opened, Program.prompt_history]
  exact (start.loadCommands rfl stored).1

/-- A session object is listed as long as it exists. -/
theorem listed_step (sane : Sane s) (stepped : step table fuel s move = some s') (n : Nat) :
    s'.sessions n ≠ none ↔ .telnet n ∈ s'.shared.repl.sessions := by
  have before := sane.listed n
  cases step_at (n := n) sane stepped with
  | elsewhere t _ session _ _ listed =>
      rw [listed, ← before, session]
      simp
  | opened number shared session _ =>
      subst number
      simp [session, shared, Shared.perform, effect]
  | completes ts found _ _ shared session _ =>
      rw [shared, ← before]
      simp [session, found]
  | reads ts found _ _ _ shared session _ =>
      rw [shared, ← before]
      simp [session, found]
  | destroyed ts found _ _ _ shared session _ =>
      simp [session, shared, Shared.perform, effect]
  | handles ts found k _ _ terminal session ran session' _ =>
      have moved := commanded_keypressed (sane.good n ts found) ran
      rw [moved.sessions, ← before]
      simp [session', found]
  | fails ts found _ _ _ _ _ shared session _ =>
      rw [shared, ← before]
      simp [session, found]
  | dangles absent _ shared session =>
      rw [shared, ← before]
      simp [session, absent]

theorem connections_le (sane : Sane s) (stepped : step table fuel s move = some s') :
    s.shared.repl.connections ≤ s'.shared.repl.connections := by
  cases step_change stepped with
  | unchanged shared => rw [shared]
  | accepted shared => simp [shared, Shared.perform, effect, State.openSession]
  | destroyed m _ shared => exact (congrArg (·.repl.connections) shared).ge
  | handled m ts found k terminal session ran =>
      exact (commanded_keypressed (sane.good m ts found) ran).connections.ge
  | logged level shared => exact (congrArg (·.repl.connections) shared).ge
  | reset m shared => exact (congrArg (·.repl.connections) shared).ge
  | signalled shared => exact (congrArg (·.repl.connections) shared).ge

theorem unborn_step (sane : Sane s) (stepped : step table fuel s move = some s') (n : Nat)
    (unborn : s'.shared.repl.connections ≤ n) : s'.sessions n = none := by
  have absent := sane.unborn n ((connections_le sane stepped).trans unborn)
  cases step_at (n := n) sane stepped with
  | elsewhere t _ session => simp [session, absent]
  | opened number shared =>
      have one : s'.shared.repl.connections = s.shared.repl.connections + 1 := by
        rw [shared]
        rfl
      omega
  | completes ts found => simp [found] at absent
  | reads ts found => simp [found] at absent
  | destroyed _ _ _ _ _ _ session => exact session
  | handles ts found => simp [found] at absent
  | fails ts found => simp [found] at absent
  | dangles _ _ _ session => exact session

theorem good_step (sane : Sane s) (stepped : step table fuel s move = some s') (n : Nat)
    (ts : TelnetSession) (found : s'.sessions n = some ts) : ts.session.history.Good := by
  cases step_at (n := n) sane stepped with
  | elsewhere t _ session =>
      rw [session] at found
      obtain ⟨before, here, rfl⟩ := Option.map_eq_some_iff.mp found
      exact sane.good n before here
  | opened _ _ session =>
      obtain rfl := Option.some.inj (session.symm.trans found)
      exact good_opened _ _
  | completes before here _ _ _ session =>
      obtain rfl := Option.some.inj (session.symm.trans found)
      exact sane.good n before here
  | reads before here _ _ _ _ session =>
      obtain rfl := Option.some.inj (session.symm.trans found)
      exact sane.good n before here
  | destroyed _ _ _ _ _ _ session => cases session.symm.trans found
  | handles before here k _ _ terminal session ran session' =>
      obtain rfl := Option.some.inj (session'.symm.trans found)
      exact Program.good_keypressed (sane.good n before here) ran
  | fails before here _ _ _ _ _ _ session =>
      obtain rfl := Option.some.inj (session.symm.trans found)
      exact sane.good n before here
  | dangles _ _ _ session => cases session.symm.trans found

theorem sane_step (sane : Sane s) (stepped : step table fuel s move = some s') : Sane s' := by
  refine ⟨?_, unborn_step sane stepped, good_step sane stepped, listed_step sane stepped⟩
  have counted := sane.counted
  cases step_change stepped with
  | unchanged shared => rwa [shared]
  | accepted shared => simp [shared, Shared.perform, effect, counted, State.openSession]
  | destroyed m _ shared => rw [shared]; exact counted
  | handled m ts found k terminal session ran =>
      have moved := commanded_keypressed (sane.good m ts found) ran
      rw [moved.sockets, moved.connections, counted]
  | logged level shared => rw [shared]; exact counted
  | reset m shared => simpa [shared] using counted
  | signalled shared => rw [shared]; exact counted

variable {initial : Shared} {moves : List Move} (started : Started initial)

include started in
theorem sane_run (ran : run (step table fuel) (start initial) moves = some s) : Sane s :=
  run_invariant (fun _ _ _ sane stepped => sane_step sane stepped) (sane_start started) ran

/-! ## The queue of a session -/

/-- Bytes that a session has received, of which `keys` have not been handled; `last` is
the handler of the read, when it is queued. -/
structure Waiting (n : Nat) (tasks : List Task) (ts : TelnetSession) (keys : List Key)
    (last : List Task) : Prop where
  reader : (feed receive ({}, .step1) ts.received).1 = ts.reader
  inOrder : keysOf (feed receive ({}, .step1) ts.received).2 = ts.handled ++ keys
  queued : tasks = keys.map (.key n) ++ last
  last : if ts.reading then last = [] else ∃ result, last = [.read n result]

/-- What is queued for a connection. -/
def Held (n : Nat) (s : Server) : Prop :=
  match s.sessions n with
  | none => tasksOf n s.queue = []
  | some ts => ∃ keys last, Waiting n (tasksOf n s.queue) ts keys last

variable {n : Nat}

theorem held_none (absent : s.sessions n = none) : Held n s ↔ tasksOf n s.queue = [] := by
  simp only [Held, absent]

theorem held_some {ts : TelnetSession} (found : s.sessions n = some ts) :
    Held n s ↔ ∃ keys last, Waiting n (tasksOf n s.queue) ts keys last := by
  simp only [Held, found]

section Waiting

variable {n : Nat} {tasks rest : List Task} {ts : TelnetSession} {keys : List Key} {last : List Task}

/-- The handler of the read is the last one. -/
theorem Waiting.read_first {result : ReadResult} (waiting : Waiting n tasks ts keys last)
    (first : tasks = .read n result :: rest) :
    keys = [] ∧ rest = [] ∧ ts.reading = false := by
  have queued := waiting.queued.symm.trans first
  have final := waiting.last
  cases keys with
  | cons k keys => cases queued
  | nil =>
      cases reading : ts.reading with
      | true =>
          rw [reading, if_pos rfl] at final
          rw [final] at queued
          cases queued
      | false =>
          rw [reading, if_neg (by decide)] at final
          obtain ⟨result', rfl⟩ := final
          cases queued
          exact ⟨rfl, rfl, rfl⟩

/-- The handlers of the keys are before it. -/
theorem Waiting.key_first {k : Key} (waiting : Waiting n tasks ts keys last)
    (first : tasks = .key n k :: rest) :
    ∃ later, keys = k :: later ∧ rest = later.map (.key n) ++ last := by
  have queued := waiting.queued.symm.trans first
  have final := waiting.last
  cases keys with
  | cons k' later =>
      cases queued
      exact ⟨later, rfl, rfl⟩
  | nil =>
      split at final
      · rw [final] at queued
        cases queued
      · obtain ⟨result, rfl⟩ := final
        cases queued

/-- One key is handled. -/
theorem Waiting.handle {k : Key} (waiting : Waiting n tasks ts keys last) (ts' : TelnetSession)
    (first : tasks = .key n k :: rest) (reader : ts'.reader = ts.reader)
    (reading : ts'.reading = ts.reading) (received : ts'.received = ts.received)
    (handled : ts'.handled = ts.handled ++ [k]) :
    ∃ later, Waiting n rest ts' later last := by
  obtain ⟨later, rfl, queued⟩ := waiting.key_first first
  refine ⟨later, ?_, ?_, queued, ?_⟩
  · rw [received, reader, waiting.reader]
  · rw [received, handled, waiting.inOrder, List.append_assoc, List.singleton_append]
  · rw [reading]
    exact waiting.last

end Waiting

theorem held_step (sane : Sane s) (held : Held n s)
    (stepped : step table fuel s move = some s') : Held n s' := by
  cases step_at (n := n) sane stepped with
  | elsewhere t _ session tasks =>
      cases found : s.sessions n with
      | none =>
          rw [held_none (by simp [session, found]), tasks]
          exact (held_none found).mp held
      | some ts =>
          obtain ⟨keys, last, waiting⟩ := (held_some found).mp held
          refine (held_some (by rw [session, found]; rfl)).mpr ⟨keys, last, ?_⟩
          rw [tasks]
          exact ⟨waiting.reader, waiting.inOrder, waiting.queued, waiting.last⟩
  | opened number _ session tasks =>
      have absent := sane.unborn n number.ge
      refine (held_some session).mpr ⟨[], [], rfl, rfl, ?_, rfl⟩
      rw [tasks]
      exact (held_none absent).mp held
  | completes ts found reading result _ session tasks =>
      obtain ⟨keys, last, waiting⟩ := (held_some found).mp held
      obtain rfl : last = [] := by simpa [reading] using waiting.last
      refine (held_some session).mpr ⟨keys, [.read n result], waiting.reader, waiting.inOrder, ?_,
        result, rfl⟩
      rw [tasks, waiting.queued, List.append_nil]
  | reads ts found bytes rest task _ session tasks =>
      obtain ⟨keys, last, waiting⟩ := (held_some found).mp held
      obtain ⟨rfl, rfl, -⟩ := waiting.read_first task
      refine (held_some session).mpr
        ⟨keysOf (feed receive ts.reader bytes).2, [], ?_, ?_, ?_, rfl⟩
      · rw [feed_append, waiting.reader]
      · rw [feed_append, keysOf_append, waiting.inOrder, waiting.reader, List.append_nil]
      · rw [tasks, List.nil_append, List.append_nil]
  | destroyed ts found result rest task _ session tasks =>
      obtain ⟨keys, last, waiting⟩ := (held_some found).mp held
      rw [held_none session, tasks]
      exact (waiting.read_first task).2.1
  | handles ts found k rest task terminal session _ session' tasks =>
      obtain ⟨keys, last, waiting⟩ := (held_some found).mp held
      obtain ⟨later, after⟩ := waiting.handle
        { ts with terminal := terminal, session := session, handled := ts.handled ++ [k] }
        task rfl rfl rfl rfl
      exact (held_some session').mpr ⟨later, last, tasks ▸ after⟩
  | fails ts found k rest task _ _ _ session tasks =>
      obtain ⟨keys, last, waiting⟩ := (held_some found).mp held
      obtain ⟨later, after⟩ := waiting.handle { ts with handled := ts.handled ++ [k] }
        task rfl rfl rfl rfl
      exact (held_some session).mpr ⟨later, last, tasks ▸ after⟩
  | dangles absent task => exact absurd ((held_none absent).mp held) task

include started in
theorem held_run (ran : run (step table fuel) (start initial) moves = some s) (n : Nat) :
    Held n s := by
  have both : Sane s ∧ Held n s := by
    refine run_invariant (P := fun s => Sane s ∧ Held n s) ?_ ⟨sane_start started, ?_⟩ ran
    · exact fun _ _ _ ⟨sane, held⟩ stepped => ⟨sane_step sane stepped, held_step sane held stepped⟩
    · exact (held_none rfl).mpr rfl
  exact both.2

/-- What a move other than the handler of a key can do to `ended` and `dangling`: it
notices a session that is gone, or it logs to a stream that is. -/
theorem fate_step (stepped : step table fuel s move = some s') :
    ((s'.ended = none ∨ move ≠ .dispatch ∧ s'.ended = some .destroyedStream) ∧
        s'.dangling = s.dangling) ∨
      (∃ n, s'.ended = none ∧ s.sessions n = none ∧ tasksOf n s.queue ≠ []) ∨
      ∃ n k rest ts, move = .dispatch ∧ s.queue = .key n k :: rest ∧ s.sessions n = some ts ∧
        key table fuel n k ts { s with queue := rest } = some s' := by
  have goesOn := (running_of_step stepped).1
  simp only [step] at stepped
  split at stepped
  · cases stepped
  · cases move with
    | connect | signal =>
        cases stepped
        exact .inl ⟨.inl goesOn, rfl⟩
    | log level record =>
        cases stepped
        refine .inl ?_
        simp only [log]
        split
        · exact ⟨.inl goesOn, rfl⟩
        · exact ⟨.inr ⟨by simp, rfl⟩, rfl⟩
    | resets m =>
        cases stepped
        refine .inl ?_
        unfold reset
        split <;> exact ⟨.inl goesOn, rfl⟩
    | complete m result =>
        simp only at stepped
        split at stepped
        · split at stepped
          · cases stepped
            exact .inl ⟨.inl goesOn, rfl⟩
          · cases stepped
        · cases stepped
    | dispatch =>
        simp only at stepped
        split at stepped
        · cases stepped
        · rename_i task rest queue
          cases task with
          | accept =>
              cases stepped
              exact .inl ⟨.inl goesOn, rfl⟩
          | read m result =>
              simp only [runTask] at stepped
              split at stepped
              · rename_i absent
                cases stepped
                exact .inr (.inl ⟨m, goesOn, absent, by simp [queue]⟩)
              · cases stepped
                refine .inl ?_
                cases result with
                | error => exact ⟨.inl goesOn, rfl⟩
                | data bytes =>
                    simp only [read]
                    split <;> exact ⟨.inl goesOn, rfl⟩
          | key m k =>
              simp only [runTask] at stepped
              split at stepped
              · rename_i absent
                cases stepped
                exact .inr (.inl ⟨m, goesOn, absent, by simp [queue]⟩)
              · rename_i ts found
                exact .inr (.inr ⟨m, k, rest, ts, rfl, queue, found, stepped⟩)

theorem dangling_key {k : Key} {ts : TelnetSession} (ran : key table fuel n k ts s = some s') :
    s'.dangling = s.dangling := by
  simp only [key] at ran
  split at ran
  · cases ran
  · cases ran
    rfl
  · split at ran <;> cases ran <;> rfl

include started in
/-- **No handler uses a session that is gone**, in any order of the moves of the network
and of the loop. -/
theorem never_dangling (ran : run (step table fuel) (start initial) moves = some s) :
    s.dangling = false := by
  refine run_induction (P := fun _ s => s.dangling = false) rfl ?_ ran
  intro history middle move after reached intact stepped
  rcases fate_step stepped with ⟨-, same⟩ | ⟨n, -, absent, some'⟩ | ⟨n, k, rest, ts, -, -, -, handled⟩
  · exact same.trans intact
  · exact absurd ((held_none absent).mp (held_run started reached n)) some'
  · exact (dangling_key handled).trans intact

/-- A client sends an end of the file and a letter, and is gone. -/
theorem never_dangling_eofAndLetter :
    ∃ s, run (step [] 1) (start untouched) (client [4, 97] 2 ++ [.complete 0 .error, .dispatch]) = some s ∧
      s.sessions 0 = none ∧ s.dangling = false := by
  have ran : run (step [] 1) (start untouched) (client [4, 97] 2 ++ [.complete 0 .error, .dispatch]) =
    some _ := rfl
  exact ⟨_, ran, rfl, never_dangling started_untouched ran⟩

/-- The keys whose handlers are queued for a connection. -/
def queuedKeys (n : Nat) (queue : List Task) : List Key := (tasksOf n queue).filterMap Task.key?

theorem Waiting.queuedKeys {tasks : List Task} {ts : TelnetSession} {keys : List Key}
    {last : List Task} (waiting : Waiting n tasks ts keys last) :
    tasks.filterMap Task.key? = keys := by
  have both : (keys.map (Task.key n)).filterMap Task.key? = keys := by
    rw [List.filterMap_map]
    exact List.filterMap_some
  have final : last.filterMap Task.key? = [] := by
    have last := waiting.last
    split at last
    · rw [last]
      rfl
    · obtain ⟨result, rfl⟩ := last
      rfl
  rw [waiting.queued, List.filterMap_append, both, final, List.append_nil]

include started in
/-- **Every key is handled once and in order.**  The keys that a session has handled, and
those in the queue, are the keys in the bytes that it has received, however its packets
and those of the others came. -/
theorem keys_in_order (ran : run (step table fuel) (start initial) moves = some s)
    {ts : TelnetSession} (found : s.sessions n = some ts) :
    ts.handled ++ queuedKeys n s.queue =
      keysOf (feed receive ({}, .step1) ts.received).2 := by
  obtain ⟨keys, last, waiting⟩ := (held_some found).mp (held_run started ran n)
  rw [waiting.inOrder, queuedKeys, waiting.queuedKeys]

/-- Three of five keys have been handled. -/
theorem keys_in_order_hello :
    ∃ s ts, run (step [] 1) (start untouched) (client (text "hello") 3) = some s ∧ s.sessions 0 = some ts ∧
      ts.handled = (text "hel").map .ascii ∧
      ts.handled ++ queuedKeys 0 s.queue =
        keysOf (feed receive ({}, .step1) ts.received).2 := by
  have ran : run (step [] 1) (start untouched) (client (text "hello") 3) = some _ := rfl
  exact ⟨_, _, ran, rfl, by decide +kernel, keys_in_order started_untouched ran rfl⟩

end Run

end Server

end Lynx.Repl
