/-
# Log.LoggerConfig — the default logger and its sink list

`LoggerConfig` installs one default logger and then edits the sink list of that
logger in place: `init` puts the daily file sink first, `addConsoleSink` and
`addStreamSink` push at the end, `removeAllStreamSink` erases by type.  The list
is the only record of who listens, and a stream sink holds a reference to its
stream and nothing else.

Two views of the list carry everything below: `streams`, the streams the stream
sinks refer to, in list order and with repetitions, and `otherSinks`, the sinks
that are not stream sinks.  Each operation changes at most one of them.
-/
import Mathlib.Data.List.Count

namespace Lynx.Log

set_option autoImplicit false

/-- `spdlog::level::level_enum`, in its order. -/
inductive Level where
  | trace | debug | info | warn | err | critical | off
  deriving DecidableEq, Repr

namespace Level

def toNat : Level → Nat
  | .trace => 0
  | .debug => 1
  | .info => 2
  | .warn => 3
  | .err => 4
  | .critical => 5
  | .off => 6

instance : LE Level := ⟨fun a b => a.toNat ≤ b.toNat⟩

instance (a b : Level) : Decidable (a ≤ b) := inferInstanceAs (Decidable (a.toNat ≤ b.toNat))

theorem trace_le (a : Level) : Level.trace ≤ a := Nat.zero_le _

end Level

/-- A sink of the default logger.  `ostreamSink os` is `ostream_sink_mt`: it
holds a reference to the stream `os`, not the stream. -/
inductive Sink (Stream : Type) where
  | dailyFileSink
  | stdoutColorSink
  | ostreamSink (os : Stream)
  deriving DecidableEq, Repr

namespace Sink

variable {Stream : Type}

/-- The level of each sink: `set_level(debug)` on the file and console sinks,
the default `trace` on a stream sink. -/
def level : Sink Stream → Level
  | .dailyFileSink => .debug
  | .stdoutColorSink => .debug
  | .ostreamSink _ => .trace

def shouldLog (sink : Sink Stream) (message : Level) : Bool :=
  decide (sink.level ≤ message)

/-- `std::dynamic_pointer_cast<ostream_sink_mt>(sink) != nullptr`. -/
def isOstreamSink : Sink Stream → Bool
  | .ostreamSink _ => true
  | _ => false

/-- The stream a stream sink refers to. -/
def stream? : Sink Stream → Option Stream
  | .ostreamSink os => some os
  | _ => none

theorem isOstreamSink_eq_false_iff {sink : Sink Stream} :
    sink.isOstreamSink = false ↔ sink.stream? = none := by
  cases sink <;> simp [isOstreamSink, stream?]

end Sink

/-- `spdlog::logger`: the sinks with the two levels a record is compared with. -/
structure Logger (Stream : Type) where
  sinks : List (Sink Stream)
  level : Level
  flushLevel : Level
  deriving Repr

namespace Logger

variable {Stream : Type}

def shouldLog (logger : Logger Stream) (message : Level) : Bool :=
  decide (logger.level ≤ message)

/-- `logger::should_flush_`. -/
def shouldFlush (logger : Logger Stream) (message : Level) : Bool :=
  decide (logger.flushLevel ≤ message) && decide (message ≠ .off)

/-- The sinks one record of level `message` is written to, in order
(`logger::sink_it_`); none when the logger itself refuses the level. -/
def sinkIt (logger : Logger Stream) (message : Level) : List (Sink Stream) :=
  if logger.shouldLog message then logger.sinks.filter (·.shouldLog message) else []

/-- The streams the stream sinks refer to, one entry for each sink. -/
def streams (logger : Logger Stream) : List Stream :=
  logger.sinks.filterMap Sink.stream?

/-- The sinks that are not stream sinks. -/
def otherSinks (logger : Logger Stream) : List (Sink Stream) :=
  logger.sinks.filter (!·.isOstreamSink)

end Logger

namespace LoggerConfig

variable {Stream : Type}

/-- `LoggerConfig::init`: the daily file sink alone, level debug, flushed from
info on. -/
def init : Logger Stream :=
  { sinks := [.dailyFileSink], level := .debug, flushLevel := .info }

/-- `LoggerConfig::add_console_sink`. -/
def addConsoleSink (logger : Logger Stream) : Logger Stream :=
  { logger with sinks := logger.sinks ++ [.stdoutColorSink] }

/-- `LoggerConfig::add_stream_sink`: pushed whether or not `os` has a sink already. -/
def addStreamSink (os : Stream) (logger : Logger Stream) : Logger Stream :=
  { logger with sinks := logger.sinks ++ [.ostreamSink os] }

/-- `LoggerConfig::remove_all_stream_sink`: `remove_if` and `erase` keep the
order of the sinks that stay. -/
def removeAllStreamSink (logger : Logger Stream) : Logger Stream :=
  { logger with sinks := logger.sinks.filter (!·.isOstreamSink) }

end LoggerConfig

namespace Logger

variable {Stream : Type} (logger : Logger Stream)

open LoggerConfig

/-! ## What each operation does to the two views -/

@[simp] theorem streams_init : (init : Logger Stream).streams = [] := rfl

@[simp] theorem streams_addConsoleSink : (addConsoleSink logger).streams = logger.streams := by
  simp [streams, addConsoleSink, Sink.stream?]

@[simp] theorem streams_addStreamSink (os : Stream) :
    (addStreamSink os logger).streams = logger.streams ++ [os] := by
  simp [streams, addStreamSink, Sink.stream?]

@[simp] theorem streams_removeAllStreamSink : (removeAllStreamSink logger).streams = [] := by
  simp only [streams, removeAllStreamSink, List.filterMap_eq_nil_iff, List.mem_filter,
    Bool.not_eq_true', Sink.isOstreamSink_eq_false_iff]
  exact fun sink kept => kept.2

@[simp] theorem otherSinks_init : (init : Logger Stream).otherSinks = [.dailyFileSink] := rfl

@[simp] theorem otherSinks_addConsoleSink :
    (addConsoleSink logger).otherSinks = logger.otherSinks ++ [.stdoutColorSink] := by
  simp [otherSinks, addConsoleSink, Sink.isOstreamSink]

@[simp] theorem otherSinks_addStreamSink (os : Stream) :
    (addStreamSink os logger).otherSinks = logger.otherSinks := by
  simp [otherSinks, addStreamSink, Sink.isOstreamSink]

@[simp] theorem otherSinks_removeAllStreamSink :
    (removeAllStreamSink logger).otherSinks = logger.otherSinks := by
  simp [otherSinks, removeAllStreamSink]

/-! ## Delivery -/

/-- **Deliveries to a stream are counted by its sinks**: an accepted record is
written to `os` once for each stream sink that refers to it. -/
theorem count_sinkIt_stream [DecidableEq Stream] {message : Level} (os : Stream)
    (accepted : logger.shouldLog message = true) :
    (logger.sinkIt message).count (.ostreamSink os) = logger.streams.count os := by
  have takes : (Sink.ostreamSink os).shouldLog message = true :=
    decide_eq_true (Level.trace_le message)
  have kept : (logger.sinks.filter (·.shouldLog message)).count (.ostreamSink os) =
      logger.sinks.count (.ostreamSink os) := List.count_filter takes
  simp only [sinkIt, accepted, if_true, kept, streams]
  induction logger.sinks with
  | nil => rfl
  | cons sink rest ih =>
      cases sink with
      | ostreamSink other => simp [Sink.stream?, List.count_cons, ih]
      | dailyFileSink => simp [List.filterMap_cons, Sink.stream?, ih]
      | stdoutColorSink => simp [List.filterMap_cons, Sink.stream?, ih]

end Logger

end Lynx.Log
