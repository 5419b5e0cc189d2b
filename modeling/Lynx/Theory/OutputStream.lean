/-
# Theory.OutputStream — a buffered stream whose transfers can fail

Items inserted into a stream wait in its buffer.  A transfer sends them on: one
happens when an insertion fills the buffer, and one when the stream is closed.  A
transfer that fails has sent a beginning of what waited, and the rest is lost; the
stream is not good from then on, and takes no more items.

`Within` is the invariant: what arrived, with what still waits, is a beginning of
what was inserted, and all of it while the stream is good.  So a stream that is good
after it was closed has delivered everything (`Within.arrived_eq`).
-/
import Mathlib.Data.List.Infix

namespace Lynx.Theory

set_option autoImplicit false

universe u

variable {α : Type u}

/-- What becomes of one transfer. -/
inductive Transfer where
  | completes
  | failsAfter (taken : Nat)
  deriving DecidableEq, Repr

namespace Transfer

/-- The items that a transfer sends on. -/
def sent (transfer : Transfer) (items : List α) : List α :=
  match transfer with
  | .completes => items
  | .failsAfter taken => items.take taken

def succeeds : Transfer → Bool
  | .completes => true
  | .failsAfter _ => false

/-- A transfer of `count` items sends all of them on, even if it fails then. -/
def Covers (transfer : Transfer) (count : Nat) : Prop :=
  match transfer with
  | .completes => True
  | .failsAfter taken => count ≤ taken

instance (transfer : Transfer) (count : Nat) : Decidable (transfer.Covers count) :=
  match transfer with
  | .completes => .isTrue trivial
  | .failsAfter taken => inferInstanceAs (Decidable (count ≤ taken))

@[simp] theorem sent_nil (transfer : Transfer) : transfer.sent ([] : List α) = [] := by
  cases transfer <;> simp [sent]

theorem sent_isPrefix (transfer : Transfer) (items : List α) : transfer.sent items <+: items := by
  cases transfer with
  | completes => exact List.prefix_rfl
  | failsAfter taken => exact List.take_prefix taken items

theorem sent_eq_iff {transfer : Transfer} {items : List α} :
    transfer.sent items = items ↔ transfer.Covers items.length := by
  cases transfer with
  | completes => simp [sent, Covers]
  | failsAfter taken => exact List.take_eq_self_iff items

theorem sent_of_succeeds {transfer : Transfer} (success : transfer.succeeds = true)
    (items : List α) : transfer.sent items = items := by
  cases transfer with
  | completes => rfl
  | failsAfter _ => cases success

end Transfer

structure OutputStream (α : Type u) where
  /-- What the transfers have sent on. -/
  arrived : List α := []
  buffer : List α := []
  good : Bool := true

namespace OutputStream

/-- Send the buffer on. -/
def transfer (transfer : Transfer) (stream : OutputStream α) : OutputStream α where
  arrived := stream.arrived ++ transfer.sent stream.buffer
  buffer := []
  good := stream.good && transfer.succeeds

/-- Insert `items`; a buffer of `capacity` items is sent on. -/
def insert (capacity : Nat) (transfer : Transfer) (items : List α) (stream : OutputStream α) :
    OutputStream α :=
  if stream.good then
    let filled := { stream with buffer := stream.buffer ++ items }
    if capacity ≤ filled.buffer.length then filled.transfer transfer else filled
  else stream

/-- Close the stream: send the rest on, then close what it writes to. -/
def close (transfer : Transfer) (closes : Bool) (stream : OutputStream α) : OutputStream α :=
  let flushed := stream.transfer transfer
  { flushed with good := flushed.good && closes }

@[simp] theorem buffer_close (transfer : Transfer) (closes : Bool) (stream : OutputStream α) :
    (stream.close transfer closes).buffer = [] := rfl

@[simp] theorem arrived_close (transfer : Transfer) (closes : Bool) (stream : OutputStream α) :
    (stream.close transfer closes).arrived = stream.arrived ++ transfer.sent stream.buffer := rfl

/-- The first insertion: its items are sent on if they fill the buffer. -/
theorem insert_empty (capacity : Nat) (transfer : Transfer) (items : List α) :
    ({} : OutputStream α).insert capacity transfer items =
      if capacity ≤ items.length then
        { arrived := transfer.sent items, good := transfer.succeeds }
      else { buffer := items } := by
  simp [insert, OutputStream.transfer]

/-- What a stream has made of the items inserted so far. -/
structure Within (inserted : List α) (stream : OutputStream α) : Prop where
  beginning : stream.arrived ++ stream.buffer <+: inserted
  all : stream.good = true → stream.arrived ++ stream.buffer = inserted

section

variable {inserted : List α} {stream : OutputStream α}

theorem within_empty : Within [] ({} : OutputStream α) :=
  ⟨List.prefix_rfl, fun _ => rfl⟩

theorem Within.transfer (within : Within inserted stream) (transfer : Transfer) :
    Within inserted (stream.transfer transfer) := by
  constructor
  · show stream.arrived ++ transfer.sent stream.buffer ++ [] <+: inserted
    rw [List.append_nil]
    exact ((List.prefix_append_right_inj _).mpr (transfer.sent_isPrefix _)).trans within.beginning
  · intro good
    obtain ⟨before, success⟩ := Bool.and_eq_true_iff.mp good
    show stream.arrived ++ transfer.sent stream.buffer ++ [] = inserted
    rw [List.append_nil, Transfer.sent_of_succeeds success]
    exact within.all before

theorem Within.insert (within : Within inserted stream) (capacity : Nat) (transfer : Transfer)
    (items : List α) : Within (inserted ++ items) (stream.insert capacity transfer items) := by
  unfold OutputStream.insert
  by_cases good : stream.good = true
  · have filled : Within (inserted ++ items) { stream with buffer := stream.buffer ++ items } := by
      have taken : stream.arrived ++ (stream.buffer ++ items) = inserted ++ items := by
        rw [← List.append_assoc, within.all good]
      exact ⟨taken ▸ List.prefix_rfl, fun _ => taken⟩
    rw [if_pos good]
    by_cases full : capacity ≤ (stream.buffer ++ items).length
    · simp only [full, if_true]
      exact filled.transfer transfer
    · simp only [full, if_false]
      exact filled
  · rw [if_neg good]
    exact ⟨within.beginning.trans (List.prefix_append _ _), fun still => absurd still good⟩

theorem Within.close (within : Within inserted stream) (transfer : Transfer) (closes : Bool) :
    Within inserted (stream.close transfer closes) := by
  have flushed := within.transfer transfer
  exact ⟨flushed.beginning, fun good => flushed.all (Bool.and_eq_true_iff.mp good).1⟩

/-- A good stream with nothing waiting has delivered everything. -/
theorem Within.arrived_eq (within : Within inserted stream) (sentOn : stream.buffer = [])
    (good : stream.good = true) : stream.arrived = inserted := by
  have all := within.all good
  rwa [sentOn, List.append_nil] at all

end

end OutputStream

end Lynx.Theory
