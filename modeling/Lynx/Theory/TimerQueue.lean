/-
# Theory.TimerQueue — timers, their waits, and the completions in the ready queue

A timer has an expiry; a wait started on it takes the expiry of that moment.  A
wait is pending until it expires or is cancelled, and then its completion stands
in the ready queue, with success or aborted, until its handler is run.  `cancel`
and `expiresAt` reach the pending waits of their timer and never the ready queue.

Three views of a queue say what an operation does for one timer: the waits that
are pending (`pendingOn`), the successes that are ready (`succeededOn`), and how
many waits have not been handled (`outstanding`).  A poll is a row of
expiries, so what holds for expiries in any order holds for polls.
-/
import Mathlib.Data.List.Perm.Basic
import Mathlib.Data.List.Perm.Subperm

namespace Lynx.Theory.TimerQueue

set_option autoImplicit false

universe u

/-- Nanoseconds of a steady clock. -/
abbrev Time := Nat

def second : Time := 1000000000

inductive ErrorCode where
  | none
  | operationAborted
  | other (message : String)
  deriving DecidableEq, Repr

variable {τ : Type u}

structure Wait (τ : Type u) where
  id : Nat
  timer : τ
  expiry : Time
  deriving DecidableEq, Repr

structure Completion (τ : Type u) where
  wait : Wait τ
  ec : ErrorCode
  deriving DecidableEq, Repr

structure Queue (τ : Type u) where
  now : Time
  /-- The id of the next wait. -/
  nextId : Nat
  expiry : τ → Time
  pending : List (Wait τ)
  ready : List (Completion τ)

namespace Queue

variable [DecidableEq τ]

def pendingOn (q : Queue τ) (t : τ) : List (Wait τ) := q.pending.filter (·.timer = t)

def readyOn (q : Queue τ) (t : τ) : List (Completion τ) := q.ready.filter (·.wait.timer = t)

/-- The waits of `t` whose success is in the ready queue. -/
def succeededOn (q : Queue τ) (t : τ) : List (Wait τ) :=
  ((q.readyOn t).filter (·.ec = .none)).map (·.wait)

/-- How many waits of `t` have been started and not handled. -/
def outstanding (q : Queue τ) (t : τ) : Nat := (q.pendingOn t).length + (q.readyOn t).length

/-! ## Operations -/

/-- The wait that `asyncWait` would start. -/
def newWait (q : Queue τ) (t : τ) : Wait τ := { id := q.nextId, timer := t, expiry := q.expiry t }

def asyncWait (q : Queue τ) (t : τ) : Queue τ :=
  { q with nextId := q.nextId + 1, pending := q.pending ++ [q.newWait t] }

/-- The pending waits of `t` are aborted. -/
def cancel (q : Queue τ) (t : τ) : Queue τ :=
  { q with
    pending := q.pending.filter (·.timer ≠ t)
    ready := q.ready ++ (q.pendingOn t).map fun w => { wait := w, ec := .operationAborted } }

def expiresAt (q : Queue τ) (t : τ) (at_ : Time) : Queue τ :=
  { q.cancel t with expiry := fun u => if u = t then at_ else q.expiry u }

def expiresAfter (q : Queue τ) (t : τ) (delay : Time) : Queue τ := q.expiresAt t (q.now + delay)

/-- A pending wait succeeds. -/
def expire (q : Queue τ) (w : Wait τ) : Queue τ :=
  { q with pending := q.pending.erase w, ready := q.ready ++ [{ wait := w, ec := .none }] }

/-- The waits of a poll succeed one after the other. -/
def poll (q : Queue τ) (order : List (Wait τ)) : Queue τ := order.foldl expire q

/-- `order` lists the waits that are due, in order of expiry. -/
def Due (q : Queue τ) (order : List (Wait τ)) : Prop :=
  order.Perm (q.pending.filter (·.expiry ≤ q.now)) ∧ order.Pairwise (·.expiry ≤ ·.expiry)

instance (q : Queue τ) (order : List (Wait τ)) : Decidable (q.Due order) :=
  inferInstanceAs (Decidable (_ ∧ _))

/-- The completion at `i` is taken for its handler. -/
def take (q : Queue τ) (i : Nat) : Queue τ := { q with ready := q.ready.eraseIdx i }

def pass (q : Queue τ) (delay : Time) : Queue τ := { q with now := q.now + delay }

/-- **The rule of a poll.**  What each expiry of a due wait keeps, a poll keeps. -/
theorem Due.rule {P : Queue τ → Prop}
    (next : ∀ v w, w ∈ v.pending → w.expiry ≤ v.now → P v → P (v.expire w))
    {q : Queue τ} {order : List (Wait τ)} (due : q.Due order) (good : P q) : P (q.poll order) := by
  have early : ∀ w ∈ order, w.expiry ≤ q.now := by
    intro w member
    simpa using (List.mem_filter.mp (due.1.subset member)).2
  have pending : order.Subperm q.pending := due.1.subperm.trans List.filter_sublist.subperm
  clear due
  -- the clock stands while the due waits go over one by one
  induction order generalizing q with
  | nil => exact good
  | cons w rest ih =>
      have there : w ∈ q.pending := pending.subset List.mem_cons_self
      have later : rest.Subperm (q.pending.erase w) := by
        have erased := pending.erase w
        rwa [List.erase_cons_head] at erased
      exact ih (next q w there (early w List.mem_cons_self) good)
        (fun v member => early v (List.mem_cons_of_mem w member)) later

/-! ## The pending waits of a timer -/

variable (q : Queue τ)

theorem mem_pendingOn {q : Queue τ} {t : τ} {w : Wait τ} :
    w ∈ q.pendingOn t ↔ w ∈ q.pending ∧ w.timer = t := by
  simp [pendingOn]

theorem pendingOn_asyncWait (t u : τ) :
    (q.asyncWait t).pendingOn u = q.pendingOn u ++ if t = u then [q.newWait t] else [] := by
  unfold pendingOn asyncWait
  rw [List.filter_append]
  by_cases same : t = u <;> simp [newWait, same]

theorem pendingOn_cancel (t u : τ) :
    (q.cancel t).pendingOn u = if u = t then [] else q.pendingOn u := by
  unfold pendingOn cancel
  rw [List.filter_filter]
  by_cases same : u = t
  · subst same
    simp
  · rw [if_neg same]
    apply List.filter_congr
    intro w _
    by_cases own : w.timer = u
    · simp [own, same]
    · simp [own]

@[simp] theorem pendingOn_expiresAt (t u : τ) (at_ : Time) :
    (q.expiresAt t at_).pendingOn u = (q.cancel t).pendingOn u := rfl

theorem pendingOn_expire (w : Wait τ) (u : τ) :
    (q.expire w).pendingOn u = (q.pendingOn u).erase w := by
  unfold pendingOn expire
  exact List.erase_filter.symm

@[simp] theorem pendingOn_take (i : Nat) (u : τ) : (q.take i).pendingOn u = q.pendingOn u := rfl


/-- An expiry set anew and a wait on it leave one pending wait. -/
theorem pendingOn_rearmed (t : τ) (at_ : Time) :
    ((q.expiresAt t at_).asyncWait t).pendingOn t = [{ id := q.nextId, timer := t, expiry := at_ }] := by
  rw [pendingOn_asyncWait, pendingOn_expiresAt, pendingOn_cancel, if_pos rfl, if_pos rfl]
  simp [newWait, expiresAt, cancel]

/-! ## The ready completions of a timer -/

@[simp] theorem readyOn_asyncWait (t u : τ) : (q.asyncWait t).readyOn u = q.readyOn u := rfl

theorem readyOn_cancel (t u : τ) :
    (q.cancel t).readyOn u = q.readyOn u ++
      if u = t then (q.pendingOn t).map fun w => { wait := w, ec := .operationAborted } else [] := by
  unfold readyOn cancel
  rw [List.filter_append]
  congr 1
  by_cases same : u = t
  · subst same
    rw [if_pos rfl, List.filter_eq_self]
    intro c member
    obtain ⟨w, own, rfl⟩ := List.mem_map.mp member
    exact (List.mem_filter.mp own).2
  · rw [if_neg same, List.filter_eq_nil_iff]
    intro c member
    obtain ⟨w, own, rfl⟩ := List.mem_map.mp member
    have timer : w.timer = t := by simpa using (List.mem_filter.mp own).2
    simp [timer, Ne.symm same]

theorem ready_cancel_of_nil {t : τ} (noPending : q.pendingOn t = []) :
    (q.cancel t).ready = q.ready := by
  unfold cancel
  simp [noPending]


theorem readyOn_expire (w : Wait τ) (u : τ) :
    (q.expire w).readyOn u =
      q.readyOn u ++ if w.timer = u then [{ wait := w, ec := .none }] else [] := by
  unfold readyOn expire
  rw [List.filter_append]
  by_cases own : w.timer = u <;> simp [own]


/-! ## The ready successes of a timer -/

@[simp] theorem succeededOn_asyncWait (t u : τ) :
    (q.asyncWait t).succeededOn u = q.succeededOn u := rfl

@[simp] theorem succeededOn_cancel (t u : τ) : (q.cancel t).succeededOn u = q.succeededOn u := by
  unfold succeededOn
  rw [readyOn_cancel, List.filter_append]
  by_cases same : u = t
  · simp [same, List.filter_map, Function.comp_def]
  · simp [same]

@[simp] theorem succeededOn_expiresAt (t u : τ) (at_ : Time) :
    (q.expiresAt t at_).succeededOn u = q.succeededOn u :=
  succeededOn_cancel q t u

@[simp] theorem succeededOn_expiresAfter (t u : τ) (delay : Time) :
    (q.expiresAfter t delay).succeededOn u = q.succeededOn u :=
  succeededOn_expiresAt q t u (q.now + delay)

theorem succeededOn_expire (w : Wait τ) (u : τ) :
    (q.expire w).succeededOn u = q.succeededOn u ++ if w.timer = u then [w] else [] := by
  unfold succeededOn
  rw [readyOn_expire, List.filter_append, List.map_append]
  by_cases own : w.timer = u <;> simp [own]


theorem mem_succeededOn_expire {q : Queue τ} {v w : Wait τ} {u : τ} :
    v ∈ (q.expire w).succeededOn u ↔ v ∈ q.succeededOn u ∨ v = w ∧ w.timer = u := by
  rw [succeededOn_expire, List.mem_append]
  by_cases own : w.timer = u <;> simp [own]

/-! ## How many waits are outstanding -/

theorem outstanding_asyncWait (t u : τ) :
    (q.asyncWait t).outstanding u = q.outstanding u + if t = u then 1 else 0 := by
  unfold outstanding
  rw [pendingOn_asyncWait, readyOn_asyncWait, List.length_append]
  by_cases same : t = u
  · simp only [same, if_true, List.length_singleton]
    omega
  · simp [same]

theorem outstanding_cancel (t u : τ) : (q.cancel t).outstanding u = q.outstanding u := by
  unfold outstanding
  rw [pendingOn_cancel, readyOn_cancel, List.length_append]
  by_cases same : u = t
  · subst same
    simp only [if_true, List.length_nil, List.length_map]
    omega
  · simp [same]

@[simp] theorem outstanding_expiresAt (t u : τ) (at_ : Time) :
    (q.expiresAt t at_).outstanding u = q.outstanding u :=
  outstanding_cancel q t u

theorem outstanding_expire {w : Wait τ} (there : w ∈ q.pending) (u : τ) :
    (q.expire w).outstanding u = q.outstanding u := by
  unfold outstanding
  rw [pendingOn_expire, readyOn_expire, List.length_append]
  by_cases own : w.timer = u
  · have member : w ∈ q.pendingOn u := mem_pendingOn.mpr ⟨there, own⟩
    have positive := List.length_pos_of_mem member
    rw [List.length_erase_of_mem member]
    simp only [own, if_true, List.length_singleton]
    omega
  · have notOwn : w ∉ q.pendingOn u := fun member => own (mem_pendingOn.mp member).2
    rw [List.erase_of_not_mem notOwn]
    simp [own]

@[simp] theorem expiry_expiresAt (t : τ) (at_ : Time) : (q.expiresAt t at_).expiry t = at_ :=
  if_pos rfl

/-! ## Taking a completion -/

variable {q}

theorem readyOn_take {i : Nat} {c : Completion τ} (there : q.ready[i]? = some c) (u : τ) :
    (q.readyOn u).Perm ((if c.wait.timer = u then [c] else []) ++ (q.take i).readyOn u) := by
  obtain ⟨inside, same⟩ := List.getElem?_eq_some_iff.mp there
  have split := (List.getElem_cons_eraseIdx_perm inside).filter (·.wait.timer = u)
  rw [same] at split
  refine split.symm.trans ?_
  by_cases own : c.wait.timer = u <;> simp [readyOn, take, own]

theorem outstanding_take {i : Nat} {c : Completion τ} (there : q.ready[i]? = some c) (u : τ) :
    (q.take i).outstanding u + (if c.wait.timer = u then 1 else 0) = q.outstanding u := by
  have split := (readyOn_take there u).length_eq
  unfold outstanding
  rw [pendingOn_take, split, List.length_append]
  by_cases own : c.wait.timer = u
  · simp only [own, if_true, List.length_singleton]
    omega
  · simp [own]

theorem outstanding_take_of_own {i : Nat} {c : Completion τ} {t : τ}
    (there : q.ready[i]? = some c) (own : c.wait.timer = t) :
    (q.take i).outstanding t + 1 = q.outstanding t := by
  have taken := outstanding_take there t
  rw [if_pos own] at taken
  exact taken

theorem outstanding_take_of_other {i : Nat} {c : Completion τ} {t v : τ}
    (there : q.ready[i]? = some c) (own : c.wait.timer = t) (other : t ≠ v) :
    (q.take i).outstanding v = q.outstanding v := by
  have taken := outstanding_take there v
  rw [own, if_neg other] at taken
  exact taken

theorem succeededOn_take {i : Nat} {c : Completion τ} (there : q.ready[i]? = some c) (u : τ) :
    (q.succeededOn u).Perm
      ((if c.wait.timer = u ∧ c.ec = .none then [c.wait] else []) ++ (q.take i).succeededOn u) := by
  have split := ((readyOn_take there u).filter (·.ec = .none)).map (·.wait)
  refine split.trans ?_
  rw [List.filter_append, List.map_append]
  by_cases own : c.wait.timer = u <;> by_cases ok : c.ec = .none <;> simp [succeededOn, own, ok]

theorem succeededOn_of_take {i : Nat} {c : Completion τ} {t : τ} {w : Wait τ}
    (there : q.ready[i]? = some c) (member : w ∈ (q.take i).succeededOn t) :
    w ∈ q.succeededOn t :=
  (succeededOn_take there t).symm.subset (List.mem_append_right _ member)

end Queue

end Lynx.Theory.TimerQueue
