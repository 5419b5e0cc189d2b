/-
# Countdown.Restart — what the restart leaves of the old countdown

`timer`'s handler cancels `t`, and `cancel` reaches a pending wait only.  A success
of `t` that is already in the ready queue is handled after the restart as if it
were the first wait of the new countdown: it logs `n1` at once and `expires_at`
aborts the two seconds the restart had set.

`RestartClean` is what the restart should give.  Along a run that hands no
completion to `timer`'s handler while a success of `t` is ready, it holds in every state
(`restart_clean`); and where one is ready the next two handlers break it
(`stale_success_advances`).
-/
import Lynx.Countdown.Bounds

namespace Lynx.Countdown

open Lynx.Theory.Run
open Lynx.Theory.TimerQueue

set_option autoImplicit false

/-- The handlers that logged a count after the restart. -/
def restartedLogs (trace : List Entry) : List Entry :=
  (afterRestart trace).filter fun entry => entry.count?.isSome

theorem restartedLogs_snoc (trace : List Entry) (entry : Entry) :
    restartedLogs (trace ++ [entry]) =
      restartedLogs trace ++
        if (restartOf trace).isSome && entry.count?.isSome then [entry] else [] := by
  unfold restartedLogs
  rw [afterRestart_snoc, List.filter_append]
  cases restartOf trace <;> cases logs : entry.count? <;> simp [logs]

/-- The wait that follows `k` counts after the restart `r`. -/
def OnChain (r : Restart) (k : Nat) (w : Wait Timer) : Prop :=
  r.firstId ≤ w.id ∧ w.expiry = r.time + (2 + k) * second

/-- The count logged `k` counts after the restart `r`. -/
structure LoggedAt (n1 : Nat) (r : Restart) (k : Nat) (entry : Entry) : Prop where
  line : entry.line = some (.count (n1 - k))
  onChain : OnChain r k entry.completion.wait
  notEarly : entry.completion.wait.expiry ≤ entry.time

/-- The restart `r` discarded the old countdown. -/
structure Clean (n1 : Nat) (r : Restart) (s : State) : Prop where
  logged : ∀ k entry, (restartedLogs s.trace)[k]? = some entry → LoggedAt n1 r k entry
  waits : ∀ w ∈ s.queue.pendingOn .t, OnChain r (restartedLogs s.trace).length w

def RestartClean (n1 : Nat) (s : State) : Prop := ∀ r, s.restart = some r → Clean n1 r s

/-- When the handler of `timer` runs no success of `t` is in the ready queue. -/
def NoneReady (n1 : Nat) (_ : List Event) (s : State) (e : Event) : Prop :=
  e = .run → ∀ c ∈ s.queue.ready[0]?, c.wait.timer = .timer →
    s.queue.succeededOn .t = [] ∨ n1 = 0

instance (n1 : Nat) (history : List Event) (s : State) (e : Event) :
    Decidable (NoneReady n1 history s e) :=
  inferInstanceAs (Decidable (_ → _))

/-! ## Steps of the loop -/

/-- What delays, expiries of due waits and the handler of the first completion keep, the
loop keeps. -/
theorem step_rule {P : State → Prop} {n1 : Nat} {s u : State} {e : Event}
    (passes : ∀ v delay, P v → P { v with queue := v.queue.pass delay })
    (expires : ∀ v w, w ∈ v.queue.pending → w.expiry ≤ v.queue.now → P v →
      P { v with queue := v.queue.expire w })
    (runs : e = .run → anyStep n1 s (.run 0) = some u → P u)
    (good : P s) (stepped : step n1 s e = some u) : P u := by
  cases e with
  | pass delay =>
      obtain rfl := Option.some.inj stepped
      exact passes s delay good
  | run => exact runs rfl stepped
  | poll order =>
      obtain ⟨due, rfl⟩ := step_poll_eq_some stepped
      refine due.rule (P := fun q => P { s with queue := q }) ?_ good
      intro q w there early
      exact expires { s with queue := q } w there early

/-! ## The chain of waits after a clean restart -/

/-- After a clean restart one wait at most is pending or succeeded, and it is the next
of the chain. -/
structure Chained (n1 : Nat) (r : Restart) (s : State) : Prop where
  clean : Clean n1 r s
  left : s.count + (restartedLogs s.trace).length = n1
  expiry : s.queue.expiry .t = r.time + (2 + (restartedLogs s.trace).length) * second
  ids : r.firstId ≤ s.queue.nextId
  single : n1 ≠ 0 → (s.queue.pendingOn .t).length + (s.queue.succeededOn .t).length ≤ 1
  succeeded : n1 ≠ 0 → ∀ w ∈ s.queue.succeededOn .t, OnChain r (restartedLogs s.trace).length w

/-- The waits in the ready queue have expired. -/
def OnTime (s : State) : Prop := ∀ w ∈ s.queue.succeededOn .t, w.expiry ≤ s.queue.now

section Step

variable {n0 n1 : Nat} {s u : State}

theorem onTime_step {e : Event} (before : OnTime s) (stepped : step n1 s e = some u) : OnTime u := by
  apply step_rule (P := OnTime) _ _ _ before stepped
  · intro v delay onTime w member
    exact (onTime w member).trans (Nat.le_add_right _ delay)
  · intro v w there early onTime x member
    rcases Queue.mem_succeededOn_expire.mp member with old | ⟨rfl, -⟩
    · exact onTime x old
    · exact early
  · intro _ handled
    cases acts_of_anyStep handled with
    | logs there own success nonzero =>
        intro w member
        simp only [Queue.succeededOn_asyncWait, Queue.succeededOn_expiresAt] at member
        exact before w (Queue.succeededOn_of_take there member)
    | idles there own other silent =>
        intro w member
        exact before w (Queue.succeededOn_of_take there member)
    | restarts there own =>
        intro w member
        simp only [Queue.succeededOn_asyncWait, Queue.succeededOn_expiresAfter,
          Queue.succeededOn_cancel] at member
        exact before w (Queue.succeededOn_of_take there member)

theorem chained_expire {w : Wait Timer} {r : Restart} (there : w ∈ s.queue.pending)
    (chain : Chained n1 r s) : Chained n1 r { s with queue := s.queue.expire w } := by
  constructor
  · refine ⟨chain.clean.logged, fun v member => chain.clean.waits v ?_⟩
    rw [Queue.pendingOn_expire] at member
    exact List.mem_of_mem_erase member
  · exact chain.left
  · exact chain.expiry
  · exact chain.ids
  · intro nonzero
    have single := chain.single nonzero
    rw [Queue.pendingOn_expire, Queue.succeededOn_expire, List.length_append]
    by_cases own : w.timer = .t
    · have member : w ∈ s.queue.pendingOn .t := Queue.mem_pendingOn.mpr ⟨there, own⟩
      have positive := List.length_pos_of_mem member
      rw [List.length_erase_of_mem member, if_pos own, List.length_singleton]
      omega
    · rw [if_neg own, List.length_nil]
      have shorter : ((s.queue.pendingOn .t).erase w).length ≤ _ := List.length_erase_le
      omega
  · intro nonzero v member
    rcases Queue.mem_succeededOn_expire.mp member with old | ⟨rfl, own⟩
    · exact chain.succeeded nonzero v old
    · exact chain.clean.waits v (Queue.mem_pendingOn.mpr ⟨there, own⟩)

theorem loggedAt_snoc {r : Restart} {logs : List Entry} {entry : Entry}
    (before : ∀ k old, logs[k]? = some old → LoggedAt n1 r k old)
    (next : LoggedAt n1 r logs.length entry) :
    ∀ k found, (logs ++ [entry])[k]? = some found → LoggedAt n1 r k found := by
  intro k found there
  by_cases old : k < logs.length
  · rw [List.getElem?_append_left old] at there
    exact before k found there
  · obtain ⟨inside, same⟩ := List.getElem?_eq_some_iff.mp there
    rw [List.length_append, List.length_singleton] at inside
    obtain rfl : k = logs.length := by omega
    rw [List.getElem_concat_length] at same
    · exact same ▸ next
    · rfl

/-- A success of `t` that logs: the chain goes on by one wait. -/
theorem chained_logs {i : Nat} {c : Completion Timer} {r : Restart}
    (there : s.queue.ready[i]? = some c) (own : c.wait.timer = .t) (success : c.ec = .none)
    (nonneg : 0 ≤ s.count) (nonzero : s.count ≠ 0) (restarted : s.restart = some r)
    (onTime : OnTime s) (chain : Chained n1 r s) :
    Chained n1 r
      { s with
        count := s.count - 1
        queue := ((s.queue.take i).expiresAt .t (s.queue.expiry .t + second)).asyncWait .t
        trace := s.trace ++ [⟨c, s.queue.now, s.queue.nextId, some (.count s.count)⟩] } := by
  have left := chain.left
  have some_ : n1 ≠ 0 := by omega
  have split := Queue.succeededOn_take there Timer.t
  rw [if_pos ⟨own, success⟩] at split
  have member : c.wait ∈ s.queue.succeededOn .t := split.symm.subset (by simp)
  have alone : s.queue.pendingOn .t = [] ∧ (s.queue.take i).succeededOn .t = [] := by
    have single := chain.single some_
    have lengths := split.length_eq
    rw [List.length_append, List.length_singleton] at lengths
    exact ⟨List.eq_nil_of_length_eq_zero (by omega), List.eq_nil_of_length_eq_zero (by omega)⟩
  have longer : restartedLogs (s.trace ++ [⟨c, s.queue.now, s.queue.nextId, some (.count s.count)⟩]) =
      restartedLogs s.trace ++ [⟨c, s.queue.now, s.queue.nextId, some (.count s.count)⟩] := by
    have after : restartOf s.trace = some r := restarted
    simp [restartedLogs_snoc, after, Entry.count?]
  have pending := Queue.pendingOn_rearmed (s.queue.take i) Timer.t (s.queue.expiry .t + second)
  have onward : s.queue.expiry .t + second =
      r.time + (2 + (restartedLogs s.trace).length + 1) * second := by
    rw [chain.expiry, Nat.add_one_mul, Nat.add_assoc]
  constructor
  · constructor
    · rw [longer]
      apply loggedAt_snoc chain.clean.logged
      refine ⟨?_, chain.succeeded some_ _ member, onTime _ member⟩
      show some (Line.count s.count) = _
      rw [← left]
      simp
    · intro w inside
      show OnChain r (restartedLogs (s.trace ++ _)).length w
      rw [longer, List.length_append, List.length_singleton]
      rw [pending, List.mem_singleton] at inside
      subst inside
      exact ⟨chain.ids, onward⟩
  · show s.count - 1 + (restartedLogs (s.trace ++ _)).length = n1
    rw [longer, List.length_append, List.length_singleton]
    omega
  · rw [longer, List.length_append, List.length_singleton]
    exact onward
  · exact chain.ids.trans (Nat.le_succ _)
  · intro _
    simp [pending, alone.2]
  · intro _ w inside
    rw [Queue.succeededOn_asyncWait, Queue.succeededOn_expiresAt, alone.2] at inside
    cases inside

/-- A completion of `t` that does not log leaves the chain as it is. -/
theorem chained_idles {i : Nat} {c : Completion Timer} {line : Option Line} {r : Restart}
    (there : s.queue.ready[i]? = some c) (silent : ∀ n, line ≠ some (.count n))
    (chain : Chained n1 r s) :
    Chained n1 r
      { s with
        queue := s.queue.take i
        trace := s.trace ++ [⟨c, s.queue.now, s.queue.nextId, line⟩] } := by
  have same : restartedLogs (s.trace ++ [⟨c, s.queue.now, s.queue.nextId, line⟩]) =
      restartedLogs s.trace := by
    have quiet : Entry.count? ⟨c, s.queue.now, s.queue.nextId, line⟩ = none :=
      Entry.count?_eq_none silent
    simp [restartedLogs_snoc, quiet]
  have fewer := (Queue.succeededOn_take there Timer.t).length_eq
  rw [List.length_append] at fewer
  constructor
  · exact ⟨by rw [same]; exact chain.clean.logged, by rw [same]; exact chain.clean.waits⟩
  · rw [same]
    exact chain.left
  · rw [same]
    exact chain.expiry
  · exact chain.ids
  · intro nonzero
    have single := chain.single nonzero
    show (s.queue.pendingOn .t).length + ((s.queue.take i).succeededOn .t).length ≤ 1
    omega
  · intro nonzero w inside
    rw [same]
    exact chain.succeeded nonzero w (Queue.succeededOn_of_take there inside)

/-- While a completion of `timer` is ready nothing is logged after a restart. -/
theorem unlogged_of_ready {i : Nat} {c : Completion Timer} (counted : Counted n0 n1 s)
    (there : s.queue.ready[i]? = some c) (own : c.wait.timer = .timer) :
    s.restart = none ∧ restartedLogs s.trace = [] := by
  have first := (not_restarted_of_ready counted.restartsOnce there own).1
  have inOrder := counted.inOrder
  simp only [InOrder, first] at inOrder
  have quiet := List.filterMap_eq_nil_iff.mp inOrder.2
  refine ⟨first, List.filter_eq_nil_iff.mpr ?_⟩
  intro entry member logged
  rw [quiet entry member] at logged
  cases logged

/-- A restart that finds no success of `t` in the ready queue begins a chain. -/
theorem chained_restarts {i : Nat} {c : Completion Timer} (there : s.queue.ready[i]? = some c)
    (clean : s.queue.succeededOn .t = [] ∨ n1 = 0) (first : s.restart = none)
    (unlogged : restartedLogs s.trace = []) :
    Chained n1 { time := s.queue.now, firstId := s.queue.nextId }
      { count := n1
        queue := (((s.queue.take i).cancel .t).expiresAfter .t (2 * second)).asyncWait .t
        trace := s.trace ++
          [⟨c, s.queue.now, s.queue.nextId, some (.steadyTimerExpired s.count)⟩] } := by
  have none_ : restartedLogs
      (s.trace ++ [⟨c, s.queue.now, s.queue.nextId, some (.steadyTimerExpired s.count)⟩]) = [] := by
    have never : restartOf s.trace = none := first
    simp [restartedLogs_snoc, unlogged, never]
  have pending :
      ((((s.queue.take i).cancel .t).expiresAfter .t (2 * second)).asyncWait .t).pendingOn .t =
        [{ id := s.queue.nextId, timer := .t, expiry := s.queue.now + 2 * second }] :=
    Queue.pendingOn_rearmed _ _ _
  have noSuccess : n1 ≠ 0 → (s.queue.take i).succeededOn .t = [] := by
    intro nonzero
    rcases clean with nothing | zero
    · apply List.eq_nil_iff_forall_not_mem.mpr
      intro w inside
      have member := Queue.succeededOn_of_take there inside
      rw [nothing] at member
      cases member
    · exact absurd zero nonzero
  constructor
  · constructor
    · intro k entry found
      rw [none_] at found
      cases found
    · intro w inside
      rw [none_]
      rw [pending, List.mem_singleton] at inside
      subst inside
      exact ⟨Nat.le_refl _, rfl⟩
  · rw [none_]
    simp
  · rw [none_]
    exact Queue.expiry_expiresAt (s.queue.take i |>.cancel .t) Timer.t _
  · exact Nat.le_succ _
  · intro nonzero
    simp [pending, noSuccess nonzero]
  · intro nonzero w inside
    have here : w ∈ (s.queue.take i).succeededOn .t := by
      simpa using inside
    rw [noSuccess nonzero] at here
    cases here

/-- **One step of the loop.**  `counted` is what holds for any order. -/
theorem chained_step {e : Event} (good : ∀ r, s.restart = some r → Chained n1 r s)
    (counted : Counted n0 n1 s) (onTime : OnTime s) (ready : NoneReady n1 [] s e)
    (stepped : step n1 s e = some u) : ∀ r, u.restart = some r → Chained n1 r u := by
  apply step_rule (P := fun v => ∀ r, v.restart = some r → Chained n1 r v) _ _ _ good stepped
  · intro v delay before r restarted
    have chain := before r restarted
    exact ⟨⟨chain.clean.logged, chain.clean.waits⟩, chain.left, chain.expiry, chain.ids,
      chain.single, chain.succeeded⟩
  · exact fun v w there _ before r restarted => chained_expire there (before r restarted)
  · intro isRun handled r restarted
    cases acts_of_anyStep handled with
    | logs there own success nonzero =>
        rw [State.restart_snoc_of_t own] at restarted
        exact chained_logs there own success counted.nonneg nonzero restarted onTime
          (good r restarted)
    | idles there own other silent =>
        rw [State.restart_snoc_of_t own] at restarted
        exact chained_idles there silent (good r restarted)
    | restarts there own =>
        obtain ⟨first, unlogged⟩ := unlogged_of_ready counted there own
        rw [State.restart_snoc_of_timer own first] at restarted
        obtain rfl := Option.some.inj restarted
        exact chained_restarts there (ready isRun _ there own) first unlogged

end Step

theorem onTime_run {n0 n1 : Nat} {now delay : Time} {events : List Event} {s : State}
    (ran : run (step n1) (State.start n0 now delay) events = some s) : OnTime s := by
  have first : OnTime (State.start n0 now delay) := fun _ member => nomatch member
  exact run_invariant (fun _ _ _ before stepped => onTime_step before stepped) first ran

/-- **When the restart discards the old countdown.**  Along every run of the loop whose
`timer` handlers run while no success of `t` is ready, no earlier wait advances the
restarted countdown: its counts are `n1, n1 - 1, …`, the first not before two seconds
after the restart, and each wait expires one second after the one before. -/
theorem restart_clean {n0 n1 : Nat} {now delay : Time} {events : List Event}
    (meets : EveryStep (step n1) (State.start n0 now delay) (NoneReady n1) events) :
    Always (step n1) (State.start n0 now delay) (fun _ s => RestartClean n1 s) events := by
  have always : Always (step n1) (State.start n0 now delay)
      (fun _ s => ∀ r, s.restart = some r → Chained n1 r s) events := by
    refine always_of_everyStep (fun _ none_ => nomatch none_) ?_ meets
    intro history middle e t reached good ready stepped
    obtain ⟨anyEvents, anyReached⟩ := run_any reached
    exact chained_step good (counted_run anyReached) (onTime_run reached) ready stepped
  intro history s pre ran r restarted
  exact (always history s pre ran r restarted).clean

/-- A success of `t` behind the completion of `timer` is alone there. -/
theorem ready_of_stale {n0 n1 : Nat} {s : State} {c : Completion Timer}
    (counted : Counted n0 n1 s) (front : s.queue.ready[0]? = some c) (own : c.wait.timer = .timer)
    (stale : s.queue.succeededOn .t ≠ []) :
    s.queue.pendingOn .t = [] ∧
      ∃ d, d.wait.timer = .t ∧ d.ec = .none ∧ s.queue.ready = [c, d] := by
  obtain ⟨notYet, noOther⟩ := not_restarted_of_ready counted.restartsOnce front own
  have lone := counted.lone notYet
  obtain ⟨rest, isReady⟩ : ∃ rest, s.queue.ready = c :: rest := by
    cases same : s.queue.ready with
    | nil => simp [same] at front
    | cons first rest => exact ⟨rest, by simpa [same] using front⟩
  have allT : ∀ d ∈ rest, d.wait.timer = .t := by
    intro d member
    cases timer : d.wait.timer with
    | t => rfl
    | timer =>
        have there : d ∈ (s.queue.take 0).readyOn .timer :=
          List.mem_filter.mpr ⟨by simpa [Queue.take, isReady] using member, by simpa using timer⟩
        have positive := List.length_pos_of_mem there
        unfold Queue.outstanding at noOther
        omega
  have readyOn : s.queue.readyOn .t = rest := by
    unfold Queue.readyOn
    rw [isReady, List.filter_cons_of_neg (by simp [own])]
    exact List.filter_eq_self.mpr fun d member => by simpa using allT d member
  unfold Queue.outstanding at lone
  rw [readyOn] at lone
  unfold Queue.succeededOn at stale
  rw [readyOn] at stale
  cases rest with
  | nil => exact absurd rfl stale
  | cons d more =>
      rw [List.length_cons] at lone
      obtain rfl : more = [] := List.eq_nil_of_length_eq_zero (by omega)
      refine ⟨List.eq_nil_of_length_eq_zero (by omega), d, allT d (by simp), ?_, isReady⟩
      apply Classical.byContradiction
      intro failed
      exact stale (by simp [failed])

/-- **The condition is exact.**  Where a success of `t` is ready when the handler of
`timer` runs, that handler and the next one break the restart. -/
theorem stale_success_advances {n0 n1 : Nat} {now delay : Time} {events : List Event} {s : State}
    (ran : run (step n1) (State.start n0 now delay) events = some s) {c : Completion Timer}
    (front : s.queue.ready[0]? = some c) (own : c.wait.timer = .timer)
    (stale : s.queue.succeededOn .t ≠ []) (nonzero : n1 ≠ 0) :
    ∃ u, run (step n1) s [.run, .run] = some u ∧ ¬ RestartClean n1 u := by
  obtain ⟨anyEvents, anyRan⟩ := run_any ran
  obtain ⟨noPending, d, ownT, success, isReady⟩ := ready_of_stale (counted_run anyRan) front own stale
  have expired : d.wait.expiry ≤ s.queue.now := by
    apply onTime_run ran
    simp [Queue.succeededOn, Queue.readyOn, isReady, own, ownT, success]
  -- the restart leaves the success at the front of the queue
  let v := State.restartCountdown n1 { s with queue := s.queue.take 0 } c
  have restarts : step n1 s .run = some v := by
    simp [step, State.runHandler, front, State.handle, own, v]
  have readyV : v.queue.ready = [d] := by
    show (((s.queue.take 0).cancel .t).cancel .t).ready = [d]
    have gone : ((s.queue.take 0).cancel .t).pendingOn .t = [] := by
      rw [Queue.pendingOn_cancel, if_pos rfl]
    rw [Queue.ready_cancel_of_nil _ gone, Queue.ready_cancel_of_nil (s.queue.take 0) noPending]
    show s.queue.ready.eraseIdx 0 = [d]
    rw [isReady]
    rfl
  -- and `print` takes it for the first wait of the new countdown
  let u := State.print { v with queue := v.queue.take 0 } d
  have advances : step n1 v .run = some u := by
    simp [step, State.runHandler, readyV, State.handle, ownT, u]
  refine ⟨u, by rw [run_cons, restarts, Option.bind_some, run_cons, advances]; rfl, ?_⟩
  have count : v.count ≠ 0 := Int.natCast_ne_zero.mpr nonzero
  have traceU : u.trace = v.trace ++ [⟨d, s.queue.now, v.queue.nextId, some (.count n1)⟩] := by
    simp only [u, State.print, success]
    rw [if_pos count]
    rfl
  intro clean
  obtain ⟨first, -⟩ := not_restarted_of_ready (counted_run anyRan).restartsOnce front own
  have restartV : v.restart = some { time := s.queue.now, firstId := s.queue.nextId } :=
    State.restart_snoc_of_timer own first
  have restartU : u.restart = some { time := s.queue.now, firstId := s.queue.nextId } := by
    have same : State.restart ⟨v.queue, v.count,
        v.trace ++ [⟨d, s.queue.now, v.queue.nextId, some (.count n1)⟩]⟩ = v.restart :=
      State.restart_snoc_of_t ownT
    rw [State.restart, traceU, ← restartV]
    exact same
  have logs : restartedLogs u.trace =
      restartedLogs v.trace ++ [⟨d, s.queue.now, v.queue.nextId, some (.count n1)⟩] := by
    have after : restartOf v.trace = some _ := restartV
    rw [traceU, restartedLogs_snoc, after]
    simp [Entry.count?]
  have late := ((clean _ restartU).logged (restartedLogs v.trace).length _
    (by rw [logs]; exact List.getElem?_concat_length)).onChain.2
  have future : s.queue.now < s.queue.now + (2 + (restartedLogs v.trace).length) * second :=
    Nat.lt_add_of_pos_right (Nat.mul_pos (by omega) (by decide))
  exact absurd (late ▸ expired) (Nat.not_le.mpr future)

/-- Every poll in time: the restart at 1.5 s finds `t` pending. -/
def onTimeSchedule : List Event :=
  [.poll [⟨0, .t, 0⟩], .run, .pass second, .poll [⟨2, .t, second⟩], .run,
    .pass (second / 2), .poll [⟨1, .timer, 1500000000⟩], .run, .run,
    .pass (2 * second), .poll [⟨4, .t, 3500000000⟩], .run,
    .pass second, .poll [⟨5, .t, 4500000000⟩], .run]

theorem restart_clean_onTimeSchedule :
    (run (step 2) (State.start 3 0 0) onTimeSchedule).map
        (fun s => (s.count, counts s.trace)) = some (0, [3, 2, 2, 1]) ∧
      Always (step 2) (State.start 3 0 0) (fun _ s => RestartClean 2 s) onTimeSchedule :=
  ⟨by decide, restart_clean (by decide)⟩

/-- The loop comes back at 2 s, after the expiry of `timer` and that of `t`. -/
def delayedSchedule : List Event :=
  [.poll [⟨0, .t, 0⟩], .run, .pass second, .poll [⟨2, .t, second⟩], .run,
    .pass second, .poll [⟨1, .timer, 1500000000⟩, ⟨3, .t, 2 * second⟩], .run, .run]

/-- With the counts of `main`, 5 and 100, the old wait logs 100 at once. -/
theorem delayedSchedule_advances :
    ¬ ∀ (n0 n1 : Nat) (now delay : Time) (events : List Event),
      Always (step n1) (State.start n0 now delay) (fun _ s => RestartClean n1 s) events := by
  intro clean
  have ran : run (step 100) (State.start 5 0 0) delayedSchedule = some _ := rfl
  have passes := (clean 5 100 0 0 delayedSchedule).last ran _ rfl
  have first := passes.logged 0 _ rfl
  exact absurd first.onChain.1 (by decide)

end Lynx.Countdown
