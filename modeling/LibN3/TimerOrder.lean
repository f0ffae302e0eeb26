import Mathlib
import LibN3.TimerList

/-! The order that a TimerList keeps over whole runs: the timer due last is served first, and
one that is due sooner waits for as long as the list has any that is due later. -/
namespace LibN3

variable {heap : TimerHeap}

/- What the list shows, against the timers pushed and not yet popped. -/
structure LatestFirst (w : TimerWorld heap) : Prop where
  size : w.list.size = w.pending.card
  empty : w.list.empty = true ↔ w.pending = 0
  some_next : w.pending ≠ 0 → w.list.next.isSome
  next_last : ∀ t ∈ w.list.next, t ∈ w.pending ∧ ∀ other ∈ w.pending, other.due ≤ t.due
  pop_next : ∀ t ∈ w.list.next, heap.contents w.list.pop.timerHeap = w.pending.erase t
  drain_all : (w.list.drain : Multiset Timer) = w.pending
  drain_sorted : w.list.drain.Pairwise fun t later => later.due ≤ t.due

theorem latestFirst_of_holds {w : TimerWorld heap} (holds : Holds w) : LatestFirst w where
  size := congrArg Multiset.card holds
  empty := by
    have same : w.list.size = w.pending.card := congrArg Multiset.card holds
    rw [TimerList.empty, same, beq_iff_eq, Multiset.card_eq_zero]
  some_next := by
    intro some_left
    obtain ⟨timer, next, _⟩ := next_of_pending holds some_left
    rw [next]
    rfl
  next_last := by
    intro t next
    have some_left : w.pending ≠ 0 := by
      intro none_left
      have member := heap.top_mem _ t next
      rw [holds, none_left] at member
      exact Multiset.notMem_zero t member
    obtain ⟨timer, same, last⟩ := next_of_pending holds some_left
    rw [next] at same
    cases same
    exact last
  pop_next := by
    intro t next
    exact (heap.contents_pop _ t next).trans (congrArg (·.erase t) holds)
  drain_all := (heap.drain_contents rfl).trans holds
  drain_sorted := by
    have ordered := heap.drain_pairwise w.list.size w.list.timerHeap
    exact ordered.imp fun not_less => le_of_not_gt (mt (less_iff_due _ _).mpr not_less)

theorem holds_new : Holds (.new : TimerWorld heap) := heap.contents_new

theorem holds_run {w : TimerWorld heap} (holds : Holds w) {ops : List TimerOp}
    (admitted : Runs.Each TimerWorld.step TimerWorld.Admits w ops) :
    Holds (Runs.run TimerWorld.step w ops) :=
  Runs.invariant holds_step holds admitted

/-- After any run, the list shows what is pending, with a timer due last as the next one. -/
theorem latest_first_after_run (heap : TimerHeap) (ops : List TimerOp)
    (admitted : Runs.Each TimerWorld.step TimerWorld.Admits (.new : TimerWorld heap) ops) :
    LatestFirst (Runs.run TimerWorld.step (.new : TimerWorld heap) ops) :=
  latestFirst_of_holds (holds_run holds_new admitted)

theorem two_pushed_latest_first :
    LatestFirst (Runs.run TimerWorld.step (.new : TimerWorld listHeap)
      [.push (.ofWakeup 1 none), .emplace (.ofInterval 0 2), .pop, .push (.ofWakeup 1 (some 3))]) :=
  latest_first_after_run listHeap _ (by decide)

/- A pop is made while a timer due later than this one is pending. -/
def OverLater (t : Timer) (w : TimerWorld heap) : TimerOp → Prop
  | .pop => ∃ other ∈ w.pending, t.due < other.due
  | _ => True

theorem step_keeps_waiting (t : Timer) {w : TimerWorld heap} (op : TimerOp) (holds : Holds w)
    (admits : w.Admits op) (beaten : OverLater t w op) :
    w.pending.count t ≤ (w.step op).pending.count t := by
  cases enters : op.entering with
  | some timer =>
    rw [step_entering w enters]
    exact Multiset.count_le_count_cons t timer w.pending
  | none =>
    cases op with
    | push timer => cases enters
    | emplace args =>
      have made : args.construct = none := enters
      simp [TimerWorld.Admits, made] at admits
    | pop =>
      obtain ⟨timer, next, _, last⟩ := next_of_pending holds admits
      obtain ⟨other, present, later⟩ := beaten
      have differs : t ≠ timer := by
        rintro rfl
        exact absurd (last other present) (not_le_of_gt later)
      rw [step_pop_some w next]
      exact le_of_eq (Multiset.count_erase_of_ne differs w.pending).symm

theorem run_keeps_waiting (t : Timer) {w : TimerWorld heap} (holds : Holds w) (ops : List TimerOp)
    (admitted : Runs.Each TimerWorld.step TimerWorld.Admits w ops)
    (beaten : Runs.Each TimerWorld.step (OverLater t) w ops) :
    w.pending.count t ≤ (Runs.run TimerWorld.step w ops).pending.count t := by
  induction ops generalizing w with
  | nil => exact Nat.le_refl _
  | cons op rest ih =>
    have here := step_keeps_waiting t op holds admitted.1 beaten.1
    have later := ih (holds_step w op holds admitted.1) admitted.2 beaten.2
    exact here.trans later

/-- A timer pending after some calls is not served by the calls that follow, however many pop,
as long as each pop finds a timer that is due later. -/
theorem sooner_timer_waits (heap : TimerHeap) (t : Timer) (before after : List TimerOp)
    (admitted : Runs.Each TimerWorld.step TimerWorld.Admits (.new : TimerWorld heap)
      (before ++ after))
    (beaten : Runs.Each TimerWorld.step (OverLater t)
      (Runs.run TimerWorld.step (.new : TimerWorld heap) before) after) :
    (Runs.run TimerWorld.step (.new : TimerWorld heap) before).pending.count t ≤
      (Runs.run TimerWorld.step (.new : TimerWorld heap) (before ++ after)).pending.count t := by
  obtain ⟨first, second⟩ := (Runs.each_append _ _ _ before after).mp admitted
  rw [Runs.run_append]
  exact run_keeps_waiting t (holds_run holds_new first) after second beaten

theorem sooner_timer_waits_twice :
    (Runs.run TimerWorld.step (.new : TimerWorld listHeap) [.push (.ofWakeup 1 none),
        .push (.ofWakeup 2 none)]).pending.count (.ofWakeup 1 none) ≤
      (Runs.run TimerWorld.step (.new : TimerWorld listHeap) ([.push (.ofWakeup 1 none),
        .push (.ofWakeup 2 none)] ++ [.pop, .push (.ofWakeup 3 none), .pop])).pending.count
          (.ofWakeup 1 none) :=
  sooner_timer_waits listHeap _ _ _ (by decide)
    ⟨⟨.ofWakeup 2 none, by decide, by rw [← less_iff_due]; rfl⟩, trivial,
      ⟨.ofWakeup 3 none, by decide, by rw [← less_iff_due]; rfl⟩, trivial⟩

end LibN3
