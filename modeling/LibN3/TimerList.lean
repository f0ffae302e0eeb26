import Mathlib
import LibN3.Priority
import LibN3.Runs
import LibN3.Timer

/-! TimerList of timer_list.h, over a priority queue that keeps a greatest timer on top,
and its runs. The queue orders timers by std::less, which asks Timer's own comparison. -/
namespace LibN3

/-- The comparison of two optionals: one that holds nothing is less than one that does. -/
def comparePeriod : Option Duration → Option Duration → Ordering
  | none, none => .eq
  | none, some _ => .lt
  | some _, none => .gt
  | some a, some b => compare a b

def Timer.spaceship (t other : Timer) : Ordering :=
  let cmp := compare t.nextWakeup other.nextWakeup
  if cmp ≠ .eq then cmp else comparePeriod t.period other.period

def Timer.Less (t other : Timer) : Prop := t.spaceship other = .lt

abbrev TimerHeap := Priority.Queue.{0, 0} Timer Timer.Less

structure TimerList (heap : TimerHeap) where
  timerHeap : heap.State

/-- What emplace may be given: the arguments of a constructor of Timer, and what the clock
reads where the constructor asks it. -/
inductive TimerArgs
  | default
  | ofInterval (now : TimePoint) (interval : Duration)
  | ofWakeup (wakeup : TimePoint) (interval : Option Duration)
  | copy (timer : Timer)
deriving DecidableEq

def TimerArgs.construct : TimerArgs → Option Timer
  | .default => some ⟨0, none, false, false⟩
  | .ofInterval now interval => Timer.ofInterval now interval
  | .ofWakeup wakeup interval => some (Timer.ofWakeup wakeup interval)
  | .copy timer => some timer

namespace TimerList

variable {heap : TimerHeap}

def new : TimerList heap := ⟨heap.new⟩

def size (l : TimerList heap) : ℕ := (heap.contents l.timerHeap).card

def empty (l : TimerList heap) : Bool := l.size == 0

def push (l : TimerList heap) (timer : Timer) : TimerList heap := ⟨heap.push l.timerHeap timer⟩

def emplace (l : TimerList heap) (args : TimerArgs) : Option (TimerList heap) :=
  args.construct.map l.push

def pop (l : TimerList heap) : TimerList heap := ⟨heap.pop l.timerHeap⟩

def next (l : TimerList heap) : Option Timer := heap.top l.timerHeap

/- Read next and pop it until nothing is left. -/
def drain (l : TimerList heap) : List Timer := heap.drain l.size l.timerHeap

end TimerList

/-- No period comes before any, and of two periods the smaller one does. -/
def periodRank : Option Duration → WithBot ℤ
  | none => ⊥
  | some interval => interval

/- When a timer is due: at its wakeup, and of those due at once the one with the smaller
period first. -/
def Timer.due (t : Timer) : ℤ ×ₗ WithBot ℤ := toLex (t.nextWakeup, periodRank t.period)

theorem comparePeriod_lt (period other : Option Duration) :
    comparePeriod period other = .lt ↔ periodRank period < periodRank other := by
  cases period with
  | none =>
    cases other with
    | none => simp [comparePeriod, periodRank]
    | some b => simp [comparePeriod, periodRank]
  | some a =>
    cases other with
    | none => simp [comparePeriod, periodRank]
    | some b => exact compare_lt_iff_lt.trans WithBot.coe_lt_coe.symm

theorem less_iff_due (t other : Timer) : t.Less other ↔ t.due < other.due := by
  simp only [Timer.Less, Timer.spaceship, Timer.due, Prod.Lex.toLex_lt_toLex]
  rcases lt_trichotomy t.nextWakeup other.nextWakeup with before | same | after
  · simp [compare_lt_iff_lt.mpr before, before]
  · simp [same, comparePeriod_lt]
  · simp [compare_gt_iff_gt.mpr after, after.le, after.ne']

inductive TimerOp
  | push (timer : Timer)
  | emplace (args : TimerArgs)
  | pop
deriving DecidableEq

/-- The timer that an operation puts in the list, if it does. -/
def TimerOp.entering : TimerOp → Option Timer
  | .push timer => some timer
  | .emplace args => args.construct
  | .pop => none

/-- The list, and beside it the timers pushed and not yet popped. -/
structure TimerWorld (heap : TimerHeap) where
  list : TimerList heap
  pending : Multiset Timer

namespace TimerWorld

variable {heap : TimerHeap}

def new : TimerWorld heap := ⟨.new, 0⟩

def step (w : TimerWorld heap) : TimerOp → TimerWorld heap
  | .push timer => ⟨w.list.push timer, timer ::ₘ w.pending⟩
  | .emplace args =>
    match w.list.emplace args, args.construct with
    | some list, some timer => ⟨list, timer ::ₘ w.pending⟩
    | _, _ => w
  | .pop =>
    match w.list.next with
    | some timer => ⟨w.list.pop, w.pending.erase timer⟩
    | none => w

/-- A timer is popped only from a list that has one, and no clock sum overflows. -/
def Admits (w : TimerWorld heap) : TimerOp → Prop
  | .push _ => True
  | .emplace args => args.construct.isSome
  | .pop => w.pending ≠ 0

instance decidableAdmits (w : TimerWorld heap) (op : TimerOp) : Decidable (w.Admits op) :=
  match op with
  | .push _ => .isTrue trivial
  | .emplace args => inferInstanceAs (Decidable (args.construct.isSome = true))
  | .pop => inferInstanceAs (Decidable (¬ w.pending = 0))

end TimerWorld

/- What a list of timers promises of its order: next is a timer due first, pop takes just
that one, and draining gives each timer once, by wakeup. -/
structure EarliestFirst {heap : TimerHeap} (w : TimerWorld heap) : Prop where
  some_next : w.pending ≠ 0 → w.list.next.isSome
  next_first : ∀ t ∈ w.list.next, t ∈ w.pending ∧ ∀ other ∈ w.pending, t.due ≤ other.due
  pop_next : ∀ t ∈ w.list.next, heap.contents w.list.pop.timerHeap = w.pending.erase t
  drain_all : (w.list.drain : Multiset Timer) = w.pending
  drain_sorted : w.list.drain.Pairwise fun t later => t.nextWakeup ≤ later.nextWakeup

/- Nothing enters beside a timer that is due at another time, or at the same time with
another period. -/
def SameDue {heap : TimerHeap} (w : TimerWorld heap) (op : TimerOp) : Prop :=
  ∀ timer ∈ op.entering, ∀ other ∈ w.pending, other.due = timer.due

instance decidableSameDue {heap : TimerHeap} (w : TimerWorld heap) (op : TimerOp) :
    Decidable (SameDue w op) :=
  @Option.decidableForallMem _ _ (fun _ => Multiset.decidableForallMultiset) op.entering

section order

variable {heap : TimerHeap} {w : TimerWorld heap}

/- The list holds what is pending. -/
def Holds (w : TimerWorld heap) : Prop := heap.contents w.list.timerHeap = w.pending

theorem step_entering (w : TimerWorld heap) {op : TimerOp} {timer : Timer}
    (enters : op.entering = some timer) :
    w.step op = ⟨w.list.push timer, timer ::ₘ w.pending⟩ := by
  cases op with
  | push t =>
    cases enters
    rfl
  | emplace args =>
    have made : args.construct = some timer := enters
    simp [TimerWorld.step, TimerList.emplace, made]
  | pop => cases enters

theorem step_pop_some (w : TimerWorld heap) {timer : Timer} (next : w.list.next = some timer) :
    w.step .pop = ⟨w.list.pop, w.pending.erase timer⟩ := by
  simp [TimerWorld.step, next]

theorem next_of_pending (holds : Holds w) (some_left : w.pending ≠ 0) :
    ∃ timer, w.list.next = some timer ∧ timer ∈ w.pending ∧
      ∀ other ∈ w.pending, other.due ≤ timer.due := by
  cases next : w.list.next with
  | none =>
    have nothing := heap.top_none _ next
    exact absurd (holds.symm.trans nothing) some_left
  | some timer =>
    have member := heap.top_mem _ _ next
    have greatest := heap.top_greatest _ _ next
    rw [holds] at member greatest
    refine ⟨timer, rfl, member, ?_⟩
    intro other present
    exact le_of_not_gt (mt (less_iff_due timer other).mpr (greatest other present))

theorem holds_step (w : TimerWorld heap) (op : TimerOp) (holds : Holds w) (admits : w.Admits op) :
    Holds (w.step op) := by
  cases enters : op.entering with
  | some timer =>
    rw [step_entering w enters]
    exact (heap.contents_push _ timer).trans (congrArg (timer ::ₘ ·) holds)
  | none =>
    cases op with
    | push timer => cases enters
    | emplace args =>
      have made : args.construct = none := enters
      simp [TimerWorld.Admits, made] at admits
    | pop =>
      obtain ⟨timer, next, _⟩ := next_of_pending holds admits
      rw [step_pop_some w next]
      exact (heap.contents_pop _ timer next).trans (congrArg (·.erase timer) holds)

/-- The queue keeps a timer due last on top. So it is earliest first only where all of
its timers are due alike. -/
theorem earliestFirst_iff (holds : Holds w) :
    EarliestFirst w ↔ ∀ t ∈ w.pending, ∀ other ∈ w.pending, t.due = other.due := by
  constructor
  · intro first t present other present'
    have some_left : w.pending ≠ 0 := by
      intro none_left
      rw [none_left] at present
      exact Multiset.notMem_zero t present
    obtain ⟨timer, next, _, last⟩ := next_of_pending holds some_left
    have earliest := (first.next_first timer next).2
    have same (t : Timer) (present : t ∈ w.pending) : t.due = timer.due :=
      le_antisymm (last t present) (earliest t present)
    rw [same t present, same other present']
  · intro alike
    have drained : (w.list.drain : Multiset Timer) = w.pending :=
      (heap.drain_contents rfl).trans holds
    refine ⟨?_, ?_, ?_, drained, ?_⟩
    · intro some_left
      obtain ⟨timer, next, _⟩ := next_of_pending holds some_left
      rw [next]
      rfl
    · intro t next
      have member := heap.top_mem _ t next
      rw [holds] at member
      exact ⟨member, fun other present => le_of_eq (alike t member other present)⟩
    · intro t next
      exact (heap.contents_pop _ t next).trans (congrArg (·.erase t) holds)
    · apply List.pairwise_of_forall_mem_list
      intro t present later present'
      rw [← Multiset.mem_coe, drained] at present present'
      have wakeups := congrArg (fun due => (ofLex due).1) (alike t present later present')
      exact le_of_eq wakeups

theorem earliestFirst_step (w : TimerWorld heap) (op : TimerOp) (holds : Holds w)
    (first : EarliestFirst w) (admits : w.Admits op) :
    EarliestFirst (w.step op) ↔ SameDue w op := by
  have alike := (earliestFirst_iff holds).mp first
  rw [earliestFirst_iff (holds_step w op holds admits)]
  cases enters : op.entering with
  | some timer =>
    rw [step_entering w enters, SameDue, enters]
    constructor
    · rintro after timer' ⟨⟩ other present
      exact after other (Multiset.mem_cons_of_mem present) timer (Multiset.mem_cons_self _ _)
    · intro same t present other present'
      have due (t : Timer) (present : t ∈ timer ::ₘ w.pending) : t.due = timer.due := by
        rcases Multiset.mem_cons.mp present with rfl | old
        · rfl
        · exact same timer rfl t old
      rw [due t present, due other present']
  | none =>
    apply iff_of_true
    · cases op with
      | push timer => cases enters
      | emplace args =>
        have made : args.construct = none := enters
        simp [TimerWorld.Admits, made] at admits
      | pop =>
        obtain ⟨timer, next, _⟩ := next_of_pending holds admits
        rw [step_pop_some w next]
        intro t present other present'
        exact alike t (Multiset.mem_of_mem_erase present) other (Multiset.mem_of_mem_erase present')
    · intro timer member
      rw [enters] at member
      cases member

end order

/-- A list of timers is earliest first throughout a run exactly when the timers that it
ever holds together are due alike. -/
theorem earliest_first_iff_due_alike (heap : TimerHeap) (ops : List TimerOp)
    (admitted : Runs.Each TimerWorld.step TimerWorld.Admits (.new : TimerWorld heap) ops) :
    Runs.Always TimerWorld.step EarliestFirst (.new : TimerWorld heap) ops ↔
      Runs.Each TimerWorld.step SameDue (.new : TimerWorld heap) ops := by
  have preserves := fun w op holds admits (_ : SameDue w op) => @holds_step heap w op holds admits
  have empty : Holds (.new : TimerWorld heap) := heap.contents_new
  have first : EarliestFirst (.new : TimerWorld heap) :=
    (earliestFirst_iff empty).mpr (by rintro t present; cases Multiset.notMem_zero t present)
  exact Runs.always_iff_each preserves earliestFirst_step empty first admitted

/- A queue that finds the timer due last by looking through a list. -/
def listHeap : TimerHeap := .ofList Timer.due less_iff_due

theorem two_due_alike :
    Runs.Always TimerWorld.step EarliestFirst (.new : TimerWorld listHeap)
      [.push (.ofWakeup 5 none), .emplace (.ofWakeup 5 none), .pop, .pop] :=
  (earliest_first_iff_due_alike listHeap _ (by decide)).mpr (by decide)

theorem next_is_latest :
    ¬ ∀ (heap : TimerHeap) (ops : List TimerOp),
      Runs.Each TimerWorld.step TimerWorld.Admits (.new : TimerWorld heap) ops →
        Runs.Always TimerWorld.step EarliestFirst (.new : TimerWorld heap) ops := by
  intro claim
  have always := claim listHeap [.push (.ofWakeup 1 none), .push (.ofWakeup 2 none)] (by decide)
  obtain ⟨_, _, first⟩ := always
  have next := first.next_first (.ofWakeup 2 none) rfl
  exact absurd (next.2 (.ofWakeup 1 none) (by decide)) (by decide)

end LibN3
