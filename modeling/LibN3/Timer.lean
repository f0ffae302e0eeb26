import Mathlib.Algebra.Order.Group.Int
import Mathlib.Tactic.Common

/-! Timer of timer_list.h. An instant and an interval are counts of nanoseconds, kept in
64 bits by the clock; what Clock::now() returns where the code asks is an argument. -/
namespace LibN3

abbrev TimePoint := ℤ
abbrev Duration := ℤ

def Countable (time : TimePoint) : Prop := -2 ^ 63 ≤ time ∧ time < 2 ^ 63

instance (time : TimePoint) : Decidable (Countable time) :=
  inferInstanceAs (Decidable (_ ∧ _))

/-- time + interval. A signed sum that leaves the 64 bits is undefined. -/
def later (time : TimePoint) (interval : Duration) : Option TimePoint :=
  if Countable (time + interval) then some (time + interval) else none

structure Timer where
  nextWakeup : TimePoint
  period : Option Duration
  active : Bool
  fired : Bool
deriving DecidableEq

namespace Timer

def update (t : Timer) (now : TimePoint) : Option Timer :=
  if !t.active then some t
  else
    let elapsed : Timer :=
      if t.nextWakeup ≤ now then
        { t with fired := true, active := if t.period.isNone then false else t.active }
      else t
    match t.period with
    | none => some elapsed
    | some interval => (later now interval).map fun wakeup => { elapsed with nextWakeup := wakeup }

def ofInterval (now : TimePoint) (interval : Duration) : Option Timer :=
  (later now interval).map fun wakeup => ⟨wakeup, some interval, true, false⟩

def ofWakeup (wakeup : TimePoint) (interval : Option Duration) : Timer :=
  ⟨wakeup, interval, true, false⟩

def isActive (t : Timer) (now : TimePoint) : Option (Timer × Bool) :=
  (t.update now).map fun t => (t, t.active)

def hasElapsed (t : Timer) (now : TimePoint) : Option (Timer × Bool) :=
  (t.update now).map fun t => (t, t.fired)

def resume (t : Timer) : Timer := { t with active := true }

def pause (t : Timer) : Timer := { t with active := false }

def stopRepeat (t : Timer) : Timer := { t with period := none }

def repeat_ (t : Timer) (interval : Duration) : Timer := { t with period := some interval }.resume

def reset (t : Timer) (wakeup : TimePoint) (interval : Option Duration) : Timer :=
  { t with nextWakeup := wakeup, period := interval, fired := false }.resume

end Timer

/-- The ways a timer is set to a first wakeup. -/
inductive Arming
  | ofInterval (now : TimePoint) (interval : Duration)
  | ofWakeup (wakeup : TimePoint) (interval : Option Duration)
  | reset (old : Timer) (wakeup : TimePoint) (interval : Option Duration)
deriving DecidableEq

def Arming.timer : Arming → Option Timer
  | .ofInterval now interval => Timer.ofInterval now interval
  | .ofWakeup wakeup interval => some (.ofWakeup wakeup interval)
  | .reset old wakeup interval => some (old.reset wakeup interval)

inductive Poll
  | isActive
  | hasElapsed
deriving DecidableEq

def Poll.observe (t : Timer) : Poll × TimePoint → Option (Timer × Bool)
  | (.isActive, now) => t.isActive now
  | (.hasElapsed, now) => t.hasElapsed now

def Timer.pollAll (t : Timer) (polls : List (Poll × TimePoint)) : Option Timer :=
  polls.foldlM (fun t poll => (Poll.observe t poll).map Prod.fst) t

/- After these polls, has_elapsed at this instant reports whether the wakeup has come. -/
def ElapsesOnTime (t : Timer) (polls : List (Poll × TimePoint)) (now : TimePoint) : Prop :=
  ∃ polled, t.pollAll polls = some polled ∧
    ∃ after elapsed, polled.hasElapsed now = some (after, elapsed) ∧
      (elapsed = true ↔ t.nextWakeup ≤ now)

/- No poll is so late that its instant and the period have no sum. And the timer is
overdue at the first poll; or else it is due at the last one exactly when two successive
polls are a whole period apart. -/
def PolledInStep (wakeup : TimePoint) (interval : Duration) (instants : List TimePoint)
    (now : TimePoint) : Prop :=
  (∀ time ∈ instants ++ [now], Countable (time + interval)) ∧
    ((∀ time ∈ instants ++ [now], wakeup ≤ time) ∨
      (wakeup ≤ now ↔ ¬ (instants ++ [now]).IsChain fun time next => next < time + interval))

/-- Each of the two observers looks at the timer through the same update. -/
theorem pollAll_eq (t : Timer) (polls : List (Poll × TimePoint)) :
    t.pollAll polls = (polls.map Prod.snd).foldlM Timer.update t := by
  have observed (t : Timer) (poll : Poll × TimePoint) :
      (Poll.observe t poll).map Prod.fst = t.update poll.2 := by
    obtain ⟨_ | _, now⟩ := poll <;>
      simp [Poll.observe, Timer.isActive, Timer.hasElapsed, Function.comp_def]
  simp only [Timer.pollAll, observed, List.foldlM_map]

theorem elapsesOnTime_iff (t : Timer) (polls : List (Poll × TimePoint)) (now : TimePoint) :
    ElapsesOnTime t polls now ↔
      ∃ after, (polls.map Prod.snd ++ [now]).foldlM Timer.update t = some after ∧
        (after.fired = true ↔ t.nextWakeup ≤ now) := by
  simp only [ElapsesOnTime, pollAll_eq, Timer.hasElapsed, List.foldlM_append, List.foldlM_cons,
    List.foldlM_nil]
  constructor
  · rintro ⟨polled, run, after, elapsed, last, on_time⟩
    obtain ⟨t', updated, same⟩ := Option.map_eq_some_iff.mp last
    cases same
    exact ⟨after, by simp [run, updated], on_time⟩
  · rintro ⟨after, run, on_time⟩
    obtain ⟨polled, before, last⟩ := Option.bind_eq_some_iff.mp run
    have updated : polled.update now = some after := by simpa using last
    exact ⟨polled, before, after, after.fired, by rw [updated]; rfl, on_time⟩

section one_shot

/-- A timer with no period: it stays active until it has fired. -/
structure OneShot (t : Timer) : Prop where
  once : t.period = none
  waits : t.active = !t.fired

theorem update_one_shot {t : Timer} (shot : OneShot t) (now : TimePoint) :
    ∃ t', t.update now = some t' ∧ OneShot t' ∧ t'.nextWakeup = t.nextWakeup ∧
      (t'.fired = true ↔ t.fired = true ∨ t.nextWakeup ≤ now) := by
  obtain ⟨once, waits⟩ := shot
  cases fired : t.fired with
  | true =>
    have idle : t.active = false := by rw [waits, fired]; rfl
    exact ⟨t, by simp [Timer.update, idle], ⟨once, waits⟩, rfl, by simp [fired]⟩
  | false =>
    have waiting : t.active = true := by rw [waits, fired]; rfl
    by_cases due : t.nextWakeup ≤ now
    · exact ⟨{ t with fired := true, active := false },
        by simp [Timer.update, waiting, due, once], ⟨once, rfl⟩, rfl, by simp [due]⟩
    · exact ⟨t, by simp [Timer.update, waiting, due, once], ⟨once, waits⟩, rfl,
        by simp [due, fired]⟩

theorem updates_one_shot {t : Timer} (shot : OneShot t) (instants : List TimePoint) :
    ∃ t', instants.foldlM Timer.update t = some t' ∧
      (t'.fired = true ↔ t.fired = true ∨ ∃ time ∈ instants, t.nextWakeup ≤ time) := by
  induction instants generalizing t with
  | nil => exact ⟨t, rfl, by simp⟩
  | cons time instants ih =>
    obtain ⟨next, updated, shot', wakeup, fired⟩ := update_one_shot shot time
    obtain ⟨last, run, result⟩ := ih shot'
    refine ⟨last, ?_, ?_⟩
    · rw [List.foldlM_cons, updated]
      exact run
    · simp only [result, fired, wakeup, or_assoc, List.mem_cons, exists_eq_or_imp]

end one_shot

section periodic

variable {t : Timer} {interval : Duration}

/-- A periodic timer is set again from the instant it is polled at, due or not. -/
theorem update_periodic (repeats : t.period = some interval) (active : t.active = true)
    (now : TimePoint) : t.update now = (later now interval).map fun wakeup =>
      ⟨wakeup, some interval, true, t.fired || decide (t.nextWakeup ≤ now)⟩ := by
  obtain ⟨wakeup, period, _, fired⟩ := t
  subst repeats active
  by_cases due : wakeup ≤ now <;> simp [Timer.update, due]

/-- The timer fires at the first instant that its wakeup, set at the one before, meets. -/
def Fires (interval : Duration) (wakeup : TimePoint) : List TimePoint → Prop
  | [] => False
  | time :: instants => wakeup ≤ time ∨ Fires interval (time + interval) instants

theorem fires_iff (time : TimePoint) (instants : List TimePoint) :
    Fires interval (time + interval) instants ↔
      ¬ (time :: instants).IsChain fun time next => next < time + interval := by
  induction instants generalizing time with
  | nil => simp [Fires]
  | cons next instants ih => rw [Fires, ih, List.isChain_cons_cons, not_and_or, not_lt]

/-- Overdue at the first of the instants, a timer fires and is due at the last. Otherwise it
fires exactly when two instants are a whole period apart. -/
theorem fires_when_due_iff {wakeup now first : TimePoint} {rest : List TimePoint}
    (ordered : (first :: rest).Pairwise (· ≤ ·)) (last : now ∈ first :: rest) :
    (Fires interval wakeup (first :: rest) ↔ wakeup ≤ now) ↔
      (∀ time ∈ first :: rest, wakeup ≤ time) ∨
        (wakeup ≤ now ↔ ¬ (first :: rest).IsChain fun time next => next < time + interval) := by
  rw [Fires, fires_iff]
  by_cases overdue : wakeup ≤ first
  · have from_first : ∀ time ∈ first :: rest, wakeup ≤ time := by
      intro time member
      rcases List.mem_cons.mp member with rfl | after
      · exact overdue
      · exact Int.le_trans overdue ((List.pairwise_cons.mp ordered).1 time after)
    exact iff_of_true (iff_of_true (.inl overdue) (from_first now last)) (.inl from_first)
  · have not_all : ¬ ∀ time ∈ first :: rest, wakeup ≤ time :=
      fun every => overdue (every first List.mem_cons_self)
    rw [or_iff_right overdue, or_iff_right not_all]
    exact iff_comm

theorem updates_periodic (repeats : t.period = some interval) (active : t.active = true)
    (instants : List TimePoint) (Due : Prop) :
    (∃ after, instants.foldlM Timer.update t = some after ∧ (after.fired = true ↔ Due)) ↔
      (∀ time ∈ instants, Countable (time + interval)) ∧
        (t.fired = true ∨ Fires interval t.nextWakeup instants ↔ Due) := by
  induction instants generalizing t with
  | nil => simp [Fires]
  | cons time instants ih =>
    rw [List.foldlM_cons, update_periodic repeats active, later, List.forall_mem_cons, Fires]
    by_cases fits : Countable (time + interval)
    · rw [if_pos fits, and_iff_right fits]
      refine (ih rfl rfl).trans ?_
      simp only [Bool.or_eq_true, decide_eq_true_eq, or_assoc]
    · rw [if_neg fits]
      simp [fits]

end periodic

theorem armed_waits {arming : Arming} {t : Timer} (armed : arming.timer = some t) :
    t.active = true ∧ t.fired = false := by
  cases arming with
  | ofInterval now interval =>
    obtain ⟨wakeup, _, rfl⟩ := Option.map_eq_some_iff.mp armed
    exact ⟨rfl, rfl⟩
  | ofWakeup wakeup interval =>
    cases armed
    exact ⟨rfl, rfl⟩
  | reset old wakeup interval =>
    cases armed
    exact ⟨rfl, rfl⟩

/- A wakeup has come at one of the instants exactly when it has come at the last. -/
theorem due_by_last_iff {instants : List TimePoint} {now : TimePoint} (wakeup : TimePoint)
    (ordered : (instants ++ [now]).Pairwise (· ≤ ·)) :
    (∃ time ∈ instants ++ [now], wakeup ≤ time) ↔ wakeup ≤ now := by
  constructor
  · rintro ⟨time, member, due⟩
    rcases List.mem_append.mp member with earlier | here
    · have until_now : time ≤ now :=
        (List.pairwise_append.mp ordered).2.2 time earlier now List.mem_cons_self
      exact Int.le_trans due until_now
    · rw [← List.mem_singleton.mp here]
      exact due
  · intro due
    exact ⟨now, List.mem_append_right instants List.mem_cons_self, due⟩

/-- However a timer is polled, has_elapsed answers at the last poll whether its wakeup has
come exactly when it has no period, or is polled in step with it. -/
theorem elapses_on_time_iff_in_step (arming : Arming) (t : Timer) (armed : arming.timer = some t)
    (polls : List (Poll × TimePoint)) (now : TimePoint)
    (ordered : (polls.map Prod.snd ++ [now]).Pairwise (· ≤ ·)) :
    ElapsesOnTime t polls now ↔
      ∀ interval ∈ t.period, PolledInStep t.nextWakeup interval (polls.map Prod.snd) now := by
  obtain ⟨active, quiet⟩ := armed_waits armed
  have last : now ∈ polls.map Prod.snd ++ [now] := by simp
  rw [elapsesOnTime_iff]
  generalize polls.map Prod.snd = instants at ordered last ⊢
  cases period : t.period with
  | none =>
    obtain ⟨after, run, fired⟩ := updates_one_shot ⟨period, by rw [active, quiet]; rfl⟩
      (instants ++ [now])
    refine iff_of_true ⟨after, run, fired.trans ?_⟩ (by rintro interval ⟨⟩)
    simp only [quiet, Bool.false_eq_true, false_or]
    exact due_by_last_iff t.nextWakeup ordered
  | some interval =>
    rw [updates_periodic period active, quiet]
    simp only [Option.mem_some_iff, forall_eq', PolledInStep, Bool.false_eq_true, false_or]
    apply and_congr_right
    intro _
    cases all : instants ++ [now] with
    | nil => simp at all
    | cons first rest =>
      rw [all] at ordered last
      exact fires_when_due_iff ordered last

theorem polled_in_step_elapses :
    ElapsesOnTime (.ofWakeup 10 (some 5)) [(.isActive, 2), (.hasElapsed, 4)] 12 :=
  (elapses_on_time_iff_in_step (.ofWakeup 10 (some 5)) _ rfl _ 12 (by decide)).mpr (by
    rintro interval ⟨⟩
    exact ⟨by decide, .inr (by decide)⟩)

/-- Due at 10 and polled at 8, a timer of period 5 is put off until 13. -/
theorem poll_postpones_elapse :
    ¬ ∀ (arming : Arming) (t : Timer), arming.timer = some t →
      (∀ interval ∈ t.period, 0 < interval) →
        ∀ (polls : List (Poll × TimePoint)) (now : TimePoint),
          (polls.map Prod.snd ++ [now]).Pairwise (· ≤ ·) → ElapsesOnTime t polls now := by
  intro claim
  have on_time := claim (.ofWakeup 10 (some 5)) _ rfl (by rintro interval ⟨⟩; decide)
    [(.isActive, 8)] 10 (by decide)
  obtain ⟨polled, run, after, elapsed, answered, due⟩ := on_time
  cases run
  cases answered
  exact absurd (due.mpr (by decide)) (by decide)

end LibN3
