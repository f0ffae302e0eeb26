import LibN3.Timer
import LibN3.Runs

/-! A timer over its whole life, with every call of its interface. What it answers is read off
the looks taken at it: each poll of an active timer, with the period it then had. -/
namespace LibN3

inductive TimerCall
  | poll (poll : Poll) (now : TimePoint)
  | resume
  | pause
  | stopRepeat
  | repeat_ (interval : Duration)
  | reset (wakeup : TimePoint) (interval : Option Duration)
deriving DecidableEq

def Timer.call (t : Timer) : TimerCall → Option Timer
  | .poll poll now => (Poll.observe t (poll, now)).map Prod.fst
  | .resume => some t.resume
  | .pause => some t.pause
  | .stopRepeat => some t.stopRepeat
  | .repeat_ interval => some (t.repeat_ interval)
  | .reset wakeup interval => some (t.reset wakeup interval)

def Timer.callAll (t : Timer) (calls : List TimerCall) : Option Timer := calls.foldlM Timer.call t

abbrev Look := TimePoint × Option Duration

/-- When the timer is due after these looks: a period after the last one that had a period, and
at its wakeup when there was none. -/
def dueAfter (wakeup : TimePoint) : List Look → TimePoint
  | [] => wakeup
  | (now, some interval) :: rest => dueAfter (now + interval) rest
  | (_, none) :: rest => dueAfter wakeup rest

/- One of the looks came no sooner than the timer was due after those before it. -/
def Elapsed (wakeup : TimePoint) (looks : List Look) : Prop :=
  ∃ before look after, looks = before ++ look :: after ∧ dueAfter wakeup before ≤ look.1

/-- A timer as a log: the wakeup it was last set to, the looks since then, whether a look would
be taken, and the period in force. Neither a flag for the elapse nor a next wakeup is kept. -/
structure TimerLog where
  wakeup : TimePoint
  looks : List Look
  awake : Bool
  period : Option Duration
deriving DecidableEq

namespace TimerLog

def due (log : TimerLog) : TimePoint := dueAfter log.wakeup log.looks

def look (log : TimerLog) (now : TimePoint) : TimerLog :=
  { log with
    looks := log.looks ++ [(now, log.period)]
    awake := log.period.isSome || decide (now < log.due) }

def call (log : TimerLog) : TimerCall → TimerLog
  | .poll _ now => if log.awake then log.look now else log
  | .resume => { log with awake := true }
  | .pause => { log with awake := false }
  | .stopRepeat => { log with period := none }
  | .repeat_ interval => { log with period := some interval, awake := true }
  | .reset wakeup interval => ⟨wakeup, [], true, interval⟩

end TimerLog

/- The log of a timer just set. -/
def Timer.log (t : Timer) : TimerLog := ⟨t.nextWakeup, [], true, t.period⟩

/- The timer is what the log says. -/
structure Follows (t : Timer) (log : TimerLog) : Prop where
  wakeup : t.nextWakeup = log.due
  period : t.period = log.period
  active : t.active = log.awake
  fired : t.fired = true ↔ Elapsed log.wakeup log.looks

theorem dueAfter_append (wakeup : TimePoint) (looks more : List Look) :
    dueAfter wakeup (looks ++ more) = dueAfter (dueAfter wakeup looks) more := by
  induction looks generalizing wakeup with
  | nil => rfl
  | cons look rest ih =>
    obtain ⟨now, period⟩ := look
    cases period with
    | none => exact ih wakeup
    | some interval => exact ih (now + interval)

theorem not_elapsed_nil (wakeup : TimePoint) : ¬ Elapsed wakeup [] := by
  rintro ⟨before, look, after, eq, _⟩
  exact absurd (congrArg List.length eq) (by simp)

theorem elapsed_snoc (wakeup : TimePoint) (looks : List Look) (look : Look) :
    Elapsed wakeup (looks ++ [look]) ↔ Elapsed wakeup looks ∨ dueAfter wakeup looks ≤ look.1 := by
  constructor
  · rintro ⟨before, found, after, eq, reached⟩
    rcases List.eq_nil_or_concat after with rfl | ⟨early, last, rfl⟩
    · obtain ⟨rfl, tail⟩ := List.append_inj' eq rfl
      cases tail
      exact .inr reached
    · rw [List.concat_eq_append, ← List.cons_append, ← List.append_assoc] at eq
      obtain ⟨rfl, _⟩ := List.append_inj' eq rfl
      exact .inl ⟨before, found, early, rfl, reached⟩
  · rintro (⟨before, found, after, rfl, reached⟩ | reached)
    · exact ⟨before, found, after ++ [look], by simp, reached⟩
    · exact ⟨looks, look, [], rfl, reached⟩

namespace Follows

variable {t t' : Timer} {log : TimerLog}

theorem armed {arming : Arming} (set : arming.timer = some t) : Follows t t.log := by
  obtain ⟨active, quiet⟩ := armed_waits set
  refine ⟨rfl, rfl, active, ?_⟩
  rw [quiet]
  exact iff_of_false Bool.false_ne_true (not_elapsed_nil _)

theorem observe_eq (t : Timer) (poll : Poll) (now : TimePoint) :
    t.call (.poll poll now) = t.update now := by
  cases poll <;> simp [Timer.call, Poll.observe, Timer.isActive, Timer.hasElapsed,
    Function.comp_def]

/-- An update of an active timer is a look. -/
theorem update (rel : Follows t log) (active : t.active = true) {now : TimePoint}
    (updated : t.update now = some t') : Follows t' (log.look now) := by
  obtain ⟨wakeup, period, awake, fired⟩ := rel
  have elapses : (t.fired = true ∨ t.nextWakeup ≤ now) ↔
      Elapsed log.wakeup (log.looks ++ [(now, log.period)]) := by
    rw [elapsed_snoc, fired, wakeup]
    exact Iff.rfl
  cases repeats : t.period with
  | none =>
    have same : log.period = none := by rw [← period, repeats]
    have stays : (log.look now).due = t.nextWakeup := by
      rw [wakeup, TimerLog.due, TimerLog.look, dueAfter_append, same]
      rfl
    by_cases reached : t.nextWakeup ≤ now
    · simp only [Timer.update, active, repeats, reached, Bool.not_true, Bool.false_eq_true,
        if_false, if_true, Option.isNone_none, Option.some.injEq] at updated
      subst updated
      refine ⟨stays.symm, same.symm, ?_, ?_⟩
      · have late : ¬ now < log.due := by rw [← wakeup]; exact not_lt.mpr reached
        simp [TimerLog.look, same, late]
      · exact iff_of_true rfl (elapses.mp (.inr reached))
    · simp only [Timer.update, active, repeats, reached, Bool.not_true, Bool.false_eq_true,
        if_false, Option.some.injEq] at updated
      subst updated
      refine ⟨stays.symm, period, ?_, ?_⟩
      · have early : now < log.due := by rw [← wakeup]; exact not_le.mp reached
        simp [TimerLog.look, same, early, active]
      · exact (or_iff_left reached).symm.trans elapses
  | some interval =>
    have same : log.period = some interval := by rw [← period, repeats]
    rw [update_periodic repeats active] at updated
    obtain ⟨sum, fits, rfl⟩ := Option.map_eq_some_iff.mp updated
    have moved : sum = now + interval := by
      unfold later at fits
      split at fits
      · exact (Option.some.inj fits).symm
      · cases fits
    refine ⟨?_, same.symm, ?_, ?_⟩
    · rw [TimerLog.due, TimerLog.look, dueAfter_append, same]
      exact moved
    · simp [TimerLog.look, same]
    · rw [TimerLog.look]
      refine Iff.trans ?_ elapses
      simp only [Bool.or_eq_true, decide_eq_true_eq]

theorem call (rel : Follows t log) {c : TimerCall} (returns : t.call c = some t') :
    Follows t' (log.call c) := by
  obtain ⟨wakeup, period, awake, fired⟩ := rel
  cases c with
  | poll poll now =>
    rw [observe_eq] at returns
    cases active : t.active with
    | true =>
      rw [active] at awake
      rw [TimerLog.call, ← awake, if_pos rfl]
      exact update ⟨wakeup, period, active.trans awake, fired⟩ active returns
    | false =>
      have idle : t' = t := by
        simp only [Timer.update, active, Bool.not_false, if_true, Option.some.injEq] at returns
        exact returns.symm
      rw [active] at awake
      rw [TimerLog.call, ← awake, if_neg Bool.false_ne_true, idle]
      exact ⟨wakeup, period, active.trans awake, fired⟩
  | resume =>
    cases returns
    exact ⟨wakeup, period, rfl, fired⟩
  | pause =>
    cases returns
    exact ⟨wakeup, period, rfl, fired⟩
  | stopRepeat =>
    cases returns
    exact ⟨wakeup, rfl, awake, fired⟩
  | repeat_ interval =>
    cases returns
    exact ⟨wakeup, rfl, rfl, fired⟩
  | reset first interval =>
    cases returns
    exact ⟨rfl, rfl, rfl, iff_of_false Bool.false_ne_true (not_elapsed_nil _)⟩

theorem callAll (rel : Follows t log) {calls : List TimerCall}
    (returns : t.callAll calls = some t') : Follows t' (Runs.run TimerLog.call log calls) := by
  induction calls generalizing t log with
  | nil =>
    cases returns
    exact rel
  | cons c rest ih =>
    obtain ⟨next, first, later⟩ := Option.bind_eq_some_iff.mp returns
    exact ih (rel.call first) later

end Follows

/-- Whatever is called of a timer, in any order and at any instants, it answers by its log: it
has elapsed when some look since it was last set came no sooner than a period after the last
look that had one, or than its wakeup. -/
theorem timer_follows_log (arming : Arming) (t : Timer) (armed : arming.timer = some t)
    (calls : List TimerCall) (t' : Timer) (returns : t.callAll calls = some t') :
    Follows t' (Runs.run TimerLog.call t.log calls) :=
  (Follows.armed armed).callAll returns

theorem repeated_timer_follows_log :
    Follows ⟨17, none, false, true⟩
      (Runs.run TimerLog.call (Timer.log (.ofWakeup 10 none))
        [.poll .hasElapsed 8, .repeat_ 5, .poll .isActive 12, .pause, .poll .hasElapsed 20,
          .resume, .stopRepeat, .poll .isActive 17]) :=
  timer_follows_log (.ofWakeup 10 none) _ rfl _ _ (by decide)

end LibN3
