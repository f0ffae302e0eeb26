import Mathlib.Data.ENat.Basic
import LibN3.Epoll

/-! The timeout of epoll_ctx::wait, against a kernel that keeps its own. Moments are counted
in nanoseconds from the call, and what never comes has none. -/
namespace LibN3
open Error

/-- What happens beside the call: when the first events are ready and which these are, and
when a signal arrives. -/
structure Schedule where
  ready : ℕ∞
  events : List EpollEvent
  some_ready : events ≠ []
  signal : ℕ∞

def milliseconds (n : ℕ) : ℕ∞ := (n * 1000000 : ℕ)

theorem milliseconds_le_iff {m n : ℕ} : milliseconds m ≤ milliseconds n ↔ m ≤ n := by
  unfold milliseconds
  rw [Nat.cast_le]
  omega

theorem milliseconds_lt_iff {m n : ℕ} : milliseconds m < milliseconds n ↔ m < n :=
  lt_iff_lt_of_le_iff_le milliseconds_le_iff

def deadline (timeout : Int32) : ℕ∞ :=
  if timeout < 0 then ⊤ else milliseconds timeout.toInt.toNat

/-- epoll_wait returns at the first of the events, the deadline and the signal, in this order
where they come together, or never. -/
def Schedule.epollWait (s : Schedule) (timeout : Int32) :
    Option (Except Int32 (List EpollEvent)) :=
  if s.ready ≤ deadline timeout ∧ s.ready ≤ s.signal ∧ s.ready ≠ ⊤ then
    some (.ok (s.events.take EpollCtx.eventBufferSize))
  else if deadline timeout ≤ s.signal ∧ deadline timeout ≠ ⊤ then some (.ok [])
  else if s.signal ≠ ⊤ then some (.error EINTR)
  else none

/-- Zero where there is no timeout, and the count kept modulo 2^32. -/
def epollTimeout (timeoutMs : Option Int64) : Int32 := (timeoutMs.getD 0).toInt32

def EpollCtx.waitFor (timeoutMs : Option Int64) (s : Schedule) :
    Option (Except Int32 (List EpollEvent)) :=
  (s.epollWait (epollTimeout timeoutMs)).map EpollCtx.wait

def Interrupted (timeoutMs : Option Int64) (s : Schedule) : Prop :=
  s.epollWait (epollTimeout timeoutMs) = some (.error EINTR)

def NoEventWithin (d : Int64) (s : Schedule) : Prop := milliseconds d.toInt.toNat < s.ready

/- ETIMEDOUT has a reason, and a wait with a timeout a limit. -/
structure Honoured (timeoutMs : Option Int64) (s : Schedule) : Prop where
  timed_out : EpollCtx.waitFor timeoutMs s = some (.error ETIMEDOUT) →
    Interrupted timeoutMs s ∨ ∃ d ∈ timeoutMs, NoEventWithin d s
  limited : timeoutMs.isSome → deadline (epollTimeout timeoutMs) ≠ ⊤

def lowBits (d : Int64) : ℕ := d.toInt.toNat % 2 ^ 32

/- Without a timeout an event is ready at the call. With one, its low 32 bits are no negative
int, and by the time they stand for an event is ready or a signal has come, unless none gets
ready within the timeout. -/
def KeepsTimeout (s : Schedule) : Option Int64 → Prop
  | none => s.ready = 0
  | some d => lowBits d < 2 ^ 31 ∧ (s.ready ≤ milliseconds (lowBits d) ∨
      s.signal < milliseconds (lowBits d) ∨ NoEventWithin d s)

section kernel

variable (s : Schedule) {timeout : Int32}

theorem deadline_ne_top_iff : deadline timeout ≠ ⊤ ↔ 0 ≤ timeout.toInt := by
  have sign : timeout < 0 ↔ timeout.toInt < 0 := Int32.lt_iff_toInt_lt
  unfold deadline milliseconds
  split
  · rename_i negative
    have below := sign.mp negative
    simp only [ne_eq, not_true_eq_false, false_iff]
    omega
  · rename_i positive
    have above := mt sign.mpr positive
    simp only [ne_eq, ENat.natCast_ne_top, not_false_eq_true, true_iff]
    omega

theorem deadline_eq (limit : 0 ≤ timeout.toInt) :
    deadline timeout = milliseconds timeout.toInt.toNat := by
  have positive : ¬ timeout < 0 := by
    rw [Int32.lt_iff_toInt_lt]
    exact Int.not_lt.mpr limit
  rw [deadline, if_neg positive]

theorem epollWait_nothing_iff :
    s.epollWait timeout = some (.ok []) ↔
      deadline timeout ≠ ⊤ ∧ deadline timeout < s.ready ∧ deadline timeout ≤ s.signal := by
  have delivered : s.events.take EpollCtx.eventBufferSize ≠ [] := by
    simp [EpollCtx.eventBufferSize, s.some_ready]
  unfold Schedule.epollWait
  split
  · rename_i first
    have none_empty : some (.ok (s.events.take EpollCtx.eventBufferSize)) ≠
        some (.ok [] : Except Int32 (List EpollEvent)) := by
      simpa using delivered
    exact iff_of_false none_empty fun later => absurd first.1 (not_le_of_gt later.2.1)
  · rename_i not_first
    split
    · rename_i due
      have later : deadline timeout < s.ready := by
        by_contra early
        have ready := le_of_not_gt early
        exact not_first ⟨ready, ready.trans due.1, (ready.trans_lt due.2.lt_top).ne⟩
      exact iff_of_true rfl ⟨due.2, later, due.1⟩
    · rename_i not_due
      refine iff_of_false ?_ fun due => not_due ⟨due.2.2, due.1⟩
      split <;> simp

theorem epollWait_error {errno : Int32}
    (fails : s.epollWait timeout = some (.error errno)) : errno = EINTR := by
  unfold Schedule.epollWait at fails
  split at fails
  · cases fails
  · split at fails
    · cases fails
    · split at fails
      · cases fails
        rfl
      · cases fails

end kernel

section wait

variable (s : Schedule) {d : Int64}

theorem waitFor_timed_out_iff (timeoutMs : Option Int64) :
    EpollCtx.waitFor timeoutMs s = some (.error ETIMEDOUT) ↔
      Interrupted timeoutMs s ∨ s.epollWait (epollTimeout timeoutMs) = some (.ok []) := by
  unfold EpollCtx.waitFor Interrupted
  cases answer : s.epollWait (epollTimeout timeoutMs) with
  | none => simp
  | some returned =>
    cases returned with
    | ok events => cases events <;> simp [EpollCtx.wait]
    | error errno =>
      cases epollWait_error s answer
      simp [EpollCtx.wait]

theorem honoured_iff_nothing_missed (timeoutMs : Option Int64) :
    Honoured timeoutMs s ↔
      (s.epollWait (epollTimeout timeoutMs) = some (.ok []) →
        ∃ d ∈ timeoutMs, NoEventWithin d s) ∧
      (timeoutMs.isSome → deadline (epollTimeout timeoutMs) ≠ ⊤) := by
  constructor
  · rintro ⟨timed_out, limited⟩
    refine ⟨fun nothing => ?_, limited⟩
    rcases timed_out ((waitFor_timed_out_iff s timeoutMs).mpr (.inr nothing)) with stopped | later
    · rw [Interrupted, nothing] at stopped
      cases stopped
    · exact later
  · rintro ⟨nothing_missed, limited⟩
    refine ⟨fun timed_out => ?_, limited⟩
    rcases (waitFor_timed_out_iff s timeoutMs).mp timed_out with stopped | nothing
    · exact .inl stopped
    · exact .inr (nothing_missed nothing)

theorem toInt_epollTimeout (nonneg : 0 ≤ d) :
    (epollTimeout (some d)).toInt =
      if lowBits d < 2 ^ 31 then (lowBits d : ℤ) else (lowBits d : ℤ) - 2 ^ 32 := by
  have count : 0 ≤ d.toInt := Int64.le_iff_toInt_le.mp nonneg
  have low : (lowBits d : ℤ) = d.toInt % 4294967296 := by
    rw [lowBits, Int.natCast_mod, Int.toNat_of_nonneg count]
    rfl
  have narrowed : (epollTimeout (some d)).toInt = d.toInt.bmod (2 ^ 32) := Int64.toInt_toInt32 d
  rw [narrowed, Int.bmod_def]
  push_cast
  rw [← low]
  split <;> split <;> omega

theorem limited_iff (nonneg : 0 ≤ d) :
    deadline (epollTimeout (some d)) ≠ ⊤ ↔ lowBits d < 2 ^ 31 := by
  have bound : lowBits d < 2 ^ 32 := Nat.mod_lt _ (by decide)
  rw [deadline_ne_top_iff, toInt_epollTimeout nonneg]
  split
  · rename_i fits
    exact iff_of_true (Int.natCast_nonneg _) fits
  · rename_i wraps
    exact iff_of_false (by omega) wraps

theorem deadline_low (nonneg : 0 ≤ d) (fits : lowBits d < 2 ^ 31) :
    deadline (epollTimeout (some d)) = milliseconds (lowBits d) := by
  have kept : (epollTimeout (some d)).toInt = lowBits d := by
    rw [toInt_epollTimeout nonneg, if_pos fits]
  rw [deadline_eq (by omega), kept, Int.toNat_natCast]

theorem honoured_none_iff : Honoured none s ↔ KeepsTimeout s none := by
  have at_once : deadline (epollTimeout none) = 0 := rfl
  rw [honoured_iff_nothing_missed, epollWait_nothing_iff]
  simp [KeepsTimeout, at_once]

theorem honoured_some_iff (nonneg : 0 ≤ d) : Honoured (some d) s ↔ KeepsTimeout s (some d) := by
  rw [honoured_iff_nothing_missed, epollWait_nothing_iff]
  simp only [Option.mem_some_iff, exists_eq_left', Option.isSome_some, true_imp_iff,
    limited_iff nonneg, KeepsTimeout]
  constructor
  · rintro ⟨nothing_missed, fits⟩
    rw [deadline_low nonneg fits] at nothing_missed
    refine ⟨fits, ?_⟩
    by_contra missed
    rw [not_or, not_or] at missed
    exact missed.2.2 (nothing_missed ⟨fits, lt_of_not_ge missed.1, le_of_not_gt missed.2.1⟩)
  · rintro ⟨fits, in_time⟩
    refine ⟨fun nothing => ?_, fits⟩
    rw [deadline_low nonneg fits] at nothing
    rcases in_time with ready | signalled | none_due
    · exact absurd ready (not_le_of_gt nothing.2.1)
    · exact absurd signalled (not_lt_of_ge nothing.2.2)
    · exact none_due

end wait

def oneEventAt (ready : ℕ∞) : Schedule := ⟨ready, [⟨EPOLLIN, 0⟩], List.cons_ne_nil _ _, ⊤⟩

/-- A timeout is kept whatever happens exactly when there is one and it fits an int. -/
theorem always_honoured_iff_fits (timeoutMs : Option Int64) (nonneg : ∀ d ∈ timeoutMs, 0 ≤ d) :
    (∀ s, Honoured timeoutMs s) ↔ ∃ d ∈ timeoutMs, d.toInt < 2 ^ 31 := by
  cases timeoutMs with
  | none =>
    have missed : ¬ ∀ s, Honoured none s := fun kept =>
      absurd ((honoured_none_iff _).mp (kept (oneEventAt 1))) one_ne_zero
    exact iff_of_false missed (by rintro ⟨d, ⟨⟩, _⟩)
  | some d =>
    have count : 0 ≤ d.toInt := Int64.le_iff_toInt_le.mp (nonneg d rfl)
    simp only [honoured_some_iff _ (nonneg d rfl), Option.mem_some_iff, exists_eq_left']
    constructor
    · intro kept
      obtain ⟨fits, in_time⟩ := kept (oneEventAt (milliseconds d.toInt.toNat))
      rcases in_time with ready | signalled | none_due
      · have whole := milliseconds_le_iff.mp ready
        omega
      · exact absurd signalled not_top_lt
      · exact absurd none_due (lt_irrefl _)
    · intro fits s
      have low : lowBits d = d.toInt.toNat := Nat.mod_eq_of_lt (by omega)
      refine ⟨by omega, ?_⟩
      rw [low]
      rcases le_or_gt s.ready (milliseconds d.toInt.toNat) with ready | later
      · exact .inl ready
      · exact .inr (.inr later)

/-- A wait without a timeout is one for no time at all, and a wait with a timeout is one for
the low 32 bits of it, or without limit where these are negative. -/
theorem timeout_honoured_iff (timeoutMs : Option Int64) (nonneg : ∀ d ∈ timeoutMs, 0 ≤ d)
    (s : Schedule) : Honoured timeoutMs s ↔ KeepsTimeout s timeoutMs := by
  cases timeoutMs with
  | none => exact honoured_none_iff s
  | some d => exact honoured_some_iff s (nonneg d rfl)

theorem five_milliseconds_honoured : Honoured (some 5) (oneEventAt (milliseconds 7)) :=
  (timeout_honoured_iff (some 5) (by rintro d ⟨⟩; decide) _).mpr
    ⟨by decide, .inr (.inr (milliseconds_lt_iff.mpr (by decide)))⟩

theorem wait_gives_up_at_once :
    ¬ ∀ timeoutMs, (∀ d ∈ timeoutMs, (0 : Int64) ≤ d) → ∀ s, Honoured timeoutMs s := by
  intro claim
  have due : deadline (epollTimeout none) = milliseconds 0 := deadline_eq (by decide)
  have later : deadline (epollTimeout none) < milliseconds 1 := by
    rw [due]
    exact milliseconds_lt_iff.mpr Nat.zero_lt_one
  have nothing : (oneEventAt (milliseconds 1)).epollWait (epollTimeout none) = some (.ok []) :=
    (epollWait_nothing_iff _).mpr ⟨later.ne_top, later, le_top⟩
  have honoured := claim none (by rintro d ⟨⟩) (oneEventAt (milliseconds 1))
  rcases honoured.timed_out ((waitFor_timed_out_iff _ none).mpr (.inr nothing)) with
    stopped | ⟨d, ⟨⟩, _⟩
  rw [Interrupted, nothing] at stopped
  cases stopped

end LibN3
