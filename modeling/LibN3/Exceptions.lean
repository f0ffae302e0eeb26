import LibN3.QueueRuns

/-! Callbacks that throw. Which ones do is any predicate on the push numbers; they do
not touch the queue, and the caller of pop goes on using it afterwards. No total is
bounded: the counters wrap as they do in the code. -/
namespace LibN3
open Credit

section loop

variable {κ : Type} {throws : κ → Bool}

/-- The callbacks a pop of these bytes reaches: those that start before its last byte
and end by it, by the sizes recorded in the deque. -/
def Due (callbacks : List (κ × SizeT)) (bytes : SizeT) (c : κ) : Prop :=
  ∃ before s after, callbacks = before ++ (c, s) :: after ∧
    total (amounts before) < bytes.toNat ∧ total (amounts before) + s.toNat ≤ bytes.toNat

theorem due_cons (d : κ) (s : SizeT) (rest : List (κ × SizeT)) (n : SizeT) (c : κ) :
    Due ((d, s) :: rest) n c ↔
      (0 < n.toNat ∧ s.toNat ≤ n.toNat ∧ c = d) ∨ (s.toNat ≤ n.toNat ∧ Due rest (n - s) c) := by
  have gap (fits : s.toNat ≤ n.toNat) := sub_toNat fits
  constructor
  · rintro ⟨before, t, after, eq, starts, ends⟩
    cases before with
    | nil =>
      obtain ⟨head, _⟩ := List.cons.inj eq
      obtain ⟨rfl, rfl⟩ := Prod.mk.inj head
      simp only [amounts_nil, total_nil, Nat.zero_add] at starts ends
      exact .inl ⟨starts, ends, rfl⟩
    | cons b before =>
      obtain ⟨rfl, tail⟩ := List.cons.inj eq
      rw [amounts_cons, total_cons] at starts ends
      have fits : s.toNat ≤ n.toNat := by omega
      exact .inr ⟨fits, before, t, after, tail, by rw [gap fits]; omega, by rw [gap fits]; omega⟩
  · intro reached
    rcases reached with ⟨some, fits, rfl⟩ | ⟨fits, before, t, after, rfl, starts, ends⟩
    · exact ⟨[], s, rest, rfl, some, by simpa using fits⟩
    · rw [gap fits] at starts ends
      refine ⟨(d, s) :: before, t, after, rfl, ?_, ?_⟩
      · rw [amounts_cons, total_cons]
        omega
      · rw [amounts_cons, total_cons]
        omega

/-- The loop ends by an exception only through a due callback that throws, and leaves
that callback at the front of the deque. -/
theorem thrown_due {build : Build} {l : List (κ × SizeT)} {n : SizeT} {exit : LoopExit κ} {c : κ}
    (loop : popLoop build throws l n = .ok exit) (thrown : exit.thrown = some c) :
    Due l n c ∧ throws c = true ∧ ∃ s rest, exit.callbacks = (c, s) :: rest := by
  induction l generalizing n exit with
  | nil =>
    unfold popLoop at loop
    split at loop
    · cases build <;> cases loop
    · cases loop
      cases thrown
  | cons e rest ih =>
    obtain ⟨d, s⟩ := e
    rcases Nat.eq_zero_or_pos n.toNat with zero | some_left
    · rw [popLoop_stop build throws _ zero] at loop
      cases loop
      cases thrown
    · rcases Nat.lt_or_ge n.toNat s.toNat with short | fits
      · rw [popLoop_short build throws rest short some_left] at loop
        cases loop
        cases thrown
      · rw [due_cons]
        cases raises : throws d with
        | true =>
          rw [popLoop_throw build throws rest fits some_left raises] at loop
          cases loop
          cases thrown
          exact ⟨.inl ⟨some_left, fits, rfl⟩, raises, s, rest, rfl⟩
        | false =>
          rw [popLoop_fire build throws rest fits some_left raises] at loop
          cases tail : popLoop build throws rest (n - s) with
          | error fault =>
            rw [tail] at loop
            cases loop
          | ok exit' =>
            rw [tail] at loop
            cases loop
            obtain ⟨due, raised, front⟩ := ih tail thrown
            exact ⟨.inr ⟨fits, due⟩, raised, front⟩

theorem due_thrown (build : Build) {l : List (κ × SizeT)} {n : SizeT} {c : κ} (due : Due l n c)
    (raises : throws c = true) :
    ∃ exit d, popLoop build throws l n = .ok exit ∧ exit.thrown = some d := by
  induction l generalizing n with
  | nil =>
    obtain ⟨before, s, after, eq, _⟩ := due
    exact absurd (congrArg List.length eq) (by simp)
  | cons e rest ih =>
    obtain ⟨d, s⟩ := e
    have starts : 0 < n.toNat := by
      obtain ⟨_, _, _, _, before, _⟩ := due
      exact Nat.lt_of_le_of_lt (Nat.zero_le _) before
    rcases (due_cons d s rest n c).mp due with ⟨_, fits, rfl⟩ | ⟨fits, later⟩
    · exact ⟨_, c, popLoop_throw build throws rest fits starts raises, rfl⟩
    · cases first : throws d with
      | true => exact ⟨_, d, popLoop_throw build throws rest fits starts first, rfl⟩
      | false =>
        obtain ⟨exit, d', loop, thrown⟩ := ih later
        rw [popLoop_fire build throws rest fits starts first, loop]
        exact ⟨_, d', rfl, thrown⟩

theorem popLoop_covered (build : Build) {l : List (κ × SizeT)} {n : SizeT}
    (covered : n.toNat ≤ total (amounts l)) :
    ∃ exit, popLoop build throws l n = .ok exit ∧
      total (amounts l) ≤ total (amounts exit.callbacks) + n.toNat := by
  induction l generalizing n with
  | nil =>
    have zero : n.toNat = 0 := Nat.le_zero.mp covered
    exact ⟨_, popLoop_stop build throws [] zero, Nat.zero_le _⟩
  | cons e rest ih =>
    obtain ⟨d, s⟩ := e
    rw [amounts_cons, total_cons] at covered ⊢
    rcases Nat.eq_zero_or_pos n.toNat with zero | some_left
    · exact ⟨_, popLoop_stop build throws _ zero, by simp⟩
    · rcases Nat.lt_or_ge n.toNat s.toNat with short | fits
      · have gap := sub_toNat (Nat.le_of_lt short)
        refine ⟨_, popLoop_short build throws rest short some_left, ?_⟩
        rw [amounts_cons, total_cons, gap]
        omega
      · cases raises : throws d with
        | true =>
          refine ⟨_, popLoop_throw build throws rest fits some_left raises, ?_⟩
          rw [amounts_cons, total_cons]
          exact Nat.le_add_right _ _
        | false =>
          have gap := sub_toNat fits
          obtain ⟨exit, loop, left⟩ := ih (n := n - s) (by rw [gap]; omega)
          rw [gap] at left
          rw [popLoop_fire build throws rest fits some_left raises, loop]
          exact ⟨_, rfl, by dsimp only; omega⟩

end loop

abbrev throwRun (throws : ℕ → Bool) (ops : List QueueOp) : History :=
  Runs.run (History.step .release throws) .new ops

abbrev ThrowAdmitted (throws : ℕ → Bool) (ops : List QueueOp) : Prop :=
  Runs.Each (History.step .release throws) History.Within .new ops

/-- What holds between calls whichever callbacks have thrown: there are recorded sizes
for all that is outstanding, so the loop never runs out of callbacks. -/
structure ThrowInv (h : History) : Prop where
  running : h.fault = none
  popped_le : h.popped ≤ h.pushed
  covered : h.outstanding ≤ h.recorded

namespace ThrowInv

variable {h : History} {throws : ℕ → Bool}

theorem start : ThrowInv History.new where
  running := rfl
  popped_le := Nat.le_refl 0
  covered := Nat.le_refl 0

theorem pushMulti (inv : ThrowInv h) (multi : RefMultiBuffer) :
    ThrowInv (h.step .release throws (.pushMulti multi)) := by
  have popped_le := inv.popped_le
  have covered := inv.covered
  rw [step_pushMulti inv.running]
  refine ⟨inv.running, ?_, ?_⟩
  · rw [pushed_enter]
    exact popped_le.trans (Nat.le_add_right _ _)
  · rw [recorded_enter, History.outstanding, pushed_enter]
    unfold History.outstanding at covered
    simp only [History.enter]
    omega

theorem pop (inv : ThrowInv h) {bytes : SizeT} (within : bytes.toNat ≤ h.outstanding) :
    ThrowInv (h.step .release throws (.pop bytes)) := by
  have popped_le := inv.popped_le
  have covered := inv.covered
  have spent : h.popped + bytes.toNat ≤ h.pushed := by
    unfold History.outstanding at within
    omega
  cases stop : h.queue.empty with
  | true =>
    rw [step_pop inv.running (pop_stop .release throws bytes stop)]
    refine ⟨inv.running, spent, ?_⟩
    exact (Nat.sub_le_sub_left (Nat.le_add_right _ _) _).trans covered
  | false =>
    obtain ⟨exit, loop, left⟩ := @popLoop_covered _ throws .release _ _
      (within.trans covered)
    rw [step_pop inv.running (pop_go stop loop)]
    refine ⟨inv.running, spent, ?_⟩
    simp only [History.outstanding, History.recorded, History.pushed, afterPop_callbacks]
      at covered left ⊢
    omega

theorem step (h : History) (op : QueueOp) (inv : ThrowInv h) (within : h.Within op) :
    ThrowInv (h.step .release throws op) := by
  cases op with
  | push buf =>
    rw [step_push]
    exact inv.pushMulti ⟨[buf]⟩
  | pushMulti multi => exact inv.pushMulti multi
  | pop bytes => exact inv.pop within

theorem run {ops : List QueueOp} (admitted : ThrowAdmitted throws ops) :
    ThrowInv (throwRun throws ops) :=
  Runs.invariant ThrowInv.step start admitted

end ThrowInv

/- The state an exception of callback c leaves is consistent: the callbacks record what
was pushed and not removed from the buffers, c is not run again, and each later callback
that has bytes fires exactly when the last of them is popped, whatever the caller goes on
to do. -/
structure ConsistentAfter (throws : ℕ → Bool) (h : History) (c : ℕ) : Prop where
  recorded : h.recorded = h.held
  not_again : ∀ ops, Runs.Each (History.step .release throws) History.Within h ops →
    (Runs.run (History.step .release throws) h ops).fired.count c = h.fired.count c
  later_exact : ∀ ops, Runs.Each (History.step .release throws) History.Within h ops →
    ∀ i (hi : i < (Runs.run (History.step .release throws) h ops).entries.length),
      c < i → ((Runs.run (History.step .release throws) h ops).entries[i]).2 ≠ 0 →
      (i ∈ (Runs.run (History.step .release throws) h ops).fired ↔
        (Runs.run (History.step .release throws) h ops).endOf i ≤
          (Runs.run (History.step .release throws) h ops).popped)

/- Whichever callback's exception leaves this pop, it leaves a consistent state. -/
def ExceptionSafe (throws : ℕ → Bool) (h : History) (bytes : SizeT) : Prop :=
  ∀ exit c, h.queue.pop .release throws bytes = .ok exit → exit.thrown = some c →
    ConsistentAfter throws (h.step .release throws (.pop bytes)) c

theorem front_runs_again {h : History} {throws : ℕ → Bool} {c : ℕ} {s bytes : SizeT}
    {rest : List (ℕ × SizeT)} (running : h.fault = none) (go : h.queue.empty = false)
    (front : h.queue.callbacks = (c, s) :: rest) (raises : throws c = true)
    (fits : s.toNat ≤ bytes.toNat) (some_left : 0 < bytes.toNat) :
    (h.step .release throws (.pop bytes)).fired = h.fired ++ [c] := by
  have loop := popLoop_throw .release throws rest fits some_left raises
  rw [← front] at loop
  rw [step_pop running (pop_go go loop)]

theorem step_push_running {build : Build} {throws : ℕ → Bool} {h : History}
    (running : h.fault = none) (multi : RefMultiBuffer) :
    h.step build throws (.pushMulti multi) =
      h.enter (h.queue.pushMulti multi h.entries.length) multi.sizeBytes := by
  simp only [History.step, running]

/-- A push keeps the front of the queue, and leaves the bytes of its buffers outstanding. -/
theorem push_keeps_front {h : History} (throws : ℕ → Bool) {c : ℕ} {s : SizeT}
    {rest : List (ℕ × SizeT)} (inv : ThrowInv h) (front : h.queue.callbacks = (c, s) :: rest)
    (bytes : SizeT) :
    ∃ rest', (h.step .release throws (.pushMulti (.spanning bytes))).queue.callbacks =
        (c, s) :: rest' ∧
      (h.step .release throws (.pushMulti (.spanning bytes))).fired = h.fired ∧
      (h.step .release throws (.pushMulti (.spanning bytes))).queue.bufferSize =
        h.queue.bufferSize + 3 ∧
      (h.step .release throws (.pushMulti (.spanning bytes))).Within (.pop bytes) := by
  have popped_le := inv.popped_le
  rw [step_push_running inv.running, sizeBytes_spanning]
  refine ⟨rest ++ [(h.entries.length, bytes)], ?_, rfl, rfl, ?_⟩
  · simp only [History.enter, BufferQueue.pushMulti, front, sizeBytes_spanning, List.cons_append]
  · change bytes.toNat ≤ History.outstanding _
    rw [History.outstanding, pushed_enter]
    simp only [History.enter]
    omega

/-- Whatever an exception leaves at the front, the caller can go on to run it again: it
pushes that many bytes, or twice when the count of buffers wraps to zero, and pops them. -/
theorem can_run_again {h : History} {throws : ℕ → Bool} {c : ℕ} {s : SizeT}
    {rest : List (ℕ × SizeT)} (inv : ThrowInv h) (front : h.queue.callbacks = (c, s) :: rest)
    (raises : throws c = true) :
    ∃ ops, Runs.Each (History.step .release throws) History.Within h ops ∧
      (Runs.run (History.step .release throws) h ops).fired = h.fired ++ [c] := by
  obtain ⟨bytes, some_left, fits⟩ : ∃ bytes : SizeT, 0 < bytes.toNat ∧ s.toNat ≤ bytes.toNat := by
    rcases Nat.eq_zero_or_pos s.toNat with zero | pos
    · exact ⟨1, by decide, by rw [zero]; decide⟩
    · exact ⟨s, pos, Nat.le_refl _⟩
  let bufs : RefMultiBuffer := .spanning bytes
  obtain ⟨tail, front₁, fired₁, size₁, within₁⟩ := push_keeps_front throws inv front bytes
  have inv₁ := @ThrowInv.step throws h (.pushMulti bufs) inv trivial
  cases stop : (h.step .release throws (.pushMulti bufs)).queue.empty with
  | false =>
    refine ⟨[.pushMulti bufs, .pop bytes], ⟨trivial, within₁, trivial⟩, ?_⟩
    have again := front_runs_again inv₁.running stop front₁ raises fits some_left
    rw [fired₁] at again
    exact again
  | true =>
    obtain ⟨tail', front₂, fired₂, size₂, within₂⟩ := push_keeps_front throws inv₁ front₁ bytes
    have inv₂ := @ThrowInv.step throws _ (.pushMulti bufs) inv₁ trivial
    have wrapped : (h.step .release throws (.pushMulti bufs)).queue.bufferSize = 0 := by
      simpa [BufferQueue.empty] using stop
    have go : ((h.step .release throws (.pushMulti bufs)).step .release throws (.pushMulti bufs)).queue.empty =
        false := by
      rw [BufferQueue.empty, size₂, wrapped]
      decide
    refine ⟨[.pushMulti bufs, .pushMulti bufs, .pop bytes], ⟨trivial, trivial, within₂, trivial⟩, ?_⟩
    have again := front_runs_again inv₂.running go front₂ raises fits some_left
    rw [fired₂, fired₁] at again
    exact again

theorem thrown_inconsistent {h : History} {throws : ℕ → Bool} {bytes : SizeT}
    {exit : LoopExit ℕ} {c : ℕ} (inv : ThrowInv h) (within : bytes.toNat ≤ h.outstanding)
    (go : h.queue.empty = false)
    (loop : popLoop .release throws h.queue.callbacks bytes = .ok exit)
    (thrown : exit.thrown = some c) :
    ¬ ConsistentAfter throws (h.step .release throws (.pop bytes)) c := by
  intro consistent
  obtain ⟨_, raised, s, rest, front⟩ := thrown_due loop thrown
  have left : (h.step .release throws (.pop bytes)).queue.callbacks = (c, s) :: rest := by
    rw [step_pop inv.running (pop_go go loop)]
    exact front
  obtain ⟨more, admitted, again⟩ := can_run_again (inv.pop within) left raised
  have once := consistent.not_again more admitted
  rw [again, List.count_append, List.count_singleton_self] at once
  exact absurd once (Nat.succ_ne_self _)

/-- An exception never leaves the queue consistent: the callback it came from is still in
the deque. So pop is safe exactly where none of the callbacks it reaches throws. -/
theorem exception_safe_iff_none_due_throws (throws : ℕ → Bool) (ops : List QueueOp)
    (bytes : SizeT) (admitted : ThrowAdmitted throws ops)
    (within : bytes.toNat ≤ (throwRun throws ops).outstanding) :
    ExceptionSafe throws (throwRun throws ops) bytes ↔
      ((throwRun throws ops).queue.empty = true ∨
        ∀ c, Due (throwRun throws ops).queue.callbacks bytes c → throws c = false) := by
  have inv := ThrowInv.run admitted
  generalize throwRun throws ops = h at within inv ⊢
  constructor
  · intro safe
    cases stop : h.queue.empty with
    | true => exact .inl rfl
    | false =>
      right
      intro c due
      by_contra raises
      obtain ⟨exit, d, loop, thrown⟩ := due_thrown .release due (by simpa using raises)
      have consistent := safe _ d (pop_go stop loop) thrown
      exact thrown_inconsistent inv within stop loop thrown consistent
  · intro safe exit c returns thrown
    cases stop : h.queue.empty with
    | true =>
      rw [pop_stop .release throws bytes stop] at returns
      cases returns
      cases thrown
    | false =>
      obtain ⟨loopExit, loop, _⟩ := @popLoop_covered _ throws .release _ _
        (within.trans inv.covered)
      rw [pop_go stop loop] at returns
      cases returns
      obtain ⟨due, raised, _⟩ := thrown_due loop thrown
      rcases safe with none_held | quiet_due
      · exact absurd none_held (by simp [stop])
      · rw [quiet_due c due] at raised
        cases raised

theorem exception_safe_before_thrower :
    ExceptionSafe (· == 1) (throwRun (· == 1) [.push (.mk 64 2), .push (.mk 128 1)]) 2 := by
  refine (exception_safe_iff_none_due_throws (· == 1) _ 2 (by decide) (by decide)).mpr (.inr ?_)
  have deque : (throwRun (· == 1) [.push (.mk 64 2), .push (.mk 128 1)]).queue.callbacks =
      [(0, 2), (1, 1)] := by decide
  intro c due
  rw [deque] at due
  rcases (due_cons _ _ _ _ _).mp due with ⟨_, _, rfl⟩ | ⟨_, later⟩
  · rfl
  · obtain ⟨_, _, _, _, starts, _⟩ := later
    exact absurd (Nat.lt_of_le_of_lt (Nat.zero_le _) starts) (by decide)

theorem exception_leaves_thrower_queued :
    ¬ ∀ (throws : ℕ → Bool) ops bytes, ThrowAdmitted throws ops →
      bytes.toNat ≤ (throwRun throws ops).outstanding →
      ExceptionSafe throws (throwRun throws ops) bytes := by
  intro claim
  have consistent := claim (fun _ => true) [.push (.mk 64 1)] 1 (by decide) (by decide)
    ⟨⟨⟨[]⟩, [(0, 1)], 0, 1⟩, [0], some 0⟩ 0 (by decide) rfl
  exact absurd consistent.recorded (by decide)

end LibN3
