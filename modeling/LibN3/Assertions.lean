import LibN3.QueueRuns

/-! The assertions of pop and consume in the Debug build, where a failed one ends the
run. The states considered are those a Debug run reaches without ending that way. -/
namespace LibN3
open Credit

/- A push of buffers each of which holds a byte. -/
def QueueOp.NonEmpty : QueueOp → Prop
  | .push buf => 0 < buf.bytes
  | .pushMulti multi => ∀ buf ∈ multi.buffers, 0 < buf.bytes
  | .pop _ => True

instance decidableNonEmpty (op : QueueOp) : Decidable op.NonEmpty :=
  match op with
  | .push buf => inferInstanceAs (Decidable (0 < buf.bytes))
  | .pushMulti multi => inferInstanceAs (Decidable (∀ buf ∈ multi.buffers, 0 < buf.bytes))
  | .pop _ => .isTrue trivial

abbrev debugRun (ops : List QueueOp) : History :=
  Runs.run (History.step .debug quiet) .new ops

abbrev DebugAdmitted (ops : List QueueOp) : Prop :=
  Runs.Each (History.step .debug quiet) (fun h op => h.Roomy op ∧ op.NonEmpty) .new ops

structure DebugInv (h : History) : Prop extends QueueInv h where
  holding : ∀ buf ∈ h.buffers, 0 < buf.bytes

/- The pop takes every byte the buffers hold, and the byte counter, which counts all
bytes ever pushed modulo the word, has not wrapped below them. -/
def TakesAll (h : History) (bytes : SizeT) : Prop :=
  bytes.toNat = h.held ∧ bytes.toNat ≤ h.pushed % 2 ^ 64

theorem bytesOf_pos {bufs : List RefBuffer} (holding : ∀ buf ∈ bufs, 0 < buf.bytes)
    (some : bufs ≠ []) : 0 < bytesOf bufs := by
  cases bufs with
  | nil => exact absurd rfl some
  | cons buf rest =>
    have first := holding buf List.mem_cons_self
    rw [bytesOf_cons]
    omega

namespace DebugInv

variable {h : History}

theorem start : DebugInv History.new where
  toQueueInv := .start
  holding := by
    intro buf member
    cases member

theorem pushMulti (inv : DebugInv h) (multi : RefMultiBuffer)
    (room : h.Roomy (.pushMulti multi)) (nonempty : (QueueOp.pushMulti multi).NonEmpty) :
    DebugInv (h.step .debug quiet (.pushMulti multi)) := by
  have next := inv.toQueueInv.pushMulti .debug quiet multi room
  rw [step_pushMulti inv.running] at next ⊢
  refine ⟨next, ?_⟩
  intro buf member
  rcases List.mem_append.mp member with old | new
  · exact inv.holding buf old
  · exact nonempty buf new

theorem asked_iff (inv : DebugInv h) (bytes : SizeT) :
    bytes ≤ h.queue.bufferBytesSize ↔ bytes.toNat ≤ h.pushed % 2 ^ 64 := by
  rw [UInt64.le_iff_toNat_le, inv.bytes, UInt64.toNat_ofNat']

theorem pop_all (inv : DebugInv h) {bytes : SizeT} (within : bytes.toNat ≤ h.outstanding)
    (all : TakesAll h bytes) :
    ∃ exit, h.queue.pop .debug quiet bytes = .ok exit ∧
      DebugInv (h.step .debug quiet (.pop bytes)) := by
  obtain ⟨exhausted, counted⟩ := all
  have affordable := inv.affordable within
  have spent := inv.ledger.pay affordable
  have reduced := total_left affordable
  cases stop : h.queue.empty with
  | true =>
    have returns := pop_stop .debug quiet bytes stop
    have zero : bytes.toNat = 0 := by
      rw [exhausted, History.held, inv.empty_iff.mp stop, bytesOf_nil]
    refine ⟨_, returns, ?_⟩
    rw [step_pop inv.running returns, zero]
    simpa using inv
  | false =>
    have go : ¬ h.queue.empty = true := by simp [stop]
    have some_held : 0 < h.held :=
      bytesOf_pos inv.holding fun none_held => go (inv.empty_iff.mpr none_held)
    have waiting : (!h.queue.callbacks.isEmpty) = true := by
      cases deque : h.queue.callbacks with
      | nil =>
        rw [deque, amounts_nil, total_nil] at affordable
        omega
      | cons e rest => rfl
    have asked : decide (bytes ≤ h.queue.bufferBytesSize) = true :=
      decide_eq_true ((inv.asked_iff bytes).mpr counted)
    obtain ⟨left, loop, ledger⟩ := popLoop_spend .debug h.queue.callbacks bytes affordable
    have returns : h.queue.pop .debug quiet bytes = .ok
        ⟨{ h.queue with buffers := ⟨[]⟩, bufferSize := 0, callbacks := left },
          (spend bytes.toNat (amounts h.queue.callbacks)).1, none⟩ := by
      rw [BufferQueue.pop, if_neg go, asked, waiting]
      simp only [assert_true, ok_bind, consume_debug_all h.queue.buffers bytes exhausted.symm, loop]
      rfl
    have covered := inv.covered
    rw [← ledger] at spent reduced
    refine ⟨_, returns, ?_⟩
    rw [step_pop inv.running returns]
    refine ⟨⟨inv.running, rfl, inv.bytes, inv.names, spent, ?_⟩, ?_⟩
    · simp only [History.recorded] at covered ⊢
      omega
    · intro buf member
      cases member

/-- Any other pop fails an assertion. -/
theorem pop_less (inv : DebugInv h) {bytes : SizeT} (within : bytes.toNat ≤ h.outstanding)
    (less : ¬ TakesAll h bytes) : ∃ fault, h.queue.pop .debug quiet bytes = .error fault := by
  have same := inv.recorded_eq
  have covered := inv.covered
  have go : ¬ h.queue.empty = true := by
    intro stop
    have none_held : h.held = 0 := by rw [History.held, inv.empty_iff.mp stop, bytesOf_nil]
    exact less ⟨by omega, by omega⟩
  rw [BufferQueue.pop, if_neg go]
  cases asked : decide (bytes ≤ h.queue.bufferBytesSize) with
  | false => exact ⟨_, rfl⟩
  | true =>
    cases !h.queue.callbacks.isEmpty with
    | false => exact ⟨_, rfl⟩
    | true =>
      have counted := (inv.asked_iff bytes).mp (of_decide_eq_true asked)
      have more : bytes.toNat < bytesOf h.queue.buffers.buffers := by
        have short : bytes.toNat ≠ h.held := fun all => less ⟨all, counted⟩
        change bytes.toNat < h.held
        omega
      obtain ⟨fault, fails⟩ := consume_debug_less h.queue.buffers bytes more
      simp only [assert_true, ok_bind, fails, error_bind]
      exact ⟨fault, rfl⟩

theorem step (inv : DebugInv h) {op : QueueOp} (room : h.Roomy op) (nonempty : op.NonEmpty) :
    (h.step .debug quiet op).fault ≠ none ∨ DebugInv (h.step .debug quiet op) := by
  cases op with
  | push buf =>
    have single : (QueueOp.pushMulti ⟨[buf]⟩).NonEmpty := List.forall_mem_singleton.mpr nonempty
    rw [step_push]
    exact .inr (inv.pushMulti ⟨[buf]⟩ room single)
  | pushMulti multi => exact .inr (inv.pushMulti multi room nonempty)
  | pop bytes =>
    by_cases all : TakesAll h bytes
    · obtain ⟨_, _, inv'⟩ := inv.pop_all room all
      exact .inr inv'
    · left
      obtain ⟨fault, fails⟩ := inv.pop_less room all
      simp [History.step, inv.running, fails]

end DebugInv

theorem debug_run_inv {ops : List QueueOp} (admitted : DebugAdmitted ops) :
    (debugRun ops).fault ≠ none ∨ DebugInv (debugRun ops) := by
  refine Runs.invariant (I := fun h => h.fault ≠ none ∨ DebugInv h) ?_ (.inr .start) admitted
  intro h op reached here
  rcases reached with ended | inv
  · left
    cases fault : h.fault with
    | none => exact absurd fault ended
    | some _ => simp [History.step, fault]
  · exact inv.step here.1 here.2

/-- From every state a Debug run reaches, a pop passes all assertions exactly when it
takes all that the buffers hold and the byte counter still covers that. -/
theorem assertions_hold_iff_pop_takes_all (ops : List QueueOp) (bytes : SizeT)
    (admitted : DebugAdmitted ops) (running : (debugRun ops).fault = none)
    (within : bytes.toNat ≤ (debugRun ops).outstanding) :
    (∃ exit, (debugRun ops).queue.pop .debug quiet bytes = .ok exit) ↔
      TakesAll (debugRun ops) bytes := by
  rcases debug_run_inv admitted with ended | inv
  · exact absurd running ended
  · constructor
    · rintro ⟨exit, passes⟩
      by_contra less
      obtain ⟨fault, fails⟩ := inv.pop_less within less
      rw [fails] at passes
      cases passes
    · intro all
      obtain ⟨exit, passes, _⟩ := inv.pop_all within all
      exact ⟨exit, passes⟩

theorem assertions_hold_on_full_pop :
    ∃ exit, (debugRun [.push (.mk 64 2), .pop 2, .push (.mk 64 3), .push (.mk 128 1)]).queue.pop
      .debug quiet 4 = .ok exit :=
  (assertions_hold_iff_pop_takes_all _ 4 (by decide) (by decide) (by decide)).mpr
    ⟨by decide, by decide⟩

theorem assertion_fails_on_partial_pop :
    ¬ ∀ ops bytes, DebugAdmitted ops → (debugRun ops).fault = none →
      bytes.toNat ≤ (debugRun ops).outstanding →
      ∃ exit, (debugRun ops).queue.pop .debug quiet bytes = .ok exit := by
  intro claim
  obtain ⟨exit, passes⟩ := claim [.push (.mk 64 2)] 1 (by decide) (by decide) (by decide)
  have fails : (debugRun [.push (.mk 64 2)]).queue.pop .debug quiet 1 =
      .error (.assertion "remaining > 0") := by decide
  rw [fails] at passes
  cases passes

end LibN3
