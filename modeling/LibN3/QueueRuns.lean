import LibN3.BufferQueue
import LibN3.Runs

/-! Runs of push and pop on one queue, with the books a reader would keep beside it.
Pushes are numbered in order and a callback is named by the number of its push. -/
namespace LibN3
open Credit

inductive QueueOp
  | push (buf : RefBuffer)
  | pushMulti (multi : RefMultiBuffer)
  | pop (bytes : SizeT)
deriving DecidableEq

/-- The queue and what has happened to it: each push with its number and its size in
bytes as the queue reads it, the bytes popped, the callbacks invoked in order, and the
fault that ended the run, if one did. -/
structure History where
  queue : BufferQueue ℕ
  entries : List (ℕ × ℕ)
  popped : ℕ
  fired : List ℕ
  fault : Option Fault
deriving DecidableEq

namespace History

def new : History := ⟨.new, [], 0, [], none⟩

def pushed (h : History) : ℕ := total h.entries

def outstanding (h : History) : ℕ := h.pushed - h.popped

def buffers (h : History) : List RefBuffer := h.queue.buffers.buffers

def held (h : History) : ℕ := bytesOf h.buffers

def recorded (h : History) : ℕ := total (amounts h.queue.callbacks)

def endOf (h : History) (i : ℕ) : ℕ := total (h.entries.take (i + 1))

def enter (h : History) (queue : BufferQueue ℕ) (bytes : SizeT) : History :=
  { h with queue := queue, entries := h.entries ++ [(h.entries.length, bytes.toNat)] }

def step (build : Build) (throws : ℕ → Bool) (h : History) (op : QueueOp) : History :=
  match h.fault, op with
  | some _, _ => h
  | none, .push buf => h.enter (h.queue.push buf h.entries.length) buf.size
  | none, .pushMulti multi => h.enter (h.queue.pushMulti multi h.entries.length) multi.sizeBytes
  | none, .pop bytes =>
    match h.queue.pop build throws bytes with
    | .ok exit =>
      { h with queue := exit.queue
               popped := h.popped + bytes.toNat
               fired := h.fired ++ exit.invoked }
    | .error fault => { h with fault := some fault }

def Within (h : History) : QueueOp → Prop
  | .pop bytes => bytes.toNat ≤ h.outstanding
  | _ => True

/-- And the vector of buffers has room: its size is a size_t. -/
def Roomy (h : History) : QueueOp → Prop
  | .push _ => h.buffers.length + 1 < 2 ^ 64
  | .pushMulti multi => h.buffers.length + multi.buffers.length < 2 ^ 64
  | .pop bytes => bytes.toNat ≤ h.outstanding

instance decidableWithin (h : History) (op : QueueOp) : Decidable (h.Within op) :=
  match op with
  | .push _ => .isTrue trivial
  | .pushMulti _ => .isTrue trivial
  | .pop bytes => inferInstanceAs (Decidable (bytes.toNat ≤ h.outstanding))

instance decidableRoomy (h : History) (op : QueueOp) : Decidable (h.Roomy op) :=
  match op with
  | .push _ => inferInstanceAs (Decidable (h.buffers.length + 1 < 2 ^ 64))
  | .pushMulti multi => inferInstanceAs
      (Decidable (h.buffers.length + multi.buffers.length < 2 ^ 64))
  | .pop bytes => inferInstanceAs (Decidable (bytes.toNat ≤ h.outstanding))

end History

/- Runs on a fresh queue in the Release build, with callbacks that return. -/
abbrev releaseRun (ops : List QueueOp) : History :=
  Runs.run (History.step .release quiet) .new ops

abbrev ReleaseAdmitted (ops : List QueueOp) : Prop :=
  Runs.Each (History.step .release quiet) History.Roomy .new ops

theorem push_eq_pushMulti {κ : Type} (q : BufferQueue κ) (buf : RefBuffer) (cb : κ) :
    q.push buf cb = q.pushMulti ⟨[buf]⟩ cb := by
  simp [BufferQueue.push, BufferQueue.pushMulti, RefMultiBuffer.pushBack,
    RefMultiBuffer.extend, RefMultiBuffer.size, sizeBytes_singleton]

theorem step_push (build : Build) (throws : ℕ → Bool) (h : History) (buf : RefBuffer) :
    h.step build throws (.push buf) = h.step build throws (.pushMulti ⟨[buf]⟩) := by
  unfold History.step
  cases h.fault with
  | some _ => rfl
  | none =>
    dsimp only
    rw [push_eq_pushMulti, sizeBytes_singleton]

theorem step_pushMulti {build : Build} {throws : ℕ → Bool} {h : History}
    (running : h.fault = none) (multi : RefMultiBuffer) :
    h.step build throws (.pushMulti multi) =
      h.enter (h.queue.pushMulti multi h.entries.length) multi.sizeBytes := by
  simp only [History.step, running]

theorem step_pop {build : Build} {throws : ℕ → Bool} {h : History} {bytes : SizeT}
    {exit : PopExit ℕ} (running : h.fault = none)
    (returns : h.queue.pop build throws bytes = .ok exit) :
    h.step build throws (.pop bytes) =
      { h with queue := exit.queue
               popped := h.popped + bytes.toNat
               fired := h.fired ++ exit.invoked } := by
  simp only [History.step, running, returns]

theorem pushed_enter (h : History) (queue : BufferQueue ℕ) (bytes : SizeT) :
    (h.enter queue bytes).pushed = h.pushed + bytes.toNat := by
  simp [History.pushed, History.enter]

theorem held_enter (h : History) (multi : RefMultiBuffer) :
    (h.enter (h.queue.pushMulti multi h.entries.length) multi.sizeBytes).held =
      h.held + bytesOf multi.buffers := by
  simp [History.held, History.buffers, History.enter, BufferQueue.pushMulti,
    RefMultiBuffer.extend]

theorem recorded_enter (h : History) (multi : RefMultiBuffer) :
    (h.enter (h.queue.pushMulti multi h.entries.length) multi.sizeBytes).recorded =
      h.recorded + multi.sizeBytes.toNat := by
  simp [History.recorded, History.enter, BufferQueue.pushMulti]

/-- What runs keep in any build while no callback throws: the counters count modulo the
word, the byte counter only ever counts pushes, the callbacks are a ledger of the bytes
popped, and the buffers may hold more than is outstanding, never less. -/
structure QueueInv (h : History) : Prop where
  running : h.fault = none
  counted : h.queue.bufferSize.toNat = h.buffers.length
  bytes : h.queue.bufferBytesSize = UInt64.ofNat h.pushed
  names : h.entries.map Prod.fst = List.range h.entries.length
  ledger : Progress h.entries h.popped h.fired (amounts h.queue.callbacks)
  covered : h.recorded ≤ h.held

namespace QueueInv

variable {h : History}

theorem start : QueueInv History.new where
  running := rfl
  counted := rfl
  bytes := rfl
  names := rfl
  ledger := .start
  covered := Nat.le_refl 0

theorem recorded_add_popped (inv : QueueInv h) : h.recorded + h.popped = h.pushed :=
  inv.ledger.conserved

theorem recorded_eq (inv : QueueInv h) : h.recorded = h.outstanding := by
  have books := inv.recorded_add_popped
  unfold History.outstanding
  omega

theorem affordable (inv : QueueInv h) {bytes : SizeT} (within : bytes.toNat ≤ h.outstanding) :
    bytes.toNat ≤ total (amounts h.queue.callbacks) := by
  rw [← inv.recorded_eq] at within
  exact within

theorem empty_iff (inv : QueueInv h) : h.queue.empty = true ↔ h.buffers = [] := by
  rw [BufferQueue.empty, beq_iff_eq, ← UInt64.toNat_inj, inv.counted]
  exact List.length_eq_zero_iff

theorem pushMulti (inv : QueueInv h) (build : Build) (throws : ℕ → Bool) (multi : RefMultiBuffer)
    (room : h.Roomy (.pushMulti multi)) : QueueInv (h.step build throws (.pushMulti multi)) := by
  rw [step_pushMulti inv.running]
  refine ⟨inv.running, ?_, ?_, ?_, ?_, ?_⟩
  · simp only [History.Roomy, History.buffers] at room
    have counted := inv.counted
    unfold History.buffers at counted
    simp only [History.enter, History.buffers, BufferQueue.pushMulti, RefMultiBuffer.extend,
      RefMultiBuffer.size, UInt64.toNat_add, counted, List.length_append, UInt64.toNat_ofNat',
      Nat.add_mod_mod]
    exact Nat.mod_eq_of_lt room
  · rw [pushed_enter, UInt64.ofNat_add, UInt64.ofNat_toNat, ← inv.bytes]
    rfl
  · simp only [History.enter, List.map_append, inv.names, List.length_append,
      List.length_singleton, List.range_succ, List.map_cons, List.map_nil]
  · simp only [History.enter, BufferQueue.pushMulti, amounts_append, amounts_cons, amounts_nil]
    exact inv.ledger.push _
  · rw [recorded_enter, held_enter]
    exact Nat.add_le_add inv.covered (sizeBytes_le multi)

theorem push (inv : QueueInv h) (build : Build) (throws : ℕ → Bool) (buf : RefBuffer)
    (room : h.Roomy (.push buf)) : QueueInv (h.step build throws (.push buf)) := by
  rw [step_push]
  exact inv.pushMulti build throws ⟨[buf]⟩ room

/-- An admitted pop either finds no buffer and nothing to pop, or runs to its end. -/
theorem pop_cases (inv : QueueInv h) {bytes : SizeT} (within : bytes.toNat ≤ h.outstanding) :
    (h.buffers = [] ∧ bytes.toNat = 0 ∧
      h.queue.pop .release quiet bytes = .ok ⟨h.queue, [], none⟩) ∨
    (∃ left, amounts left = (spend bytes.toNat (amounts h.queue.callbacks)).2 ∧
      h.queue.pop .release quiet bytes = .ok
        ⟨h.queue.afterPop bytes left, (spend bytes.toNat (amounts h.queue.callbacks)).1, none⟩) := by
  cases stop : h.queue.empty with
  | true =>
    have none_held := inv.empty_iff.mp stop
    have weightless : h.held = 0 := by
      unfold History.held
      rw [none_held]
      rfl
    have same := inv.recorded_eq
    have books := inv.covered
    exact .inl ⟨none_held, by omega, pop_stop .release quiet bytes stop⟩
  | false =>
    obtain ⟨left, loop, ledger⟩ :=
      popLoop_spend .release h.queue.callbacks bytes (inv.affordable within)
    exact .inr ⟨left, ledger, pop_go stop loop⟩

theorem pop (inv : QueueInv h) {bytes : SizeT} (within : bytes.toNat ≤ h.outstanding) :
    QueueInv (h.step .release quiet (.pop bytes)) := by
  have affordable := inv.affordable within
  have spent := inv.ledger.pay affordable
  rcases inv.pop_cases within with ⟨_, zero, returns⟩ | ⟨left, ledger, returns⟩
  · rw [step_pop inv.running returns, zero]
    simpa using inv
  · have kept := survivors_sublist RefBuffer.bytes bytes.toNat h.buffers
    have fits : h.buffers.length < 2 ^ 64 := by
      rw [← inv.counted]
      exact h.queue.bufferSize.toNat_lt
    have dropped := weight_survivors RefBuffer.bytes bytes.toNat h.buffers
    have reduced := total_left affordable
    have covered := inv.covered
    rw [← ledger] at spent
    rw [step_pop inv.running returns]
    refine ⟨inv.running, ?_, inv.bytes, inv.names, spent, ?_⟩
    · exact (UInt64.toNat_ofNat').trans
        (Nat.mod_eq_of_lt (Nat.lt_of_le_of_lt kept.length_le fits))
    · simp only [History.recorded, History.held, History.buffers, bytesOf, afterPop_callbacks,
        afterPop_buffers, ledger] at covered dropped ⊢
      omega

theorem pop_effect (inv : QueueInv h) {bytes : SizeT} (within : bytes.toNat ≤ h.outstanding) :
    (h.step .release quiet (.pop bytes)).buffers =
        survivors RefBuffer.bytes bytes.toNat h.buffers ∧
      amounts (h.step .release quiet (.pop bytes)).queue.callbacks =
        (spend bytes.toNat (amounts h.queue.callbacks)).2 ∧
      (h.step .release quiet (.pop bytes)).popped = h.popped + bytes.toNat := by
  rcases inv.pop_cases within with ⟨none_held, zero, returns⟩ | ⟨left, ledger, returns⟩
  · rw [step_pop inv.running returns, zero, none_held]
    simpa [survivors] using none_held
  · rw [step_pop inv.running returns]
    exact ⟨rfl, ledger, rfl⟩

theorem step (h : History) (op : QueueOp) (inv : QueueInv h) (room : h.Roomy op) :
    QueueInv (h.step .release quiet op) := by
  cases op with
  | push buf => exact inv.push .release quiet buf room
  | pushMulti multi => exact inv.pushMulti .release quiet multi room
  | pop bytes => exact inv.pop room

theorem run {ops : List QueueOp} (admitted : ReleaseAdmitted ops) : QueueInv (releaseRun ops) :=
  Runs.invariant QueueInv.step start admitted

end QueueInv

end LibN3
