import LibN3.Consume
import LibN3.Builds
import LibN3.Exceptions

/-! The byte stream that a queue carries. Beside the books of its runs stand the addresses of
all bytes pushed, in order; what the buffers still hold is read against them. -/
namespace LibN3
open Credit

def QueueOp.addresses : QueueOp → List UInt64
  | .push buf => buf.addresses
  | .pushMulti multi => multi.addresses
  | .pop _ => []

structure Stream where
  history : History
  given : List UInt64
deriving DecidableEq

namespace Stream

def new : Stream := ⟨.new, []⟩

def held (s : Stream) : List UInt64 := s.history.queue.buffers.addresses

/-- The bytes pushed and not popped yet. -/
def pending (s : Stream) : List UInt64 := s.given.drop s.history.popped

def step (build : Build) (throws : ℕ → Bool) (s : Stream) (op : QueueOp) : Stream :=
  match s.history.fault with
  | some _ => s
  | none => ⟨s.history.step build throws op, s.given ++ op.addresses⟩

def Aligned (s : Stream) : Prop := s.held = s.pending

/-- The pop takes whole buffers only. -/
def PopEndsBuffer (s : Stream) : QueueOp → Prop
  | .pop bytes => ∃ k, bytesOf (s.history.buffers.take k) = bytes.toNat
  | _ => True

def Roomy (s : Stream) (op : QueueOp) : Prop := s.history.Roomy op

instance decidableRoomy (s : Stream) (op : QueueOp) : Decidable (s.Roomy op) :=
  History.decidableRoomy s.history op

variable {build : Build} {throws : ℕ → Bool} {s : Stream}

theorem step_history (build : Build) (throws : ℕ → Bool) (s : Stream) (op : QueueOp) :
    (s.step build throws op).history = s.history.step build throws op := by
  unfold step
  cases fault : s.history.fault with
  | none => rfl
  | some f =>
    have stopped : s.history.Stopped := by simp [History.Stopped, fault]
    exact (History.step_stopped throws s.history build op stopped).symm

/-- The log beside the books changes nothing in them. -/
theorem run_history (build : Build) (throws : ℕ → Bool) (s : Stream) (ops : List QueueOp) :
    (Runs.run (step build throws) s ops).history =
      Runs.run (History.step build throws) s.history ops := by
  induction ops generalizing s with
  | nil => rfl
  | cons op rest ih => rw [Runs.run, ih, step_history, Runs.run]

theorem step_push (build : Build) (throws : ℕ → Bool) (s : Stream) (buf : RefBuffer) :
    s.step build throws (.push buf) = s.step build throws (.pushMulti ⟨[buf]⟩) := by
  have same : buf.addresses = RefMultiBuffer.addresses ⟨[buf]⟩ := by
    simp [RefMultiBuffer.addresses]
  unfold step
  rw [LibN3.step_push]
  simp only [QueueOp.addresses, same]

theorem step_pushMulti (running : s.history.fault = none) (multi : RefMultiBuffer) :
    s.step build throws (.pushMulti multi) =
      ⟨s.history.enter (s.history.queue.pushMulti multi s.history.entries.length)
        multi.sizeBytes, s.given ++ multi.addresses⟩ := by
  simp only [step, running, LibN3.step_pushMulti running, QueueOp.addresses]

theorem held_pushMulti (running : s.history.fault = none) (multi : RefMultiBuffer) :
    (s.step build throws (.pushMulti multi)).held = s.held ++ multi.addresses := by
  rw [step_pushMulti running]
  exact List.flatMap_append

theorem given_pop (build : Build) (throws : ℕ → Bool) (s : Stream) (bytes : SizeT) :
    (s.step build throws (.pop bytes)).given = s.given := by
  unfold step
  split
  · rfl
  · exact List.append_nil _

theorem pending_pushMulti (running : s.history.fault = none) (multi : RefMultiBuffer)
    (behind : s.history.popped ≤ s.given.length) :
    (s.step build throws (.pushMulti multi)).pending = s.pending ++ multi.addresses := by
  rw [step_pushMulti running]
  exact List.drop_append_of_le_length behind

/-- What a pop does to the stream: it counts the bytes, and keeps the buffers as they were or
as the erase pass leaves them. -/
theorem pop_cases (build : Build) (throws : ℕ → Bool) (running : s.history.fault = none)
    (bytes : SizeT) :
    (∃ fault, s.step build throws (.pop bytes) =
        ⟨{ s.history with fault := some fault }, s.given⟩) ∨
      ((s.step build throws (.pop bytes)).history.popped = s.history.popped + bytes.toNat ∧
        ((s.history.queue.empty = true ∧
            (s.step build throws (.pop bytes)).history.queue = s.history.queue) ∨
          (s.history.queue.empty = false ∧ ∃ callbacks,
            (s.step build throws (.pop bytes)).history.queue =
              s.history.queue.afterPop bytes callbacks))) := by
  have history := step_history build throws s (.pop bytes)
  cases popped : s.history.queue.pop build throws bytes with
  | error fault =>
    refine .inl ⟨fault, ?_⟩
    simp only [step, running, History.step, popped, QueueOp.addresses, List.append_nil]
  | ok exit =>
    rw [LibN3.step_pop running popped] at history
    rw [history]
    exact .inr ⟨rfl, pop_release_cases (pop_returns_release popped)⟩

/- The buffers cover an end of the stream that reaches back at least to the first byte not
popped. -/
structure Retains (s : Stream) : Prop where
  all_pending : s.pending <:+ s.held
  contiguous : s.held <:+ s.given

theorem pending_of_popped {s' : Stream} {bytes : SizeT} (given : s'.given = s.given)
    (popped : s'.history.popped = s.history.popped + bytes.toNat) :
    s'.pending = s.pending.drop bytes.toNat := by
  rw [pending, given, popped, pending, List.drop_drop]

theorem held_of_queue {s' : Stream} (queue : s'.history.queue = s.history.queue) :
    s'.held = s.held := by
  rw [held, queue, held]

theorem held_afterPop {s' : Stream} {bytes : SizeT} {callbacks : List (ℕ × SizeT)}
    (queue : s'.history.queue = s.history.queue.afterPop bytes callbacks) :
    s'.held = (survivors RefBuffer.bytes bytes.toNat s.history.buffers).flatMap
      RefBuffer.addresses := by
  rw [held, queue]
  rfl

namespace Retains

theorem start : Retains new where
  all_pending := List.suffix_rfl
  contiguous := List.suffix_rfl

theorem drop_append (l more : List UInt64) (n : ℕ) : (l ++ more).drop n <:+ l.drop n ++ more := by
  have kept : l.drop n ++ more <:+ l ++ more :=
    List.suffix_append_self_iff.mpr (List.drop_suffix n l)
  have shorter : ((l ++ more).drop n).length ≤ (l.drop n ++ more).length := by
    simp only [List.length_drop, List.length_append]
    omega
  exact List.suffix_of_suffix_length_le (List.drop_suffix n _) kept shorter

theorem drop {l m : List UInt64} (suffix : l <:+ m) (n : ℕ) : l.drop n <:+ m.drop n := by
  have shorter : (l.drop n).length ≤ (m.drop n).length := by
    have le := suffix.length_le
    rw [List.length_drop, List.length_drop]
    omega
  exact List.suffix_of_suffix_length_le ((List.drop_suffix n l).trans suffix)
    (List.drop_suffix n m) shorter

theorem pushMulti (inv : Retains s) (running : s.history.fault = none) (multi : RefMultiBuffer) :
    Retains (s.step build throws (.pushMulti multi)) where
  all_pending := by
    have later : (s.step build throws (.pushMulti multi)).pending <:+
        s.pending ++ multi.addresses := by
      rw [step_pushMulti running]
      exact drop_append s.given multi.addresses s.history.popped
    rw [held_pushMulti running]
    exact later.trans (List.suffix_append_self_iff.mpr inv.all_pending)
  contiguous := by
    rw [held_pushMulti running, step_pushMulti running]
    exact List.suffix_append_self_iff.mpr inv.contiguous

theorem pop (inv : Retains s) (running : s.history.fault = none) (bytes : SizeT) :
    Retains (s.step build throws (.pop bytes)) := by
  have given := given_pop build throws s bytes
  rcases pop_cases build throws running bytes with
    ⟨fault, stops⟩ | ⟨popped, ⟨_, queue⟩ | ⟨_, callbacks, queue⟩⟩
  · rw [stops]
    exact ⟨inv.all_pending, inv.contiguous⟩
  · refine ⟨?_, ?_⟩
    · rw [pending_of_popped given popped, held_of_queue queue]
      exact (List.drop_suffix _ _).trans inv.all_pending
    · rw [held_of_queue queue, given]
      exact inv.contiguous
  · refine ⟨?_, ?_⟩
    · rw [pending_of_popped given popped, held_afterPop queue]
      exact (drop inv.all_pending _).trans
        (drop_suffix_flatMap_survivors length_addresses _ _)
    · rw [held_afterPop queue, given]
      exact (flatMap_survivors_suffix length_addresses _ _).trans inv.contiguous

theorem step (build : Build) (throws : ℕ → Bool) (s : Stream) (op : QueueOp) (inv : Retains s) :
    Retains (s.step build throws op) := by
  cases fault : s.history.fault with
  | some f =>
    simp only [Stream.step, fault]
    exact inv
  | none =>
    cases op with
    | push buf =>
      rw [step_push]
      exact inv.pushMulti fault ⟨[buf]⟩
    | pushMulti multi => exact inv.pushMulti fault multi
    | pop bytes => exact inv.pop fault bytes

end Retains

/-- No byte is skipped: in every run, of either build and whichever callbacks throw, the
buffers held are an end of all that was pushed and include every byte not popped. -/
theorem run_retains_pending (build : Build) (throws : ℕ → Bool) (ops : List QueueOp) :
    Retains (Runs.run (step build throws) new ops) :=
  Runs.invariant (C := fun _ _ => True) (fun s op inv _ => Retains.step build throws s op inv)
    Retains.start ((Runs.each_const _ (fun _ => True) _ ops).mpr fun _ _ => trivial)

/- What the exact reading of a pop rests on: recorded sizes for all that is outstanding, a
count of buffers that has not wrapped, and no push counted for more bytes than it gave. -/
structure Books (s : Stream) : Prop where
  throwing : ThrowInv s.history
  counted : s.history.queue.bufferSize.toNat = s.history.buffers.length
  behind : s.history.pushed ≤ s.given.length

namespace Books

theorem start : Books new where
  throwing := .start
  counted := rfl
  behind := Nat.le_refl 0

theorem popped_le (inv : Books s) : s.history.popped ≤ s.given.length :=
  inv.throwing.popped_le.trans inv.behind

theorem pushMulti (inv : Books s) (multi : RefMultiBuffer) (room : s.Roomy (.pushMulti multi)) :
    Books (s.step .release throws (.pushMulti multi)) := by
  have running := inv.throwing.running
  refine ⟨?_, ?_, ?_⟩
  · rw [step_history]
    exact inv.throwing.pushMulti multi
  · have counted := inv.counted
    have fits : s.history.buffers.length + multi.buffers.length < 2 ^ 64 := room
    rw [step_pushMulti running]
    unfold History.buffers at counted fits ⊢
    simp only [History.enter, BufferQueue.pushMulti, RefMultiBuffer.extend, RefMultiBuffer.size,
      UInt64.toNat_add, counted, List.length_append, UInt64.toNat_ofNat', Nat.add_mod_mod]
    exact Nat.mod_eq_of_lt fits
  · have behind := inv.behind
    have reported := sizeBytes_le multi
    rw [bytesOf_eq_length] at reported
    rw [step_pushMulti running, pushed_enter, List.length_append]
    exact Nat.add_le_add behind reported

theorem entries_pop (build : Build) (throws : ℕ → Bool) (h : History) (bytes : SizeT) :
    (h.step build throws (.pop bytes)).entries = h.entries := by
  cases fault : h.fault with
  | some f => simp only [History.step, fault]
  | none =>
    cases popped : h.queue.pop build throws bytes with
    | error f => simp only [History.step, fault, popped]
    | ok exit => simp only [History.step, fault, popped]

/-- An admitted pop of a queue without buffers takes no byte; any other is an erase pass. -/
theorem pop_cases (throws : ℕ → Bool) (inv : Books s) {bytes : SizeT}
    (within : bytes.toNat ≤ s.history.outstanding) :
    (s.step .release throws (.pop bytes)).history.popped = s.history.popped + bytes.toNat ∧
      ((s.history.buffers = [] ∧
          (s.step .release throws (.pop bytes)).history.queue = s.history.queue) ∨
        ∃ callbacks, (s.step .release throws (.pop bytes)).history.queue =
          s.history.queue.afterPop bytes callbacks) := by
  have next : ThrowInv (s.history.step .release throws (.pop bytes)) := inv.throwing.pop within
  rcases Stream.pop_cases .release throws inv.throwing.running bytes with
    ⟨fault, stops⟩ | ⟨popped, ⟨stop, queue⟩ | ⟨_, callbacks, queue⟩⟩
  · have running := next.running
    rw [← step_history, stops] at running
    cases running
  · have none_held : s.history.buffers = [] := by
      rw [BufferQueue.empty, beq_iff_eq, ← UInt64.toNat_inj, inv.counted] at stop
      exact List.length_eq_zero_iff.mp stop
    exact ⟨popped, .inl ⟨none_held, queue⟩⟩
  · exact ⟨popped, .inr ⟨callbacks, queue⟩⟩

theorem pop (inv : Books s) {bytes : SizeT} (within : bytes.toNat ≤ s.history.outstanding) :
    Books (s.step .release throws (.pop bytes)) := by
  have counted := inv.counted
  refine ⟨?_, ?_, ?_⟩
  · rw [step_history]
    exact inv.throwing.pop within
  · rcases (inv.pop_cases throws within).2 with ⟨_, queue⟩ | ⟨callbacks, queue⟩
    · rw [History.buffers, queue]
      exact counted
    · have kept := survivors_sublist RefBuffer.bytes bytes.toNat s.history.buffers
      have fits : s.history.buffers.length < 2 ^ 64 := by
        rw [← counted]
        exact s.history.queue.bufferSize.toNat_lt
      rw [History.buffers, queue]
      exact (UInt64.toNat_ofNat').trans
        (Nat.mod_eq_of_lt (Nat.lt_of_le_of_lt kept.length_le fits))
  · rw [History.pushed, step_history, entries_pop, given_pop]
    exact inv.behind

theorem step (s : Stream) (op : QueueOp) (inv : Books s) (room : s.Roomy op) :
    Books (s.step .release throws op) := by
  cases op with
  | push buf =>
    rw [step_push]
    exact inv.pushMulti ⟨[buf]⟩ room
  | pushMulti multi => exact inv.pushMulti multi room
  | pop bytes => exact inv.pop room

theorem aligned_pushMulti (inv : Books s) (aligned : s.Aligned) (multi : RefMultiBuffer) :
    (s.step .release throws (.pushMulti multi)).Aligned := by
  have running := inv.throwing.running
  rw [Aligned, held_pushMulti running, pending_pushMulti running multi inv.popped_le, aligned]

/-- In step with the stream, a pop stays so exactly when it ends where a buffer does. -/
theorem aligned_pop_iff (inv : Books s) (aligned : s.Aligned) {bytes : SizeT}
    (within : bytes.toNat ≤ s.history.outstanding) :
    (s.step .release throws (.pop bytes)).Aligned ↔ s.PopEndsBuffer (.pop bytes) := by
  have covered : bytes.toNat ≤ bytesOf s.history.buffers := by
    have lengths := congrArg List.length aligned
    have behind := inv.behind
    rw [held, ← bytesOf_eq_length, pending, List.length_drop] at lengths
    unfold History.outstanding at within
    unfold History.buffers
    omega
  obtain ⟨popped, queue⟩ := inv.pop_cases throws within
  have next : (s.step .release throws (.pop bytes)).pending = s.held.drop bytes.toNat := by
    rw [pending_of_popped (given_pop .release throws s bytes) popped, aligned]
  rcases queue with ⟨none_held, queue⟩ | ⟨callbacks, queue⟩
  · have zero : bytes.toNat = 0 := by
      rw [none_held] at covered
      exact Nat.le_zero.mp covered
    have same : (s.step .release throws (.pop bytes)).Aligned := by
      rw [Aligned, next, held_of_queue queue, zero]
      rfl
    exact iff_of_true same ⟨0, zero.symm⟩
  · rw [Aligned, next, held_afterPop queue]
    exact flatMap_survivors_iff length_addresses covered

end Books

theorem aligned_step_iff (s : Stream) (op : QueueOp) (inv : Books s) (aligned : s.Aligned)
    (room : s.Roomy op) : (s.step .release throws op).Aligned ↔ s.PopEndsBuffer op := by
  cases op with
  | push buf =>
    rw [step_push]
    exact iff_of_true (inv.aligned_pushMulti aligned ⟨[buf]⟩) trivial
  | pushMulti multi => exact iff_of_true (inv.aligned_pushMulti aligned multi) trivial
  | pop bytes => exact inv.aligned_pop_iff aligned room

/-- The buffers hold exactly the bytes not popped, throughout a run, if and only if every pop
of it ends where a buffer does, whichever callbacks throw. -/
theorem run_aligned_iff_pops_end_buffers (throws : ℕ → Bool) (ops : List QueueOp)
    (admitted : Runs.Each (step .release throws) Roomy new ops) :
    Runs.Always (step .release throws) Aligned new ops ↔
      Runs.Each (step .release throws) PopEndsBuffer new ops :=
  Runs.always_iff_each (fun s op inv room _ => Books.step s op inv room) aligned_step_iff
    Books.start rfl admitted

theorem two_buffers_aligned :
    Runs.Always (step .release (· == 1)) Aligned new
      [.push (.mk 64 2), .pushMulti ⟨[.mk 128 1, .mk 256 3]⟩, .pop 3, .pop 3] :=
  (run_aligned_iff_pops_end_buffers (· == 1) _ (by decide)).mpr
    ⟨trivial, trivial, ⟨2, rfl⟩, ⟨1, rfl⟩, trivial⟩

end Stream

def QueueOp.buffers : QueueOp → List RefBuffer
  | .push buf => [buf]
  | .pushMulti multi => multi.buffers
  | .pop _ => []

/- The call is no pop of this many bytes or more. -/
def QueueOp.PopsLess (least : ℕ) : QueueOp → Prop
  | .pop bytes => bytes.toNat < least
  | _ => True

instance decidablePopsLess (least : ℕ) (op : QueueOp) : Decidable (op.PopsLess least) :=
  match op with
  | .push _ => .isTrue trivial
  | .pushMulti _ => .isTrue trivial
  | .pop bytes => inferInstanceAs (Decidable (bytes.toNat < least))

/-- The buffers of at least this many bytes. -/
def longBuffers (least : ℕ) (bufs : List RefBuffer) : List RefBuffer :=
  bufs.filter fun buf => decide (least ≤ buf.bytes)

theorem longBuffers_append (least : ℕ) (l m : List RefBuffer) :
    longBuffers least (l ++ m) = longBuffers least l ++ longBuffers least m :=
  List.filter_append l m

theorem long_step (throws : ℕ → Bool) {h : History} (inv : ThrowInv h) (least : ℕ)
    (op : QueueOp) (within : h.Within op) (less : op.PopsLess least) :
    longBuffers least (h.step .release throws op).buffers =
      longBuffers least (h.buffers ++ op.buffers) := by
  have next : ThrowInv (h.step .release throws op) := ThrowInv.step h op inv within
  have running := next.running
  cases op with
  | push buf =>
    rw [step_push, step_pushMulti inv.running]
    rfl
  | pushMulti multi =>
    rw [step_pushMulti inv.running]
    rfl
  | pop bytes =>
    cases popped : h.queue.pop .release throws bytes with
    | error fault =>
      simp only [History.step, inv.running, popped] at running
      cases running
    | ok exit =>
      rw [step_pop inv.running popped, QueueOp.buffers, List.append_nil]
      rcases pop_release_cases popped with ⟨_, same⟩ | ⟨_, callbacks, after⟩
      · rw [History.buffers, same]
        rfl
      · rw [History.buffers, after]
        exact filter_survivors RefBuffer.bytes less h.buffers

theorem long_run {throws : ℕ → Bool} {h : History} (inv : ThrowInv h) (least : ℕ)
    (ops : List QueueOp) (admitted : Runs.Each (History.step .release throws) History.Within h ops)
    (less : ∀ op ∈ ops, op.PopsLess least) :
    longBuffers least (Runs.run (History.step .release throws) h ops).buffers =
      longBuffers least (h.buffers ++ ops.flatMap QueueOp.buffers) := by
  induction ops generalizing h with
  | nil =>
    rw [List.flatMap_nil, List.append_nil]
    rfl
  | cons op rest ih =>
    obtain ⟨first, others⟩ := List.forall_mem_cons.mp less
    have next := ih (ThrowInv.step h op inv admitted.1) admitted.2 others
    have here := long_step throws inv least op admitted.1 first
    rw [Runs.run, next, longBuffers_append, here, List.flatMap_cons, ← longBuffers_append,
      List.append_assoc]

/-- A buffer longer than every pop of the run is never let go, however many bytes are popped in
all: every such buffer pushed is still held at the end, in order. -/
theorem long_buffers_never_released (throws : ℕ → Bool) (least : ℕ) (ops : List QueueOp)
    (admitted : ThrowAdmitted throws ops) (less : ∀ op ∈ ops, op.PopsLess least) :
    longBuffers least (throwRun throws ops).buffers =
      longBuffers least (ops.flatMap QueueOp.buffers) :=
  long_run .start least ops admitted less

theorem four_bytes_never_released :
    longBuffers 4 (throwRun (· == 1)
        [.push (.mk 64 4), .push (.mk 128 2), .pop 3, .pop 3, .push (.mk 256 5)]).buffers =
      longBuffers 4 [.mk 64 4, .mk 128 2, .mk 256 5] :=
  long_buffers_never_released (· == 1) 4 _ (by decide) (by decide)

end LibN3
