import LibN3.Consume
import LibN3.QueueMove
import LibN3.QueueRuns

/-! What a BufferQueue is for: a pipe of bytes with marks in it. A callback is due once the
bytes up to its mark have been popped. The queue is compared with the pipe call by call. -/
namespace LibN3
open Credit

variable {κ : Type}

/-- The bytes pushed and not popped, how many were popped before them, and the callbacks yet to
run, each with the place in the whole stream where its bytes end. -/
structure Pipe (κ : Type) where
  pending : List UInt64
  popped : ℕ
  marks : List (κ × ℕ)

namespace Pipe

def new : Pipe κ := ⟨[], 0, []⟩

def push (p : Pipe κ) (bytes : List UInt64) (callback : κ) : Pipe κ where
  pending := p.pending ++ bytes
  popped := p.popped
  marks := p.marks ++ [(callback, p.popped + p.pending.length + bytes.length)]

def pop (p : Pipe κ) (n : ℕ) : Pipe κ where
  pending := p.pending.drop n
  popped := p.popped + n
  marks := p.marks.dropWhile fun m => decide (m.2 ≤ p.popped + n)

/-- The callbacks that a pop of n bytes runs. -/
def due (p : Pipe κ) (n : ℕ) : List κ :=
  (p.marks.takeWhile fun m => decide (m.2 ≤ p.popped + n)).map Prod.fst

def call (p : Pipe κ) : QueueCall κ → Pipe κ × List κ
  | .push buf callback => (p.push buf.addresses callback, [])
  | .pushMulti multi callback => (p.push multi.addresses callback, [])
  | .pop bytes => (p.pop bytes.toNat, p.due bytes.toNat)

/-- What is seen of the pipe call by call: the callbacks run, and whether it is empty then. -/
def behaviour (p : Pipe κ) : List (QueueCall κ) → List (List κ × Bool)
  | [] => []
  | c :: rest => ((p.call c).2, (p.call c).1.pending.isEmpty) :: (p.call c).1.behaviour rest

end Pipe

namespace BufferQueue

def after (q : BufferQueue κ) (c : QueueCall κ) : BufferQueue κ :=
  match q.call .release quiet c with
  | .ok exit => exit.queue
  | .error _ => q

/- Every buffer pushed has bytes, as many as a size_t counts, and the vector has room; a pop
ends where a buffer does. -/
def EndsBuffers (q : BufferQueue κ) : QueueCall κ → Prop
  | .push buf _ => 0 < buf.bytes ∧ q.buffers.buffers.length + 1 < 2 ^ 64
  | .pushMulti multi _ => multi.buffers ≠ [] ∧ (∀ buf ∈ multi.buffers, 0 < buf.bytes) ∧
      bytesOf multi.buffers < 2 ^ 64 ∧
      q.buffers.buffers.length + multi.buffers.length < 2 ^ 64
  | .pop bytes => ∃ k, bytesOf (q.buffers.buffers.take k) = bytes.toNat

theorem endsBuffers_push (q : BufferQueue κ) {buf : RefBuffer} {callback : κ}
    (ends : q.EndsBuffers (.push buf callback)) :
    q.EndsBuffers (.pushMulti ⟨[buf]⟩ callback) := by
  obtain ⟨some, room⟩ := ends
  refine ⟨List.cons_ne_nil _ _, ?_, ?_, room⟩
  · rintro b member
    rw [List.mem_singleton.mp member]
    exact some
  · rw [bytesOf_cons, bytesOf_nil, Nat.add_zero]
    exact buf.size.toNat_lt

theorem call_push (q : BufferQueue κ) (buf : RefBuffer) (callback : κ) :
    q.call .release quiet (.push buf callback) =
      q.call .release quiet (.pushMulti ⟨[buf]⟩ callback) := by
  rw [call, push_eq_pushMulti, call]

end BufferQueue

theorem Pipe.call_push (p : Pipe κ) (buf : RefBuffer) (callback : κ) :
    p.call (.push buf callback) = p.call (.pushMulti ⟨[buf]⟩ callback) := by
  have same : buf.addresses = RefMultiBuffer.addresses ⟨[buf]⟩ := by
    simp [RefMultiBuffer.addresses]
  rw [Pipe.call, same, Pipe.call]

/- The queue carries what the pipe does: the same bytes, in buffers none of which is empty, and
a callback for each mark, with the bytes from mark to mark. -/
structure Carries (q : BufferQueue κ) (p : Pipe κ) : Prop where
  counted : q.bufferSize.toNat = q.buffers.buffers.length
  holding : ∀ buf ∈ q.buffers.buffers, 0 < buf.bytes
  bytes : q.buffers.addresses = p.pending
  marks : p.marks = ends p.popped (amounts q.callbacks)
  waiting : ∀ e ∈ amounts q.callbacks, 0 < e.2
  covered : total (amounts q.callbacks) = p.pending.length

namespace Carries

variable {q : BufferQueue κ} {p : Pipe κ}

theorem start : Carries (.new : BufferQueue κ) .new where
  counted := rfl
  holding := fun _ member => absurd member List.not_mem_nil
  bytes := rfl
  marks := rfl
  waiting := fun _ member => absurd member List.not_mem_nil
  covered := rfl

theorem empty_eq (rel : Carries q p) : q.empty = p.pending.isEmpty := by
  have counted := rel.counted
  have bytes := rel.bytes
  cases bufs : q.buffers.buffers with
  | nil =>
    rw [bufs, List.length_nil] at counted
    have zero : q.bufferSize = 0 := UInt64.toNat_inj.mp counted
    rw [RefMultiBuffer.addresses, bufs, List.flatMap_nil] at bytes
    rw [← bytes, BufferQueue.empty, zero]
    rfl
  | cons buf rest =>
    have some := rel.holding buf (by rw [bufs]; exact List.mem_cons_self)
    have stored : p.pending ≠ [] := by
      rw [← bytes, RefMultiBuffer.addresses, bufs, List.flatMap_cons]
      intro none
      have lengths := congrArg List.length none
      rw [List.length_append, length_addresses, List.length_nil] at lengths
      omega
    have going : q.bufferSize ≠ 0 := by
      intro zero
      rw [zero, bufs, List.length_cons] at counted
      exact absurd counted (by simp)
    rw [BufferQueue.empty, List.isEmpty_eq_false_iff.mpr stored]
    exact beq_eq_false_iff_ne.mpr going

theorem pushMulti (rel : Carries q p) {multi : RefMultiBuffer} {callback : κ}
    (ends : q.EndsBuffers (.pushMulti multi callback)) :
    Carries (q.pushMulti multi callback) (p.push multi.addresses callback) := by
  obtain ⟨nonempty, some, fits, room⟩ := ends
  have size : multi.sizeBytes.toNat = multi.addresses.length := by
    rw [sizeBytes_toNat, Nat.mod_eq_of_lt fits, bytesOf_eq_length]
  have counted := rel.counted
  refine ⟨?_, ?_, ?_, ?_, ?_, ?_⟩
  · simp only [BufferQueue.pushMulti, RefMultiBuffer.extend, RefMultiBuffer.size,
      UInt64.toNat_add, counted, List.length_append, UInt64.toNat_ofNat', Nat.add_mod_mod]
    exact Nat.mod_eq_of_lt room
  · intro buf member
    rcases List.mem_append.mp member with old | new
    · exact rel.holding buf old
    · exact some buf new
  · have joined : (q.pushMulti multi callback).buffers.addresses =
        q.buffers.addresses ++ multi.addresses := List.flatMap_append
    rw [joined, rel.bytes]
    rfl
  · have mark : p.popped + p.pending.length + multi.addresses.length =
        p.popped + total (amounts q.callbacks) + multi.sizeBytes.toNat := by
      rw [rel.covered, size]
    simp only [Pipe.push, BufferQueue.pushMulti, amounts_append, amounts_cons, amounts_nil,
      ends_append, rel.marks, mark]
    rfl
  · intro e member
    simp only [BufferQueue.pushMulti, amounts_append] at member
    rcases List.mem_append.mp member with old | new
    · exact rel.waiting e old
    · rw [amounts_cons, amounts_nil, List.mem_singleton] at new
      subst new
      obtain ⟨buf, member⟩ := List.exists_mem_of_ne_nil _ nonempty
      have one : bytesOf [buf] ≤ bytesOf multi.buffers :=
        weight_sublist _ (List.singleton_sublist.mpr member)
      have positive := some buf member
      rw [bytesOf_cons] at one
      dsimp only
      rw [size, ← bytesOf_eq_length]
      omega
  · have covered := rel.covered
    simp only [BufferQueue.pushMulti, Pipe.push, amounts_append, amounts_cons, amounts_nil,
      total_append, total_cons, total_nil, List.length_append, size]
    omega

/-- A pop that ends where a buffer does runs the callbacks due and keeps the rest of the bytes. -/
theorem pop (rel : Carries q p) {bytes : SizeT} (boundary : q.EndsBuffers (.pop bytes)) :
    ∃ exit, q.pop .release quiet bytes = .ok exit ∧ exit.invoked = p.due bytes.toNat ∧
      Carries exit.queue (p.pop bytes.toNat) := by
  have covered : bytes.toNat ≤ bytesOf q.buffers.buffers := by
    obtain ⟨k, sum⟩ := boundary
    rw [← sum]
    exact weight_sublist _ (List.take_sublist _ _)
  have stored : bytesOf q.buffers.buffers = p.pending.length := by
    rw [bytesOf_eq_length, rel.bytes]
  have affordable : bytes.toNat ≤ total (amounts q.callbacks) := by
    rw [rel.covered, ← stored]
    exact covered
  obtain ⟨due, marks⟩ := spend_ends p.popped bytes.toNat rel.waiting
  rw [← rel.marks] at due marks
  cases stop : q.empty with
  | true =>
    have drained := stop
    rw [rel.empty_eq, List.isEmpty_iff] at drained
    have zero : bytes.toNat = 0 := by
      rw [stored, drained, List.length_nil] at covered
      exact Nat.le_zero.mp covered
    rw [zero, spend_zero] at due marks
    rw [zero]
    exact ⟨_, pop_stop .release quiet bytes stop, due,
      rel.counted, rel.holding, rel.bytes, marks.symm, rel.waiting, rel.covered⟩
  | false =>
    obtain ⟨left, loop, ledger⟩ := popLoop_spend .release q.callbacks bytes affordable
    have kept := survivors_sublist RefBuffer.bytes bytes.toNat q.buffers.buffers
    refine ⟨_, pop_go stop loop, due, ?_, ?_, ?_, ?_, ?_, ?_⟩
    · have fits : q.buffers.buffers.length < 2 ^ 64 := by
        rw [← rel.counted]
        exact q.bufferSize.toNat_lt
      exact (UInt64.toNat_ofNat').trans
        (Nat.mod_eq_of_lt (Nat.lt_of_le_of_lt kept.length_le fits))
    · intro buf member
      exact rel.holding buf (kept.subset member)
    · have dropped := (flatMap_survivors_iff length_addresses covered).mpr boundary
      have bytes := rel.bytes
      rw [RefMultiBuffer.addresses] at bytes
      rw [RefMultiBuffer.addresses, afterPop_buffers, dropped, bytes]
      rfl
    · rw [afterPop_callbacks, ledger]
      exact marks.symm
    · rw [afterPop_callbacks, ledger]
      exact spend_positive bytes.toNat rel.waiting
    · have reduced := total_left affordable
      have whole := rel.covered
      simp only [afterPop_callbacks, ledger, Pipe.pop, List.length_drop]
      omega

theorem call (rel : Carries q p) {c : QueueCall κ} (ends : q.EndsBuffers c) :
    ∃ exit, q.call .release quiet c = .ok exit ∧ exit.invoked = (p.call c).2 ∧
      Carries exit.queue (p.call c).1 := by
  cases c with
  | push buf callback =>
    rw [BufferQueue.call_push, Pipe.call_push]
    exact ⟨_, rfl, rfl, rel.pushMulti (q.endsBuffers_push ends)⟩
  | pushMulti multi callback => exact ⟨_, rfl, rfl, rel.pushMulti ends⟩
  | pop bytes => exact rel.pop ends

end Carries

/- The part of what is seen that a pipe shows. -/
def Seen.piped (seen : Seen κ) : List κ × Bool := (seen.invoked, seen.empty)

theorem behaviour_of_carries {q : BufferQueue κ} {p : Pipe κ} (rel : Carries q p)
    {calls : List (QueueCall κ)}
    (admitted : Runs.Each BufferQueue.after BufferQueue.EndsBuffers q calls) :
    (q.behaviour .release quiet calls).map (Except.map Seen.piped) =
      (p.behaviour calls).map Except.ok := by
  induction calls generalizing q p with
  | nil => rfl
  | cons c rest ih =>
    obtain ⟨ends, later⟩ := admitted
    obtain ⟨exit, returns, invoked, next⟩ := rel.call ends
    have after : q.after c = exit.queue := by rw [BufferQueue.after, returns]
    rw [after] at later
    have seen : exit.seen.piped = ((p.call c).2, (p.call c).1.pending.isEmpty) := by
      rw [← invoked, ← next.empty_eq]
      rfl
    simp only [BufferQueue.behaviour, returns, Pipe.behaviour, List.map_cons, Except.map, seen,
      ih next later]

/-- While buffers have bytes and pops end where buffers do, a queue cannot be told from a pipe:
call by call it runs the same callbacks and is empty when the pipe is, and no call fails. -/
theorem queue_behaves_as_pipe (calls : List (QueueCall κ))
    (admitted : Runs.Each BufferQueue.after BufferQueue.EndsBuffers .new calls) :
    (BufferQueue.new.behaviour .release quiet calls).map (Except.map Seen.piped) =
      (Pipe.new.behaviour calls).map Except.ok :=
  behaviour_of_carries .start admitted

theorem two_callbacks_piped :
    (BufferQueue.new.behaviour .release quiet
        [.pushMulti ⟨[.mk 64 2, .mk 128 1]⟩ 0, .push (.mk 256 1) 1, .pop 2, .pop 2]).map
          (Except.map Seen.piped) =
      (Pipe.new.behaviour
        [.pushMulti ⟨[.mk 64 2, .mk 128 1]⟩ 0, .push (.mk 256 1) 1, .pop 2, .pop 2]).map Except.ok :=
  queue_behaves_as_pipe _
    ⟨⟨by decide, by decide, by decide, by decide⟩, ⟨by decide, by decide⟩, ⟨1, rfl⟩, ⟨2, rfl⟩,
      trivial⟩

end LibN3
