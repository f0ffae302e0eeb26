import LibN3.BufferQueue

/-! The moves of BufferQueue, which are defaulted and so go member by member: a vector and
a deque are empty once moved from, and a size_t is copied. -/
namespace LibN3

variable {κ : Type}

def RefMultiBuffer.move (other : RefMultiBuffer) : RefMultiBuffer × RefMultiBuffer :=
  (⟨other.buffers⟩, ⟨[]⟩)

inductive QueueCall (κ : Type)
  | push (buf : RefBuffer) (callback : κ)
  | pushMulti (multi : RefMultiBuffer) (callback : κ)
  | pop (bytes : SizeT)

/-- What is seen of a call: the callbacks that it runs, the one whose exception leaves it,
and what empty() and size() return then. -/
structure Seen (κ : Type) where
  invoked : List κ
  thrown : Option κ
  empty : Bool
  size : SizeT
deriving DecidableEq

def PopExit.seen (exit : PopExit κ) : Seen κ :=
  ⟨exit.invoked, exit.thrown, exit.queue.empty, exit.queue.size⟩

namespace BufferQueue

def moveConstruct (other : BufferQueue κ) : BufferQueue κ × BufferQueue κ :=
  let (buffers, left) := other.buffers.move
  (⟨buffers, other.callbacks, other.bufferSize, other.bufferBytesSize⟩,
    { other with buffers := left, callbacks := [] })

def moveAssign (this other : BufferQueue κ) : BufferQueue κ × BufferQueue κ :=
  let (buffers, left) := other.buffers.move
  ({ this with
      buffers := buffers
      callbacks := other.callbacks
      bufferSize := other.bufferSize
      bufferBytesSize := other.bufferBytesSize },
    { other with buffers := left, callbacks := [] })

def call (build : Build) (throws : κ → Bool) (q : BufferQueue κ) :
    QueueCall κ → Except Fault (PopExit κ)
  | .push buf callback => .ok ⟨q.push buf callback, [], none⟩
  | .pushMulti multi callback => .ok ⟨q.pushMulti multi callback, [], none⟩
  | .pop bytes => q.pop build throws bytes

/-- What is seen of one call after another, up to one that does not come back. -/
def behaviour (build : Build) (throws : κ → Bool) (q : BufferQueue κ) :
    List (QueueCall κ) → List (Except Fault (Seen κ))
  | [] => []
  | c :: rest =>
    match q.call build throws c with
    | .error fault => [.error fault]
    | .ok exit => .ok exit.seen :: exit.queue.behaviour build throws rest

end BufferQueue

inductive Reachable (build : Build) (throws : κ → Bool) : BufferQueue κ → Prop
  | new : Reachable build throws .new
  | call {q : BufferQueue κ} {c : QueueCall κ} {exit : PopExit κ} :
    Reachable build throws q → q.call build throws c = .ok exit →
      Reachable build throws exit.queue

/- A move from a hands its backlog to the queue it makes and leaves a new queue behind. -/
structure TransfersBacklog (build : Build) (throws : κ → Bool) (a : BufferQueue κ)
    (moved : BufferQueue κ × BufferQueue κ) : Prop where
  handed : ∀ calls, moved.1.behaviour build throws calls = a.behaviour build throws calls
  empty : moved.2.empty = true
  size : moved.2.size = 0
  left : ∀ calls, moved.2.behaviour build throws calls =
    BufferQueue.new.behaviour build throws calls

def AsIfNew (build : Build) (a : BufferQueue κ) : Prop :=
  a.size = 0 ∧ (build = .debug → a.bufferBytesSize = 0)

def BufferQueue.withBytes (q : BufferQueue κ) (n : SizeT) : BufferQueue κ :=
  { q with bufferBytesSize := n }

def PopExit.withBytes (exit : PopExit κ) (n : SizeT) : PopExit κ :=
  { exit with queue := exit.queue.withBytes n }

section release

variable (throws : κ → Bool)

theorem pop_withBytes (q : BufferQueue κ) (bytes n : SizeT) :
    (q.withBytes n).pop .release throws bytes =
      (q.pop .release throws bytes).map (·.withBytes n) := by
  have same_empty : (q.withBytes n).empty = q.empty := rfl
  have same_callbacks : (q.withBytes n).callbacks = q.callbacks := rfl
  unfold BufferQueue.pop
  rw [same_empty]
  split
  · rfl
  · simp only [assert_release, ok_bind, consume_release, same_callbacks]
    cases popLoop .release throws q.callbacks bytes <;> rfl

theorem call_withBytes (q : BufferQueue κ) (c : QueueCall κ) (n : SizeT) :
    ∃ m, (q.withBytes n).call .release throws c =
      (q.call .release throws c).map (·.withBytes m) := by
  cases c with
  | push buf callback => exact ⟨n + buf.size, rfl⟩
  | pushMulti multi callback => exact ⟨n + multi.sizeBytes, rfl⟩
  | pop bytes => exact ⟨n, pop_withBytes throws q bytes n⟩

theorem behaviour_withBytes (q : BufferQueue κ) (n : SizeT) (calls : List (QueueCall κ)) :
    (q.withBytes n).behaviour .release throws calls = q.behaviour .release throws calls := by
  induction calls generalizing q n with
  | nil => rfl
  | cons c rest ih =>
    obtain ⟨m, same⟩ := call_withBytes throws q c n
    simp only [BufferQueue.behaviour, same]
    cases q.call .release throws c with
    | error fault => rfl
    | ok exit => exact congrArg (.ok exit.seen :: ·) (ih exit.queue m)

end release

section debug

variable [Inhabited κ] (throws : κ → Bool) {n : SizeT}

def largest : RefMultiBuffer := .spanning (0 - 1)

def pushLargest : List (QueueCall κ) := [.pushMulti largest default, .pop largest.sizeBytes]

theorem passed_iff : largest.sizeBytes ≤ n + largest.sizeBytes ↔ n = 0 := by
  have all : largest.sizeBytes.toNat = 2 ^ 64 - 1 := rfl
  have room := n.toNat_lt
  rw [UInt64.le_iff_toNat_le, UInt64.toNat_add, ← UInt64.toNat_inj, all, UInt64.toNat_zero]
  omega

theorem pushed_largest : ((BufferQueue.new : BufferQueue κ).withBytes n).pushMulti largest default =
    ⟨largest, [(default, largest.sizeBytes)], 3, n + largest.sizeBytes⟩ := rfl

theorem popLoop_largest : ∃ exit,
    popLoop .debug throws [((default : κ), largest.sizeBytes)] largest.sizeBytes = .ok exit := by
  have fits := Nat.le_refl largest.sizeBytes.toNat
  have some_left : 0 < largest.sizeBytes.toNat := by decide
  cases outcome : throws default with
  | true => exact ⟨_, popLoop_throw .debug throws [] fits some_left outcome⟩
  | false =>
    rw [popLoop_fire .debug throws [] fits some_left outcome, popLoop_stop .debug throws [] rfl]
    exact ⟨_, rfl⟩

theorem pop_largest : (∃ exit, (((BufferQueue.new : BufferQueue κ).withBytes n).pushMulti largest
    default).pop .debug throws largest.sizeBytes = .ok exit) ↔ n = 0 := by
  have go : ¬ BufferQueue.empty ⟨largest, [((default : κ), largest.sizeBytes)], 3,
      n + largest.sizeBytes⟩ = true := Bool.false_ne_true
  rw [pushed_largest, BufferQueue.pop, if_neg go, ← passed_iff]
  by_cases asked : largest.sizeBytes ≤ n + largest.sizeBytes
  · obtain ⟨exit, loop⟩ := popLoop_largest throws
    have consumed := consume_debug_all largest largest.sizeBytes rfl
    simp only [decide_eq_true asked, assert_true, ok_bind, consumed, loop, List.isEmpty_cons,
      Bool.not_false]
    exact iff_of_true ⟨_, rfl⟩ asked
  · rw [decide_eq_false asked]
    exact iff_of_false (by rintro ⟨exit, passes⟩; cases passes) asked

theorem behaviour_pushLargest (q : BufferQueue κ) :
    q.behaviour .debug throws pushLargest =
      [.ok (PopExit.seen ⟨q.pushMulti largest default, [], none⟩),
        ((q.pushMulti largest default).pop .debug throws largest.sizeBytes).map PopExit.seen] := by
  simp only [BufferQueue.behaviour, pushLargest, BufferQueue.call]
  cases (q.pushMulti largest default).pop .debug throws largest.sizeBytes <;> rfl

/- Whether a pop comes back is seen, so the byte counter is. -/
theorem bytes_of_behaviour
    (same : ((BufferQueue.new : BufferQueue κ).withBytes n).behaviour .debug throws pushLargest =
      BufferQueue.new.behaviour .debug throws pushLargest) : n = 0 := by
  obtain ⟨exit, passes⟩ := (pop_largest (κ := κ) throws (n := 0)).mpr rfl
  have passes_new : ((BufferQueue.new : BufferQueue κ).pushMulti largest default).pop .debug throws
      largest.sizeBytes = .ok exit := passes
  rw [behaviour_pushLargest, behaviour_pushLargest, passes_new] at same
  have second := (List.cons.inj (List.cons.inj same).2).1
  apply (pop_largest (κ := κ) throws).mp
  cases outcome : (((BufferQueue.new : BufferQueue κ).withBytes n).pushMulti largest default).pop
      .debug throws largest.sizeBytes with
  | ok exit => exact ⟨exit, rfl⟩
  | error fault =>
    rw [outcome] at second
    cases second

end debug

theorem moveAssign_eq_moveConstruct (a b : BufferQueue κ) : b.moveAssign a = a.moveConstruct := rfl

theorem transfers_backlog_iff [Inhabited κ] (build : Build) (throws : κ → Bool)
    (a : BufferQueue κ) :
    TransfersBacklog build throws a a.moveConstruct ↔ AsIfNew build a := by
  have idle (unused : a.size = 0) :
      a.moveConstruct.2 = BufferQueue.new.withBytes a.bufferBytesSize := by
    simp only [BufferQueue.size] at unused
    simp only [BufferQueue.moveConstruct, RefMultiBuffer.move, unused]
    rfl
  constructor
  · intro transfers
    have unused : a.size = 0 := transfers.size
    refine ⟨unused, ?_⟩
    rintro rfl
    have same := transfers.left pushLargest
    rw [idle unused] at same
    exact bytes_of_behaviour throws same
  · rintro ⟨unused, uncounted⟩
    refine ⟨fun _ => rfl, beq_iff_eq.mpr unused, unused, fun calls => ?_⟩
    rw [idle unused]
    cases build with
    | release => exact behaviour_withBytes throws .new a.bufferBytesSize calls
    | debug =>
      rw [uncounted rfl]
      rfl

/-- A queue that is moved from keeps its counters, so what is left of it is a new queue only
where it was one already, to size() and, in the Debug build, to the byte counter too. -/
theorem move_transfers_backlog_iff [Inhabited κ] (build : Build) (throws : κ → Bool)
    (a b : BufferQueue κ) :
    (TransfersBacklog build throws a a.moveConstruct ↔ AsIfNew build a) ∧
      (TransfersBacklog build throws a (b.moveAssign a) ↔ AsIfNew build a) := by
  rw [moveAssign_eq_moveConstruct]
  exact ⟨transfers_backlog_iff build throws a, transfers_backlog_iff build throws a⟩

/- What is left of any other queue goes past the empty() check of pop with no callback for it
to read. -/
theorem pop_moved_from (throws : κ → Bool) {a : BufferQueue κ} {bytes : SizeT}
    (counted : a.size ≠ 0) (some_asked : 0 < bytes.toNat) :
    a.moveConstruct.2.pop .release throws bytes = .error .frontOfEmpty := by
  have go : ¬ a.moveConstruct.2.empty = true := fun stop => counted (beq_iff_eq.mp stop)
  have no_callbacks : a.moveConstruct.2.callbacks = [] := rfl
  have loop : popLoop .release throws [] bytes = .error .frontOfEmpty := by
    rw [popLoop, if_pos (gt_zero some_asked)]
    rfl
  rw [BufferQueue.pop, if_neg go]
  simp only [assert_release, ok_bind, consume_release, no_callbacks, loop, error_bind]

/- One buffer, moved on with the queue it was pushed to: the queue left says it has it. -/
theorem moved_from_is_not_empty : ¬ ∀ a : BufferQueue ℕ, Reachable .release quiet a →
    TransfersBacklog .release quiet a a.moveConstruct := by
  intro claim
  have reached : Reachable .release quiet (BufferQueue.new.push (.mk 64 2) 0) :=
    .call (c := .push (.mk 64 2) 0) .new rfl
  have empty := (claim _ reached).empty
  revert empty
  decide

end LibN3
