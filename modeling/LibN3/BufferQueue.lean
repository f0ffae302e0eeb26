import LibN3.Buffer

/-! BufferQueue of buffer.h: a backlog of buffers, and the callbacks to run as its
bytes are popped. A callback is known to pop by its name and, for the runs of this
module, by whether it throws; it does not touch the queue it is run from. -/
namespace LibN3
open Credit

structure BufferQueue (κ : Type) where
  buffers : RefMultiBuffer
  callbacks : List (κ × SizeT)
  bufferSize : SizeT
  bufferBytesSize : SizeT
deriving DecidableEq

/-- How the loop in pop ends: the callbacks it ran, the deque it leaves, and the
callback whose exception left through it, if one did. -/
structure LoopExit (κ : Type) where
  invoked : List κ
  callbacks : List (κ × SizeT)
  thrown : Option κ
deriving DecidableEq

structure PopExit (κ : Type) where
  queue : BufferQueue κ
  invoked : List κ
  thrown : Option κ
deriving DecidableEq

/-- The loop in pop, by recursion on the deque: each turn that goes on removes its front.
A callback that throws is still in the deque, at its recorded size, when it does. -/
def popLoop {κ : Type} (build : Build) (throws : κ → Bool) :
    List (κ × SizeT) → SizeT → Except Fault (LoopExit κ)
  | [], remaining =>
    if remaining > 0 then do
      assert build "!this->callbacks.empty()" false
      .error .frontOfEmpty
    else .ok ⟨[], [], none⟩
  | (cb, cbSize) :: rest, remaining =>
    if remaining > 0 then
      if cbSize ≤ remaining then
        if throws cb then .ok ⟨[cb], (cb, cbSize) :: rest, some cb⟩
        else do
          let exit ← popLoop build throws rest (remaining - cbSize)
          return ⟨cb :: exit.invoked, exit.callbacks, exit.thrown⟩
      else do
        assert build "cb_size > remaining" (cbSize > remaining)
        return ⟨[], (cb, cbSize - remaining) :: rest, none⟩
    else .ok ⟨[], (cb, cbSize) :: rest, none⟩

namespace BufferQueue

variable {κ : Type}

def new : BufferQueue κ := ⟨⟨[]⟩, [], 0, 0⟩

def empty (q : BufferQueue κ) : Bool := q.bufferSize == 0

def size (q : BufferQueue κ) : SizeT := q.bufferSize

def push (q : BufferQueue κ) (buf : RefBuffer) (callback : κ) : BufferQueue κ where
  buffers := q.buffers.pushBack buf
  callbacks := q.callbacks ++ [(callback, buf.size)]
  bufferSize := q.bufferSize + 1
  bufferBytesSize := q.bufferBytesSize + buf.size

def pushMulti (q : BufferQueue κ) (multi : RefMultiBuffer) (callback : κ) : BufferQueue κ where
  buffers := q.buffers.extend multi
  callbacks := q.callbacks ++ [(callback, multi.sizeBytes)]
  bufferSize := q.bufferSize + multi.size
  bufferBytesSize := q.bufferBytesSize + multi.sizeBytes

def pop (build : Build) (throws : κ → Bool) (q : BufferQueue κ) (bytes : SizeT) :
    Except Fault (PopExit κ) :=
  if q.empty then .ok ⟨q, [], none⟩
  else do
    assert build "bytes <= buffer_bytes_size" (bytes ≤ q.bufferBytesSize)
    assert build "!this->callbacks.empty()" (!q.callbacks.isEmpty)
    let buffers ← q.buffers.consume build bytes
    let exit ← popLoop build throws q.callbacks bytes
    return ⟨{ q with buffers := buffers, bufferSize := buffers.size,
                     callbacks := exit.callbacks }, exit.invoked, exit.thrown⟩

end BufferQueue

def quiet {κ : Type} : κ → Bool := fun _ => false

/-- The deque read as a ledger: names and recorded sizes. -/
def amounts {κ : Type} (callbacks : List (κ × SizeT)) : List (κ × ℕ) :=
  callbacks.map fun e => (e.1, e.2.toNat)

section
variable {κ : Type}

@[simp] theorem amounts_nil : amounts ([] : List (κ × SizeT)) = [] := rfl

@[simp] theorem amounts_cons (cb : κ) (cbSize : SizeT) (rest : List (κ × SizeT)) :
    amounts ((cb, cbSize) :: rest) = (cb, cbSize.toNat) :: amounts rest := rfl

@[simp] theorem amounts_append (l m : List (κ × SizeT)) :
    amounts (l ++ m) = amounts l ++ amounts m := by
  simp [amounts]

@[simp] theorem amounts_eq_nil (l : List (κ × SizeT)) : amounts l = [] ↔ l = [] := by
  simp [amounts]

section turns

variable (build : Build) (throws : κ → Bool) {cb : κ} {cbSize n : SizeT}

theorem popLoop_stop (l : List (κ × SizeT)) (none_left : n.toNat = 0) :
    popLoop build throws l n = .ok ⟨[], l, none⟩ := by
  have stop := not_gt_zero none_left
  cases l with
  | nil => rw [popLoop, if_neg stop]
  | cons e rest => rw [popLoop, if_neg stop]

theorem popLoop_short (rest : List (κ × SizeT)) (short : n.toNat < cbSize.toNat)
    (some_left : 0 < n.toNat) :
    popLoop build throws ((cb, cbSize) :: rest) n =
      .ok ⟨[], (cb, cbSize - n) :: rest, none⟩ := by
  have go := gt_zero some_left
  have exceeds := not_le_of_toNat short
  have above : decide (cbSize > n) = true := decide_eq_true (UInt64.lt_iff_toNat_lt.mpr short)
  rw [popLoop, if_pos go, if_neg exceeds, above, assert_true]
  rfl

theorem popLoop_throw (rest : List (κ × SizeT)) (fits : cbSize.toNat ≤ n.toNat)
    (some_left : 0 < n.toNat) (raises : throws cb = true) :
    popLoop build throws ((cb, cbSize) :: rest) n =
      .ok ⟨[cb], (cb, cbSize) :: rest, some cb⟩ := by
  have go := gt_zero some_left
  rw [popLoop, if_pos go, if_pos (UInt64.le_iff_toNat_le.mpr fits), if_pos raises]

theorem popLoop_fire (rest : List (κ × SizeT)) (fits : cbSize.toNat ≤ n.toNat)
    (some_left : 0 < n.toNat) (returns : throws cb = false) :
    popLoop build throws ((cb, cbSize) :: rest) n =
      popLoop build throws rest (n - cbSize) >>= fun exit =>
        .ok ⟨cb :: exit.invoked, exit.callbacks, exit.thrown⟩ := by
  have go := gt_zero some_left
  rw [popLoop, if_pos go, if_pos (UInt64.le_iff_toNat_le.mpr fits), returns]
  rfl

end turns

def BufferQueue.afterPop (q : BufferQueue κ) (bytes : SizeT) (callbacks : List (κ × SizeT)) :
    BufferQueue κ :=
  let kept := survivors RefBuffer.bytes bytes.toNat q.buffers.buffers
  { q with buffers := ⟨kept⟩, bufferSize := UInt64.ofNat kept.length, callbacks := callbacks }

@[simp] theorem afterPop_callbacks (q : BufferQueue κ) (bytes : SizeT)
    (callbacks : List (κ × SizeT)) : (q.afterPop bytes callbacks).callbacks = callbacks := rfl

@[simp] theorem afterPop_buffers (q : BufferQueue κ) (bytes : SizeT)
    (callbacks : List (κ × SizeT)) : (q.afterPop bytes callbacks).buffers.buffers =
      survivors RefBuffer.bytes bytes.toNat q.buffers.buffers := rfl

theorem pop_stop (build : Build) (throws : κ → Bool) {q : BufferQueue κ} (bytes : SizeT)
    (stop : q.empty = true) : q.pop build throws bytes = .ok ⟨q, [], none⟩ := by
  rw [BufferQueue.pop, if_pos stop]

theorem pop_go {throws : κ → Bool} {q : BufferQueue κ} {bytes : SizeT} {exit : LoopExit κ}
    (go : q.empty = false) (loop : popLoop .release throws q.callbacks bytes = .ok exit) :
    q.pop .release throws bytes =
      .ok ⟨q.afterPop bytes exit.callbacks, exit.invoked, exit.thrown⟩ := by
  have past : ¬ q.empty = true := by simp [go]
  rw [BufferQueue.pop, if_neg past]
  simp only [assert_release, ok_bind, consume_release, loop]
  rfl

/-- Callbacks that return are run as the ledger is spent, in either build: the loop
charges the bytes to the deque from the front and never reads it when empty. -/
theorem popLoop_spend (build : Build) (l : List (κ × SizeT)) (n : SizeT)
    (covered : n.toNat ≤ total (amounts l)) :
    ∃ left, popLoop build quiet l n = .ok ⟨(spend n.toNat (amounts l)).1, left, none⟩ ∧
      amounts left = (spend n.toNat (amounts l)).2 := by
  induction l generalizing n with
  | nil =>
    have zero : n.toNat = 0 := Nat.le_zero.mp covered
    exact ⟨[], popLoop_stop build quiet [] zero, rfl⟩
  | cons e rest ih =>
    obtain ⟨cb, cbSize⟩ := e
    simp only [amounts_cons, total_cons, spend] at covered ⊢
    by_cases stop : n.toNat = 0
    · refine ⟨(cb, cbSize) :: rest, ?_, ?_⟩
      · rw [popLoop_stop build quiet _ stop, if_pos stop]
      · rw [if_pos stop, amounts_cons]
    · have some_left : 0 < n.toNat := Nat.pos_of_ne_zero stop
      simp only [if_neg stop]
      by_cases fits : cbSize.toNat ≤ n.toNat
      · have gap := sub_toNat fits
        obtain ⟨left, loop, ledger⟩ := ih (n - cbSize) (by rw [gap]; omega)
        rw [gap] at loop ledger
        refine ⟨left, ?_, ?_⟩
        · rw [popLoop_fire build quiet rest fits some_left rfl, loop, if_pos fits]
          rfl
        · rw [if_pos fits, ledger]
      · have short : n.toNat < cbSize.toNat := Nat.lt_of_not_le fits
        have gap := sub_toNat (Nat.le_of_lt short)
        refine ⟨(cb, cbSize - n) :: rest, ?_, ?_⟩
        · rw [popLoop_short build quiet rest short some_left, if_neg fits]
        · rw [if_neg fits, amounts_cons, gap]

end

end LibN3
