import Mathlib.Tactic.Common
import LibN3.Credit

/-! The buffers of buffer.h, and what consume removes from their head.
A RefBuffer is an address and a length; size_t is a 64-bit word that wraps. -/
namespace LibN3
open Credit

abbrev SizeT := UInt64

/-- The CMake build type. Release defines NDEBUG and compiles assertions out. -/
inductive Build
  | debug
  | release
deriving DecidableEq

/-- What stops a call for good: an assertion that fails in the Debug build, or a
read of the front of an empty deque, which no build defines. -/
inductive Fault
  | assertion (expr : String)
  | frontOfEmpty
deriving DecidableEq

def assert (build : Build) (expr : String) (holds : Bool) : Except Fault Unit :=
  match build, holds with
  | .debug, false => .error (.assertion expr)
  | _, _ => .ok ()

@[simp] theorem assert_release (expr : String) (holds : Bool) :
    assert .release expr holds = .ok () := rfl

@[simp] theorem assert_true (build : Build) (expr : String) :
    assert build expr true = .ok () := by
  cases build <;> rfl

section words

variable {a b : SizeT}

theorem sub_toNat (le : b.toNat ≤ a.toNat) : (a - b).toNat = a.toNat - b.toNat :=
  UInt64.toNat_sub_of_le _ _ (UInt64.le_iff_toNat_le.mpr le)

theorem gt_zero (some_left : 0 < a.toNat) : a > 0 :=
  UInt64.lt_iff_toNat_lt.mpr some_left

theorem not_gt_zero (none_left : a.toNat = 0) : ¬ a > 0 := by
  intro positive
  have some_left : 0 < a.toNat := UInt64.lt_iff_toNat_lt.mp positive
  omega

theorem not_le_of_toNat (less : a.toNat < b.toNat) : ¬ b ≤ a := by
  intro le
  exact absurd (UInt64.le_iff_toNat_le.mp le) (Nat.not_le_of_lt less)

end words

@[simp] theorem ok_bind {A B : Type} (a : A) (f : A → Except Fault B) :
    (Except.ok a >>= f) = f a := rfl

@[simp] theorem error_bind {A B : Type} (fault : Fault) (f : A → Except Fault B) :
    (Except.error fault >>= f) = .error fault := rfl

/-- Each of its constructors takes what spans an object, so the length is that of one. -/
structure RefBuffer where
  iovBase : UInt64
  iovLen : SizeT
  spans : iovLen.toNat < 2 ^ 63 := by decide
deriving DecidableEq

def RefBuffer.size (buf : RefBuffer) : SizeT := buf.iovLen

theorem sub_spans {len dropped : SizeT} (spans : len.toNat < 2 ^ 63) (le : dropped ≤ len) :
    (len - dropped).toNat < 2 ^ 63 := by
  rw [sub_toNat (UInt64.le_iff_toNat_le.mp le)]
  omega

/-- as_span() | std::views::drop(n), made a RefBuffer again. The view never drops
more than the span holds. -/
def RefBuffer.drop (buf : RefBuffer) (n : SizeT) : RefBuffer :=
  if le : n ≤ buf.size then ⟨buf.iovBase + n, buf.size - n, sub_spans buf.spans le⟩
  else ⟨buf.iovBase + buf.size, 0, by decide⟩

theorem first_spans (n : UInt32) : n.toUInt64.toNat < 2 ^ 63 := by
  rw [UInt32.toNat_toUInt64]
  exact Nat.lt_trans n.toNat_lt (by decide)

/-- as_span().first(n), for an n within it. -/
def RefBuffer.first (buf : RefBuffer) (n : UInt32) : RefBuffer :=
  ⟨buf.iovBase, n.toUInt64, first_spans n⟩

@[simp] theorem RefBuffer.drop_zero (buf : RefBuffer) : buf.drop 0 = buf := by
  simp [RefBuffer.drop, RefBuffer.size]

structure RefMultiBuffer where
  buffers : List RefBuffer
deriving DecidableEq

namespace RefMultiBuffer

def size (m : RefMultiBuffer) : SizeT := UInt64.ofNat m.buffers.length

/-- fold_left over the sizes with std::plus<size_t>, which wraps. -/
def sizeBytes (m : RefMultiBuffer) : SizeT :=
  (m.buffers.map RefBuffer.size).foldl (· + ·) 0

def pushBack (m : RefMultiBuffer) (buf : RefBuffer) : RefMultiBuffer := ⟨m.buffers ++ [buf]⟩

def extend (m multi : RefMultiBuffer) : RefMultiBuffer := ⟨m.buffers ++ multi.buffers⟩

end RefMultiBuffer

/-- std::erase_if over a vector with a predicate that keeps state, asked about each
element once and in order. -/
def eraseIf {S A : Type} (pred : S → A → Bool × S) : S → List A → List A × S
  | s, [] => ([], s)
  | s, a :: rest =>
    let answer := pred s a
    let tail := eraseIf pred answer.2 rest
    (if answer.1 then tail.1 else a :: tail.1, tail.2)

/-- The lambda consume hands to erase_if: its verdict on a buffer, and the new sum. -/
def shouldErase (bytes sum : SizeT) (buf : RefBuffer) : Bool × SizeT :=
  let remaining := bytes - sum
  let verdict := decide (buf.size ≤ remaining)
  (verdict, sum + if verdict then buf.size else remaining)

def RefMultiBuffer.consume (build : Build) (m : RefMultiBuffer) (bytes : SizeT) :
    Except Fault RefMultiBuffer := do
  assert build "bytes <= this->size_bytes()" (bytes ≤ m.sizeBytes)
  let (kept, sum) := eraseIf (shouldErase bytes) 0 m.buffers
  assert build "sum <= bytes" (sum ≤ bytes)
  match kept with
  | [] =>
    assert build "sum == bytes" (sum = bytes)
    return ⟨[]⟩
  | headBuffer :: rest =>
    let remaining := bytes - sum
    assert build "remaining > 0" (remaining > 0)
    assert build "head_buffer.size() > remaining" (headBuffer.size > remaining)
    return ⟨headBuffer.drop remaining :: rest⟩

def RefBuffer.bytes (buf : RefBuffer) : ℕ := buf.size.toNat

@[simp] theorem RefBuffer.size_toNat (buf : RefBuffer) : buf.size.toNat = buf.bytes := rfl

def bytesOf (bufs : List RefBuffer) : ℕ := weight RefBuffer.bytes bufs

@[simp] theorem bytesOf_nil : bytesOf [] = 0 := rfl

@[simp] theorem bytesOf_cons (buf : RefBuffer) (bufs : List RefBuffer) :
    bytesOf (buf :: bufs) = buf.bytes + bytesOf bufs :=
  weight_cons RefBuffer.bytes buf bufs

@[simp] theorem bytesOf_append (bufs more : List RefBuffer) :
    bytesOf (bufs ++ more) = bytesOf bufs + bytesOf more :=
  weight_append RefBuffer.bytes bufs more

theorem fold_size_toNat (bufs : List RefBuffer) (start : SizeT) :
    ((bufs.map RefBuffer.size).foldl (· + ·) start).toNat =
      (start.toNat + bytesOf bufs) % 2 ^ 64 := by
  induction bufs generalizing start with
  | nil => exact (Nat.mod_eq_of_lt start.toNat_lt).symm
  | cons buf bufs ih =>
    rw [List.map_cons, List.foldl_cons, ih, UInt64.toNat_add, RefBuffer.size_toNat, bytesOf_cons,
      Nat.mod_add_mod, Nat.add_assoc]

theorem sizeBytes_toNat (m : RefMultiBuffer) :
    m.sizeBytes.toNat = bytesOf m.buffers % 2 ^ 64 := by
  simpa [RefMultiBuffer.sizeBytes] using fold_size_toNat m.buffers 0

theorem sizeBytes_le (m : RefMultiBuffer) : m.sizeBytes.toNat ≤ bytesOf m.buffers := by
  rw [sizeBytes_toNat]
  exact Nat.mod_le _ _

theorem sizeBytes_singleton (buf : RefBuffer) : RefMultiBuffer.sizeBytes ⟨[buf]⟩ = buf.size := by
  simp [RefMultiBuffer.sizeBytes]

theorem half_spans (n : SizeT) : (n / 2).toNat < 2 ^ 63 := by
  have room := n.toNat_lt
  rw [UInt64.toNat_div]
  change n.toNat / 2 < 2 ^ 63
  omega

theorem odd_spans (n : SizeT) : (n % 2).toNat < 2 ^ 63 := by
  rw [UInt64.toNat_mod]
  exact Nat.lt_trans (Nat.mod_lt _ (by decide)) (by decide)

/- Buffers of any number of bytes that a word can count. One alone has fewer than that. -/
def RefMultiBuffer.spanning (n : SizeT) : RefMultiBuffer :=
  ⟨[⟨0, n / 2, half_spans n⟩, ⟨0, n / 2, half_spans n⟩, ⟨0, n % 2, odd_spans n⟩]⟩

theorem bytesOf_spanning (n : SizeT) : bytesOf (RefMultiBuffer.spanning n).buffers = n.toNat := by
  have half : (n / 2).toNat = n.toNat / 2 := UInt64.toNat_div n 2
  have odd : (n % 2).toNat = n.toNat % 2 := UInt64.toNat_mod n 2
  simp only [RefMultiBuffer.spanning, bytesOf_cons, bytesOf_nil, RefBuffer.bytes, RefBuffer.size,
    half, odd]
  omega

theorem sizeBytes_spanning (n : SizeT) : (RefMultiBuffer.spanning n).sizeBytes = n := by
  rw [← UInt64.toNat_inj, sizeBytes_toNat, bytesOf_spanning]
  exact Nat.mod_eq_of_lt n.toNat_lt

theorem shouldErase_spec (bytes sum : SizeT) (buf : RefBuffer) (below : sum ≤ bytes) :
    (shouldErase bytes sum buf).1 = decide (buf.bytes ≤ bytes.toNat - sum.toNat) ∧
      (shouldErase bytes sum buf).2.toNat =
        sum.toNat + min buf.bytes (bytes.toNat - sum.toNat) := by
  have order : sum.toNat ≤ bytes.toNat := UInt64.le_iff_toNat_le.mp below
  have gap := sub_toNat order
  have room := bytes.toNat_lt
  have verdict : (buf.size ≤ bytes - sum) ↔ buf.bytes ≤ bytes.toNat - sum.toNat := by
    rw [UInt64.le_iff_toNat_le, gap]
    exact Iff.rfl
  refine ⟨decide_eq_decide.mpr verdict, ?_⟩
  simp only [shouldErase, decide_eq_true_eq, verdict]
  split
  · rename_i fits
    rw [UInt64.toNat_add, RefBuffer.size_toNat, Nat.mod_eq_of_lt (by omega), min_eq_left fits]
  · rename_i exceeds
    rw [UInt64.toNat_add, gap, Nat.mod_eq_of_lt (by omega), min_eq_right (by omega)]

/-- The erase pass keeps exactly the survivors of the bytes asked for, and its
running sum ends at the smaller of those bytes and the total. -/
theorem eraseIf_spec (bytes sum : SizeT) (bufs : List RefBuffer) (below : sum ≤ bytes) :
    (eraseIf (shouldErase bytes) sum bufs).1 =
        survivors RefBuffer.bytes (bytes.toNat - sum.toNat) bufs ∧
      (eraseIf (shouldErase bytes) sum bufs).2.toNat =
        sum.toNat + min (bytesOf bufs) (bytes.toNat - sum.toNat) := by
  induction bufs generalizing sum with
  | nil => simp [eraseIf, survivors]
  | cons buf bufs ih =>
    obtain ⟨verdict, next⟩ := shouldErase_spec bytes sum buf below
    have order : sum.toNat ≤ bytes.toNat := UInt64.le_iff_toNat_le.mp below
    have below' : (shouldErase bytes sum buf).2 ≤ bytes := by
      rw [UInt64.le_iff_toNat_le, next]
      omega
    obtain ⟨kept, final⟩ := ih _ below'
    simp only [eraseIf, verdict, decide_eq_true_eq, survivors, bytesOf_cons]
    constructor
    · split
      · rename_i fits
        rw [kept, next, min_eq_left fits, Nat.sub_add_eq]
      · rename_i exceeds
        have spent : bytes.toNat - (sum.toNat + min buf.bytes (bytes.toNat - sum.toNat)) = 0 := by
          omega
        rw [kept, next, spent]
    · rw [final, next]
      omega

theorem erase_pass (m : RefMultiBuffer) (bytes : SizeT) :
    (eraseIf (shouldErase bytes) 0 m.buffers).1 =
        survivors RefBuffer.bytes bytes.toNat m.buffers ∧
      (eraseIf (shouldErase bytes) 0 m.buffers).2.toNat =
        min (bytesOf m.buffers) bytes.toNat := by
  have least : (0 : SizeT) ≤ bytes := UInt64.le_iff_toNat_le.mpr (Nat.zero_le _)
  simpa using eraseIf_spec bytes 0 m.buffers least

/-- A kept buffer has used up the whole budget, so nothing remains to trim by. -/
theorem sum_of_kept (m : RefMultiBuffer) (bytes : SizeT)
    (kept : survivors RefBuffer.bytes bytes.toNat m.buffers ≠ []) :
    (eraseIf (shouldErase bytes) 0 m.buffers).2 = bytes := by
  have exceeds : ¬ bytesOf m.buffers ≤ bytes.toNat :=
    fun h => kept ((survivors_eq_nil _ _ _).mpr h)
  apply UInt64.toNat_inj.mp
  rw [(erase_pass m bytes).2]
  omega

/-- In the Release build consume is the erase pass and nothing else: the trim of the
head buffer drops no byte, whatever is asked for. -/
theorem consume_release (m : RefMultiBuffer) (bytes : SizeT) :
    m.consume .release bytes =
      .ok ⟨survivors RefBuffer.bytes bytes.toNat m.buffers⟩ := by
  unfold RefMultiBuffer.consume
  simp only [assert_release, ok_bind, (erase_pass m bytes).1]
  split
  · rename_i none
    rw [none]
    rfl
  · rename_i headBuffer rest some
    have spent := sum_of_kept m bytes (by rw [some]; exact List.cons_ne_nil _ _)
    rw [spent, some, UInt64.sub_self, RefBuffer.drop_zero]
    rfl

theorem consume_debug_all (m : RefMultiBuffer) (bytes : SizeT)
    (all : bytesOf m.buffers = bytes.toNat) : m.consume .debug bytes = .ok ⟨[]⟩ := by
  have reported : decide (bytes ≤ m.sizeBytes) = true := by
    rw [decide_eq_true_eq, UInt64.le_iff_toNat_le, sizeBytes_toNat, all]
    exact Nat.le_of_eq (Nat.mod_eq_of_lt bytes.toNat_lt).symm
  have none : survivors RefBuffer.bytes bytes.toNat m.buffers = [] :=
    (survivors_eq_nil _ _ _).mpr (Nat.le_of_eq all)
  have spent : (eraseIf (shouldErase bytes) 0 m.buffers).2 = bytes := by
    apply UInt64.toNat_inj.mp
    rw [(erase_pass m bytes).2]
    omega
  have below : decide (bytes ≤ bytes) = true := decide_eq_true (UInt64.le_refl bytes)
  unfold RefMultiBuffer.consume
  simp only [reported, assert_true, ok_bind, (erase_pass m bytes).1, none, spent, below]
  rfl

/-- And by nothing less: a buffer that is kept leaves no byte to trim it by. -/
theorem consume_debug_less (m : RefMultiBuffer) (bytes : SizeT)
    (less : bytes.toNat < bytesOf m.buffers) : ∃ fault, m.consume .debug bytes = .error fault := by
  have kept : survivors RefBuffer.bytes bytes.toNat m.buffers ≠ [] :=
    fun none => absurd ((survivors_eq_nil _ _ _).mp none) (Nat.not_le_of_lt less)
  have below : decide (bytes ≤ bytes) = true := decide_eq_true (UInt64.le_refl bytes)
  unfold RefMultiBuffer.consume
  cases reported : decide (bytes ≤ m.sizeBytes) with
  | false => exact ⟨_, rfl⟩
  | true =>
    simp only [assert_true, ok_bind, (erase_pass m bytes).1, sum_of_kept m bytes kept, below]
    split
    · rename_i none
      exact absurd none kept
    · simp only [UInt64.sub_self]
      exact ⟨_, rfl⟩

end LibN3
