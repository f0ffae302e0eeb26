import LibN3.Buffer

/-! What consume does to the bytes a RefMultiBuffer covers, in the Release build, and what its
erase pass does to the buffers. A buffer stands for the addresses of its bytes, in order. -/
namespace LibN3
open Credit

def RefBuffer.addresses (buf : RefBuffer) : List UInt64 :=
  (List.range buf.bytes).map fun i => buf.iovBase + UInt64.ofNat i

def RefMultiBuffer.addresses (m : RefMultiBuffer) : List UInt64 :=
  m.buffers.flatMap RefBuffer.addresses

/- The law of consume: the first bytes of the sequence go and the rest stays as it is. -/
def DropsPrefix (m : RefMultiBuffer) (bytes : SizeT) : Prop :=
  ∃ m', m.consume .release bytes = .ok m' ∧ m'.addresses = m.addresses.drop bytes.toNat ∧
    m'.sizeBytes = m.sizeBytes - bytes

theorem length_addresses (buf : RefBuffer) : buf.addresses.length = buf.bytes := by
  simp [RefBuffer.addresses]

theorem bytesOf_eq_length (m : RefMultiBuffer) : bytesOf m.buffers = m.addresses.length :=
  (length_flatMap length_addresses m.buffers).symm

/-- The bytes dropped are counted off the size. -/
theorem sizeBytes_of_drop {m m' : RefMultiBuffer} {bytes : SizeT}
    (fits : bytesOf m.buffers < 2 ^ 64)
    (within : bytes ≤ m.sizeBytes) (dropped : m'.addresses = m.addresses.drop bytes.toNat) :
    m'.sizeBytes = m.sizeBytes - bytes := by
  have less : bytesOf m'.buffers = bytesOf m.buffers - bytes.toNat := by
    rw [bytesOf_eq_length, dropped, List.length_drop, ← bytesOf_eq_length]
  apply UInt64.toNat_inj.mp
  rw [sub_toNat (UInt64.le_iff_toNat_le.mp within), sizeBytes_toNat, sizeBytes_toNat, less,
    Nat.mod_eq_of_lt fits, Nat.mod_eq_of_lt (by omega)]

/-- consume erases whole buffers and trims none, so it drops a prefix exactly when the
bytes asked for end on a boundary between buffers. -/
theorem consume_drops_prefix_iff (m : RefMultiBuffer) (bytes : SizeT)
    (fits : bytesOf m.buffers < 2 ^ 64) (within : bytes ≤ m.sizeBytes) :
    DropsPrefix m bytes ↔ ∃ k, bytesOf (m.buffers.take k) = bytes.toNat := by
  have covered : bytes.toNat ≤ bytesOf m.buffers :=
    (UInt64.le_iff_toNat_le.mp within).trans (sizeBytes_le m)
  have boundary := flatMap_survivors_iff length_addresses covered
  have erased := consume_release m bytes
  constructor
  · rintro ⟨m', returns, dropped, _⟩
    rw [erased] at returns
    cases returns
    exact boundary.mp dropped
  · intro ends
    have dropped := boundary.mpr ends
    exact ⟨_, erased, dropped, sizeBytes_of_drop fits within dropped⟩

theorem consume_drops_two_of_three :
    DropsPrefix ⟨[.mk 0x1000 2, .mk 0x2000 0, .mk 0x3000 1]⟩ 2 :=
  (consume_drops_prefix_iff _ 2 (by decide) (by decide)).mpr ⟨1, rfl⟩

theorem consume_keeps_consumed_byte :
    ¬ ∀ m bytes, bytesOf m.buffers < 2 ^ 64 → bytes ≤ m.sizeBytes → DropsPrefix m bytes := by
  intro claim
  obtain ⟨m', returns, _, size⟩ := claim ⟨[.mk 0x1000 2]⟩ 1 (by decide) (by decide)
  cases returns
  exact absurd size (by decide)

theorem eraseIf_append {S A : Type} (pred : S → A → Bool × S) (s : S) (as bs : List A) :
    eraseIf pred s (as ++ bs) =
      ((eraseIf pred s as).1 ++ (eraseIf pred (eraseIf pred s as).2 bs).1,
        (eraseIf pred (eraseIf pred s as).2 bs).2) := by
  induction as generalizing s with
  | nil => rfl
  | cons a rest ih =>
    simp only [List.cons_append, eraseIf, ih]
    split <;> rfl

/-- The sum that the pass keeps, after its first i visits. -/
def sumAfter (bytes : SizeT) (bufs : List RefBuffer) (i : ℕ) : SizeT :=
  (eraseIf (shouldErase bytes) 0 (bufs.take i)).2

/- Where the first i buffers end in the sequence of bytes. -/
def endOf (bufs : List RefBuffer) (i : ℕ) : ℕ := bytesOf (bufs.take i)

/-- The sum counts the bytes visited up to those asked for, and what is kept are the buffers
that are not empty and end past these. -/
structure SelectsBuffers (bytes : SizeT) (bufs : List RefBuffer) : Prop where
  visits : ∀ i (inside : i < bufs.length),
    sumAfter bytes bufs (i + 1) = (shouldErase bytes (sumAfter bytes bufs i) bufs[i]).2
  sums : ∀ i, (sumAfter bytes bufs i).toNat = min bytes.toNat (endOf bufs i)
  no_wrap : ∀ i, (bytes - sumAfter bytes bufs i).toNat =
    bytes.toNat - (sumAfter bytes bufs i).toNat ∧ sumAfter bytes bufs i ≤ bytes
  all_asked : (eraseIf (shouldErase bytes) 0 bufs).2 = bytes
  kept : (eraseIf (shouldErase bytes) 0 bufs).1 =
    ((List.finRange bufs.length).filter fun i : Fin bufs.length =>
      decide (0 < bufs[i].bytes ∧ bytes.toNat < endOf bufs (i + 1))).map bufs.get

section pass

variable (bytes : SizeT) (bufs : List RefBuffer)

theorem sumAfter_succ {i : ℕ} (inside : i < bufs.length) :
    sumAfter bytes bufs (i + 1) = (shouldErase bytes (sumAfter bytes bufs i) bufs[i]).2 := by
  have visited : bufs.take (i + 1) = bufs.take i ++ [bufs[i]] :=
    List.take_succ_eq_append_getElem inside
  rw [sumAfter, visited, eraseIf_append]
  rfl

theorem sumAfter_toNat (i : ℕ) :
    (sumAfter bytes bufs i).toNat = min bytes.toNat (endOf bufs i) := by
  rw [sumAfter, (erase_pass ⟨bufs.take i⟩ bytes).2, min_comm]
  rfl

theorem sumAfter_le (i : ℕ) : (sumAfter bytes bufs i).toNat ≤ bytes.toNat := by
  rw [sumAfter_toNat]
  exact Nat.min_le_left _ _

end pass

theorem erase_pass_selects_buffers (bytes : SizeT) (bufs : List RefBuffer)
    (within : bytes.toNat ≤ bytesOf bufs) : SelectsBuffers bytes bufs where
  visits i inside := sumAfter_succ bytes bufs inside
  sums := sumAfter_toNat bytes bufs
  no_wrap i := by
    have below := sumAfter_le bytes bufs i
    exact ⟨sub_toNat below, UInt64.le_iff_toNat_le.mpr below⟩
  all_asked := by
    apply UInt64.toNat_inj.mp
    rw [(erase_pass ⟨bufs⟩ bytes).2]
    exact Nat.min_eq_right within
  kept := by
    have by_position := survivors_eq_past RefBuffer.bytes 0 bytes.toNat bufs
    unfold past at by_position
    simp only [Nat.zero_add] at by_position
    rw [(erase_pass ⟨bufs⟩ bytes).1]
    exact by_position

theorem four_of_five_selected :
    SelectsBuffers 4 [.mk 0x1000 3, .mk 0x2000 0, .mk 0x3000 2] :=
  erase_pass_selects_buffers 4 _ (by decide)

end LibN3
