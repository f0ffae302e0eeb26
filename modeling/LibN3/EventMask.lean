import LibN3.Epoll

/-! What struct events keeps of the mask that epoll reports. A masked value is stored in
a field of one bit, and of a flag other than EPOLLIN that bit is always clear. -/
namespace LibN3

def Contains (mask flag : UInt32) : Prop := mask &&& flag ≠ 0

instance (mask flag : UInt32) : Decidable (Contains mask flag) :=
  inferInstanceAs (Decidable (¬ _ = _))

structure DecodesFaithfully (mask : UInt32) : Prop where
  in_ : (Events.ofMask mask).in_ = 1 ↔ Contains mask EPOLLIN
  out : (Events.ofMask mask).out = 1 ↔ Contains mask EPOLLOUT
  rdhup : (Events.ofMask mask).rdhup = 1 ↔ Contains mask EPOLLRDHUP
  pri : (Events.ofMask mask).pri = 1 ↔ Contains mask EPOLLPRI
  err : (Events.ofMask mask).err = 1 ↔ Contains mask EPOLLERR
  hup : (Events.ofMask mask).hup = 1 ↔ Contains mask EPOLLHUP
  has_error : (Events.ofMask mask).hasError = true ↔
    Contains mask EPOLLRDHUP ∨ Contains mask EPOLLPRI ∨ Contains mask EPOLLERR ∨
      Contains mask EPOLLHUP

theorem bitField_eq_one (value : UInt32) :
    bitField value = 1 ↔ value.toBitVec.getLsbD 0 = true := by
  constructor
  · intro one
    have low := congrArg (fun field => field.getLsbD 0) one
    simpa [bitField] using low
  · intro low
    ext i inside
    have first : i = 0 := Nat.lt_one_iff.mp inside
    subst first
    simpa [bitField] using low

theorem bitField_in (mask : UInt32) :
    bitField (mask &&& EPOLLIN) = 1 ↔ Contains mask EPOLLIN := by
  rw [bitField_eq_one]
  constructor
  · intro low zero
    rw [zero] at low
    exact absurd low (by decide)
  · intro some
    by_contra clear
    apply some
    apply UInt32.toBitVec_inj.mp
    rw [UInt32.toBitVec_and] at clear ⊢
    ext i inside
    cases i with
    | zero => simpa using clear
    | succ i => simp [EPOLLIN]

/-- A flag whose bit is not the lowest leaves nothing in a field of one bit. -/
theorem bitField_high (mask flag : UInt32) (high : flag.toBitVec.getLsbD 0 = false) :
    bitField (mask &&& flag) = 0 := by
  have low : (mask &&& flag).toBitVec.getLsbD 0 = false := by
    rw [UInt32.toBitVec_and, BitVec.getLsbD_and, high, Bool.and_false]
  ext i inside
  have first : i = 0 := Nat.lt_one_iff.mp inside
  subst first
  simpa [bitField] using low

theorem ofMask_eq (mask : UInt32) :
    Events.ofMask mask = ⟨bitField (mask &&& EPOLLIN), 0, 0, 0, 0, 0⟩ := by
  unfold Events.ofMask
  rw [bitField_high mask EPOLLOUT rfl, bitField_high mask EPOLLRDHUP rfl,
    bitField_high mask EPOLLPRI rfl, bitField_high mask EPOLLERR rfl,
    bitField_high mask EPOLLHUP rfl]

theorem hasError_ofMask (mask : UInt32) : (Events.ofMask mask).hasError = false := by
  rw [ofMask_eq]
  rfl

/-- A mask is decoded faithfully exactly when it has none of the other five flags. -/
theorem mask_decodes_iff_only_in (mask : UInt32) :
    DecodesFaithfully mask ↔
      ∀ flag ∈ [EPOLLOUT, EPOLLRDHUP, EPOLLPRI, EPOLLERR, EPOLLHUP], ¬ Contains mask flag := by
  have clear : ¬ (0 : BitVec 1) = 1 := by decide
  simp only [List.forall_mem_cons, List.not_mem_nil, false_implies, implies_true, and_true]
  constructor
  · rintro ⟨_, out, rdhup, pri, err, hup, _⟩
    rw [ofMask_eq] at out rdhup pri err hup
    exact ⟨mt out.mpr clear, mt rdhup.mpr clear, mt pri.mpr clear, mt err.mpr clear,
      mt hup.mpr clear⟩
  · rintro ⟨out, rdhup, pri, err, hup⟩
    constructor
    · exact bitField_in mask
    · rw [ofMask_eq]
      exact iff_of_false clear out
    · rw [ofMask_eq]
      exact iff_of_false clear rdhup
    · rw [ofMask_eq]
      exact iff_of_false clear pri
    · rw [ofMask_eq]
      exact iff_of_false clear err
    · rw [ofMask_eq]
      exact iff_of_false clear hup
    · rw [hasError_ofMask]
      apply iff_of_false Bool.false_ne_true
      rintro (some | some | some | some)
      · exact rdhup some
      · exact pri some
      · exact err some
      · exact hup some

theorem mask_loses_hangup : ¬ ∀ mask, DecodesFaithfully mask := by
  intro claim
  have decoded := (claim (EPOLLIN ||| EPOLLHUP)).hup
  exact absurd (decoded.mpr (by decide)) (by decide)

end LibN3
