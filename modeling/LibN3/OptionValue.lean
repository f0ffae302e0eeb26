import LibN3.Consume
import LibN3.Syscalls

/-! getsockopt of syscalls.h over the memory of its caller, and a kernel that copies what it
holds of an option there, as far as the length that it is given goes. -/
namespace LibN3.Linux
open Error

abbrev Memory := UInt64 → UInt8

def Memory.store (memory : Memory) (base : UInt64) (bytes : List UInt8) : Memory :=
  fun a => bytes.getD (a - base).toNat (memory a)

abbrev Options := Handle → Int32 → Int32 → Except Int32 (List UInt8)

/-- ::getsockopt stores the bytes that fit and tells how many these are. -/
def Options.getsockopt (held : Options) (sock : Handle) (level option : Int32) (optval : UInt64)
    (optlen : UInt32) (memory : Memory) : Except Int32 UInt32 × Memory :=
  match held sock level option with
  | .error errno => (.error errno, memory)
  | .ok value =>
    let copied := value.take optlen.toNat
    (.ok (UInt32.ofNat copied.length), memory.store optval copied)

def getsockoptIn (build : Build) (held : Options) (sock : Handle) (level option : Int32)
    (optionBuf : RefBuffer) (memory : Memory) : Except Halt (Expected RefBuffer × Memory) :=
  getsockoptOver build (held.getsockopt sock level option) level option optionBuf memory

def contents (memory : Memory) (buf : RefBuffer) : List UInt8 := buf.addresses.map memory

theorem contents_store (memory : Memory) (buf : RefBuffer) {bytes : List UInt8}
    (fits : bytes.length = buf.bytes) : contents (memory.store buf.iovBase bytes) buf = bytes := by
  apply List.ext_getElem
  · rw [contents, List.length_map, length_addresses, fits]
  · intro i _ inside
    have below : i < buf.bytes := fits ▸ inside
    have offset : (UInt64.ofNat i).toNat = i :=
      UInt64.toNat_ofNat_of_lt' (Nat.lt_trans below buf.iovLen.toNat_lt)
    simp only [contents, RefBuffer.addresses, List.getElem_map, List.getElem_range]
    rw [Memory.store, UInt64.add_comm, UInt64.add_sub_cancel, offset]
    simp [inside]

/-- Asked for all of it, the kernel would store the whole value. -/
theorem whole_value_stored (held : Options) {sock : Handle} {level option : Int32}
    {value : List UInt8} (value_held : held sock level option = .ok value) (buf : RefBuffer)
    {optlen : UInt32} (enough : value.length ≤ optlen.toNat) (memory : Memory) :
    ∃ stored memory', held.getsockopt sock level option buf.iovBase optlen memory =
        (.ok stored, memory') ∧ contents memory' (buf.first stored) = value := by
  have fits : value.length = (buf.first (UInt32.ofNat value.length)).bytes := by
    have count : (UInt32.ofNat value.length).toNat = value.length :=
      UInt32.toNat_ofNat_of_lt' (Nat.lt_of_le_of_lt enough optlen.toNat_lt)
    rw [RefBuffer.first, RefBuffer.bytes, RefBuffer.size, UInt32.toNat_toUInt64, count]
  refine ⟨_, _, ?_, contents_store memory _ fits⟩
  simp only [Options.getsockopt, value_held, List.take_of_length_le enough]
  rfl

/-- A buffer that is too small is refused and left as it is, and otherwise what is returned
starts where the buffer does and holds the value. -/
structure ReturnsValue (build : Build) (held : Options) (sock : Handle) (level option : Int32)
    (needed : SizeT) (optionBuf : RefBuffer) (memory : Memory) : Prop where
  small : optionBuf.size < needed →
    getsockoptIn build held sock level option optionBuf memory =
      .ok (.error (.posix .einval), memory)
  large : ¬ optionBuf.size < needed → ∀ value, held sock level option = .ok value →
    ∃ span memory', getsockoptIn build held sock level option optionBuf memory =
      .ok (.ok span, memory') ∧ span.iovBase = optionBuf.iovBase ∧ contents memory' span = value

section getsockopt

variable (build : Build) (held : Options) (sock : Handle) {level option : Int32} {needed : SizeT}
  (optionBuf : RefBuffer) (memory : Memory)

theorem getsockoptIn_outcome (kernel : Kernel)
    (answers : kernel (.getsockopt sock level option optionBuf.iovBase 0) =
      (held.getsockopt sock level option optionBuf.iovBase 0 memory).1) :
    (getsockoptIn build held sock level option optionBuf memory).map Prod.fst =
      getsockopt build kernel sock level option optionBuf := by
  cases supported : getSockoptSize level option with
  | error halt =>
    rw [getsockoptIn, getsockoptOver_unsupported build _ _ supported,
      getsockopt_unsupported build kernel sock supported]
    rfl
  | ok needed =>
    by_cases small : optionBuf.size < needed
    · rw [getsockoptIn, getsockoptOver_small build _ _ supported small, map_fst_map,
        getsockopt_small build kernel sock supported small]
    · rw [getsockoptIn, getsockoptOver_large build _ _ supported small, map_fst_map,
        getsockopt_large build kernel sock supported small, answers]

theorem getsockoptIn_small (supported : getSockoptSize level option = .ok needed)
    (small : optionBuf.size < needed) :
    getsockoptIn build held sock level option optionBuf memory =
      .ok (.error (.posix .einval), memory) := by
  rw [getsockoptIn, getsockoptOver_small build _ _ supported small]
  rfl

theorem getsockoptIn_large (supported : getSockoptSize level option = .ok needed)
    (large : ¬ optionBuf.size < needed) {value : List UInt8}
    (value_held : held sock level option = .ok value) :
    getsockoptIn build held sock level option optionBuf memory =
      .ok (.ok (optionBuf.first 0), memory) := by
  have asked : held.getsockopt sock level option optionBuf.iovBase 0 memory = (.ok 0, memory) := by
    rw [Options.getsockopt, value_held]
    rfl
  have within : decide ((0 : UInt32).toUInt64 ≤ optionBuf.size) = true :=
    decide_eq_true (UInt64.le_iff_toNat_le.mpr (Nat.zero_le _))
  rw [getsockoptIn, getsockoptOver_large build _ _ supported large, asked]
  simp only [checked, within]
  rfl

end getsockopt

/-- The span returned is empty, so it holds the value exactly when that is empty too. -/
theorem getsockopt_returns_value_iff (build : Build) (held : Options) (sock : Handle)
    {level option : Int32} {needed : SizeT} (supported : getSockoptSize level option = .ok needed)
    (optionBuf : RefBuffer) (memory : Memory) :
    ReturnsValue build held sock level option needed optionBuf memory ↔
      optionBuf.size < needed ∨ ∀ value, held sock level option = .ok value → value = [] := by
  have empty : contents memory (optionBuf.first 0) = [] := rfl
  constructor
  · rintro ⟨_, returns⟩
    by_cases small : optionBuf.size < needed
    · exact .inl small
    · refine .inr fun value value_held => ?_
      obtain ⟨span, memory', outcome, _, holds⟩ := returns small value value_held
      rw [getsockoptIn_large build held sock optionBuf memory supported small value_held] at outcome
      cases outcome
      rw [← holds, empty]
  · intro condition
    refine ⟨getsockoptIn_small build held sock optionBuf memory supported, ?_⟩
    intro large value value_held
    rcases condition with small | none_held
    · exact absurd small large
    · refine ⟨_, _, getsockoptIn_large build held sock optionBuf memory supported large value_held,
        rfl, ?_⟩
      rw [none_held value value_held, empty]

theorem no_ip_options_returned :
    ReturnsValue .release (fun _ _ _ => .ok []) 3 IPPROTO_IP IP_OPTIONS 40 (.mk 0x1000 40)
      fun _ => 0 :=
  (getsockopt_returns_value_iff .release _ 3 rfl (.mk 0x1000 40) _).mpr
    (.inr fun _ held => (Except.ok.inj held).symm)

theorem socket_type_not_returned :
    ¬ ∀ (build : Build) (held : Options) (sock : Handle) (level option : Int32) (needed : SizeT)
      (optionBuf : RefBuffer) (memory : Memory), getSockoptSize level option = .ok needed →
      (∀ value, held sock level option = .ok value → value.length ≤ needed.toNat) →
      ReturnsValue build held sock level option needed optionBuf memory := by
  intro claim
  have holds := claim .release (fun _ _ _ => .ok [1, 0, 0, 0]) 3 SOL_SOCKET SO_TYPE 4
    (.mk 0x1000 4) (fun _ => 0) rfl (by simp)
  obtain ⟨span, memory', outcome, _, value⟩ := holds.large (by decide) _ rfl
  cases outcome
  cases value

end LibN3.Linux
