import LibN3.Address
import LibN3.Halves

/-! to_sockaddr of address.h, and the round trips between addresses and what it makes. A
sockaddr_in or sockaddr_in6 lies at the start of a sockaddr_storage. -/
namespace LibN3.Net
open Halves SockaddrStorage

namespace SockaddrStorage

def write (s : SockaddrStorage) (start : ℕ) (bytes : List UInt8) : SockaddrStorage :=
  ⟨fun i => if start ≤ i then bytes.getD (i - start) (s.byte i) else s.byte i⟩

section write

variable (s : SockaddrStorage) {start : ℕ} {bytes : List UInt8}

theorem byte_write {i : Fin 128} (after : start ≤ i) :
    (s.write start bytes).byte i = bytes.getD (i - start) (s.byte i) :=
  if_pos after

theorem byte_write_other {i : Fin 128} (outside : (i : ℕ) < start ∨ start + bytes.length ≤ i) :
    (s.write start bytes).byte i = s.byte i := by
  rcases outside with before | past
  · exact if_neg (Nat.not_le_of_lt before)
  · have beyond : bytes.length ≤ (i : ℕ) - start := by
      omega
    rw [byte_write s (by omega), List.getD_eq_getElem?_getD, List.getElem?_eq_none beyond]
    rfl

theorem u16_write_other {i : Fin 127}
    (outside : (i : ℕ) + 1 < start ∨ start + bytes.length ≤ i) :
    (s.write start bytes).u16 i = s.u16 i := by
  have first : (i.castSucc : ℕ) < start ∨ start + bytes.length ≤ (i.castSucc : ℕ) := by
    rw [Fin.val_castSucc]
    omega
  have second : (i.succ : ℕ) < start ∨ start + bytes.length ≤ (i.succ : ℕ) := by
    rw [Fin.val_succ]
    omega
  rw [u16, byte_write_other s first, byte_write_other s second, u16]

theorem u16_write (i : Fin 127) (v : UInt16) : (s.write i (bytes16 v)).u16 i = v := by
  have first : (s.write i (bytes16 v)).byte i.castSucc = v.toUInt8 := by
    rw [byte_write s (i.val_castSucc.ge), Fin.val_castSucc, Nat.sub_self]
    rfl
  have second : (s.write i (bytes16 v)).byte i.succ = (v >>> 8).toUInt8 := by
    rw [byte_write s (i.val_succ.ge.trans' (Nat.le_succ _)), Fin.val_succ, Nat.add_sub_cancel_left]
    rfl
  rw [u16, first, second, join16]

theorem write_append (start : ℕ) (first second : List UInt8) :
    s.write start (first ++ second) =
      (s.write start first).write (start + first.length) second := by
  have same (i : Fin 128) : (s.write start (first ++ second)).byte i =
      ((s.write start first).write (start + first.length) second).byte i := by
    by_cases past : start + first.length ≤ i
    · have inside : (i : ℕ) - start - first.length = i - (start + first.length) := by
        omega
      have kept : (s.write start first).byte i = s.byte i := byte_write_other s (.inr past)
      rw [byte_write s (by omega), byte_write _ past, kept, List.getD_eq_getElem?_getD,
        List.getElem?_append_right (by omega), inside, List.getD_eq_getElem?_getD]
    · rw [byte_write_other _ (.inl (Nat.lt_of_not_le past))]
      by_cases after : start ≤ i
      · rw [byte_write s after, byte_write s after, List.getD_eq_getElem?_getD,
          List.getElem?_append_left (by omega), List.getD_eq_getElem?_getD]
      · rw [byte_write_other s (.inl (by omega)), byte_write_other s (.inl (by omega))]
  exact congrArg SockaddrStorage.mk (funext same)

theorem u32_write (i : Fin 125) (v : UInt32) : (s.write i (bytes32 v)).u32 i = v := by
  have low : (s.write i (bytes32 v)).u16 (i.castLE (by decide)) = v.toUInt16 := by
    rw [bytes32, write_append, u16_write_other _ (.inl (by simp [bytes16]))]
    exact u16_write s (i.castLE (by decide)) v.toUInt16
  have high : (s.write i (bytes32 v)).u16 (i.addNat 2) = (v >>> 16).toUInt16 := by
    rw [bytes32, write_append]
    exact u16_write _ (i.addNat 2) (v >>> 16).toUInt16
  rw [u32, low, high, join32]

theorem u32_write_other {i : Fin 125}
    (outside : (i : ℕ) + 3 < start ∨ start + bytes.length ≤ i) :
    (s.write start bytes).u32 i = s.u32 i := by
  rw [u32, u16_write_other s, u16_write_other s, u32]
  · rw [Fin.val_addNat]
    omega
  · rw [Fin.val_castLE]
    omega

end write

end SockaddrStorage

/-- The local variable out is not initialised: it is what happens to be there. -/
def V4Address.toSockaddr (a : V4Address) (out : SockaddrStorage) : SockaddrStorage :=
  ((out.write 0 (bytes16 AF_INET)).write 2 (bytes16 a.port)).write 4 (bytes32 a.addr)

/-- Neither flowinfo nor scope_id is assigned to out. -/
def V6Address.toSockaddr (a : V6Address) (out : SockaddrStorage) : SockaddrStorage :=
  ((out.write 0 (bytes16 AF_INET6)).write 2 (bytes16 a.port)).write 8 a.addr.toList

def Address.toSockaddr (out : SockaddrStorage) : Address → SockaddrStorage
  | .v4 a => a.toSockaddr out
  | .v6 a => a.toSockaddr out

section fields

variable (out : SockaddrStorage)

theorem family_port_write (family port : UInt16) {start : ℕ} (behind : 4 ≤ start)
    (bytes : List UInt8) :
    (((out.write 0 (bytes16 family)).write 2 (bytes16 port)).write start bytes).ssFamily = family ∧
      (((out.write 0 (bytes16 family)).write 2 (bytes16 port)).write start bytes).sinPort =
        port := by
  have family_before : ((0 : Fin 127) : ℕ) + 1 < start := Nat.lt_of_lt_of_le (by decide) behind
  have port_before : ((2 : Fin 127) : ℕ) + 1 < start := Nat.lt_of_lt_of_le (by decide) behind
  constructor
  · rw [ssFamily, u16_write_other _ (.inl family_before), u16_write_other _ (.inl (by decide))]
    exact u16_write out 0 family
  · rw [sinPort, u16_write_other _ (.inl port_before)]
    exact u16_write _ 2 port

theorem toSockaddr_v4 (a : V4Address) :
    (a.toSockaddr out).ssFamily = AF_INET ∧ (a.toSockaddr out).sinPort = a.port ∧
      (a.toSockaddr out).sinAddr = a.addr := by
  obtain ⟨family, port⟩ := family_port_write out AF_INET a.port (Nat.le_refl 4) (bytes32 a.addr)
  exact ⟨family, port, u32_write _ 4 a.addr⟩

theorem toSockaddr_v6 (a : V6Address) :
    (a.toSockaddr out).ssFamily = AF_INET6 ∧ (a.toSockaddr out).sinPort = a.port ∧
      (a.toSockaddr out).sin6Addr = a.addr := by
  obtain ⟨family, port⟩ :=
    family_port_write out AF_INET6 a.port (Nat.le_add_right 4 4) a.addr.toList
  refine ⟨family, port, ?_⟩
  ext i inside
  have position : (((⟨i, inside⟩ : Fin 16).natAdd 8).castLE (by decide) : Fin 128) =
      (8 + i : ℕ) := rfl
  simp only [V6Address.toSockaddr, sin6Addr, Vector.getElem_ofFn]
  rw [byte_write _ (by simp), position]
  simp [inside]

theorem toSockaddr_v6_unset (a : V6Address) :
    (a.toSockaddr out).sin6Flowinfo = out.sin6Flowinfo ∧
      (a.toSockaddr out).sin6ScopeId = out.sin6ScopeId := by
  have size : a.addr.toList.length = 16 := a.addr.length_toList
  constructor
  · rw [V6Address.toSockaddr, sin6Flowinfo, u32_write_other _ (.inl (by decide)),
      u32_write_other _ (.inr (Nat.le_refl 4)), u32_write_other _ (.inr (by decide)),
      sin6Flowinfo]
  · rw [V6Address.toSockaddr, sin6ScopeId, u32_write_other _ (.inr (by rw [size]; decide)),
      u32_write_other _ (.inr (Nat.le_add_right 4 20)), u32_write_other _ (.inr (by decide)),
      sin6ScopeId]

end fields

structure SameSockaddr (s t : SockaddrStorage) : Prop where
  family : t.ssFamily = s.ssFamily
  port : t.sinPort = s.sinPort
  v4 : s.ssFamily = AF_INET → t.sinAddr = s.sinAddr
  v6 : s.ssFamily = AF_INET6 → t.sin6Addr = s.sin6Addr ∧ t.sin6Flowinfo = s.sin6Flowinfo ∧
    t.sin6ScopeId = s.sin6ScopeId

/- There and back, whatever was in the memory of the sockaddr that is made. -/
def SockaddrStorage.Survives (s : SockaddrStorage) : Prop :=
  ∃ address, sockaddrToAddress s = .ok address ∧ ∀ out, SameSockaddr s (address.toSockaddr out)

def Address.Survives (a : Address) : Prop :=
  ∀ out, sockaddrToAddress (a.toSockaddr out) = .ok a

/- An address with none of what only a v6 address has beside its bytes and port. -/
def Address.Plain : Address → Prop
  | .v4 _ => True
  | .v6 a => a.flowinfo = 0 ∧ a.scopeId = 0

/- No constructor makes any other. -/
theorem plain_of_readFrom {s : SockaddrStorage} {a : Address} (read : a.ReadFrom s) : a.Plain := by
  cases a with
  | v4 a => trivial
  | v6 a => exact read.2.2.2

theorem sockaddr_survives_iff {s : SockaddrStorage} (inet : s.Inet) :
    s.Survives ↔ s.ssFamily = AF_INET := by
  constructor
  · rintro ⟨address, converted, same⟩
    rcases inet with v4 | v6
    · exact v4
    · rw [sockaddrToAddress_v6 v6] at converted
      cases converted
      -- The field is left to the memory, and two memories differ there.
      have zeros := ((same .zero).v6 v6).2.1
      have ones := ((same ⟨fun _ => 255⟩).v6 v6).2.1
      rw [Address.toSockaddr, (toSockaddr_v6_unset _ _).1] at zeros ones
      exact absurd (zeros.trans ones.symm) (by decide)
  · intro v4
    have other : s.ssFamily ≠ AF_INET6 := fun v6 => v4_ne_v6 (v4.symm.trans v6)
    refine ⟨_, sockaddrToAddress_v4 v4, fun out => ?_⟩
    obtain ⟨family, port, addr⟩ := toSockaddr_v4 out ⟨s.sinAddr, s.sinPort⟩
    exact ⟨family.trans v4.symm, port, fun _ => addr, fun v6 => absurd v6 other⟩

theorem address_survives_iff (a : Address) : a.Survives ↔ a.Plain := by
  cases a with
  | v4 a =>
    refine iff_of_true (fun out => ?_) trivial
    obtain ⟨family, port, addr⟩ := toSockaddr_v4 out a
    rw [Address.toSockaddr, sockaddrToAddress_v4 family, port, addr]
  | v6 a =>
    have back (out : SockaddrStorage) : sockaddrToAddress ((Address.v6 a).toSockaddr out) =
        .ok (.v6 ⟨a.addr, 0, 0, a.port⟩) := by
      obtain ⟨family, port, addr⟩ := toSockaddr_v6 out a
      rw [Address.toSockaddr, sockaddrToAddress_v6 family, port, addr]
    constructor
    · intro survives
      have same := (back .zero).symm.trans (survives .zero)
      have fields := Address.v6.inj (Except.ok.inj same)
      exact ⟨(congrArg V6Address.flowinfo fields).symm, (congrArg V6Address.scopeId fields).symm⟩
    · intro plain
      obtain ⟨addr, flowinfo, scope_id, port⟩ := a
      cases plain.1
      cases plain.2
      exact back

/-- A v4 address survives either way round. A v6 address is given no flowinfo and no scope_id,
and leaves those of a sockaddr to chance. -/
theorem round_trips_iff {s : SockaddrStorage} (inet : s.Inet) (a : Address) :
    (s.Survives ↔ s.ssFamily = AF_INET) ∧ (a.Survives ↔ a.Plain) :=
  ⟨sockaddr_survives_iff inet, address_survives_iff a⟩

theorem v4_round_trips :
    (⟨fun i => if i = 0 then 2 else 0⟩ : SockaddrStorage).Survives ∧
      (Address.v6 ⟨.replicate 16 0, 0, 0, 80⟩).Survives :=
  have trips := round_trips_iff (s := ⟨fun i => if i = 0 then 2 else 0⟩) (.inl rfl)
    (.v6 ⟨.replicate 16 0, 0, 0, 80⟩)
  ⟨trips.1.mpr rfl, trips.2.mpr ⟨rfl, rfl⟩⟩

/- fe80::1, port 80, and the interface 2 that it is reached by. -/
def linkLocal : SockaddrStorage :=
  .store .zero ([10, 0, 0, 80, 0, 0, 0, 0] ++ [0xfe, 0x80, 0, 0, 0, 0, 0, 0, 0, 0, 0, 0, 0, 0, 0, 1] ++
    [2, 0, 0, 0])

theorem scope_id_is_lost :
    ¬ ((∀ s : SockaddrStorage, s.Inet → s.Survives) ∧ ∀ a : Address, a.Survives) := by
  rintro ⟨claim, _⟩
  obtain ⟨address, converted, same⟩ := claim linkLocal (.inr rfl)
  have plain : address = .v6 ⟨linkLocal.sin6Addr, 0, 0, linkLocal.sinPort⟩ :=
    Except.ok.inj (converted.symm.trans (sockaddrToAddress_v6 rfl))
  have kept := ((same .zero).v6 rfl).2.2
  rw [plain, Address.toSockaddr, (toSockaddr_v6_unset _ _).2] at kept
  exact absurd kept (by decide)

end LibN3.Net
