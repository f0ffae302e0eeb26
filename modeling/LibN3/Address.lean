import LibN3.Error

/-! The socket addresses of address.h, read from the bytes of a sockaddr_storage. -/
namespace LibN3.Net

def AF_INET : UInt16 := 2
def AF_INET6 : UInt16 := 10

structure SockaddrStorage where
  byte : Fin 128 → UInt8

namespace SockaddrStorage

def zero : SockaddrStorage := ⟨fun _ => 0⟩

/-- The storage once some bytes were written over its first. -/
def store (s : SockaddrStorage) (bytes : List UInt8) : SockaddrStorage :=
  ⟨fun i => bytes.getD i (s.byte i)⟩

def u16 (s : SockaddrStorage) (i : Fin 127) : UInt16 :=
  (s.byte i.castSucc).toUInt16 ||| (s.byte i.succ).toUInt16 <<< 8

def u32 (s : SockaddrStorage) (i : Fin 125) : UInt32 :=
  (s.u16 (i.castLE (by decide))).toUInt32 ||| (s.u16 (i.addNat 2)).toUInt32 <<< 16

def ssFamily (s : SockaddrStorage) : UInt16 := s.u16 0

def sinPort (s : SockaddrStorage) : UInt16 := s.u16 2

def sinAddr (s : SockaddrStorage) : UInt32 := s.u32 4

def sin6Flowinfo (s : SockaddrStorage) : UInt32 := s.u32 4

def sin6Addr (s : SockaddrStorage) : Vector UInt8 16 :=
  .ofFn fun i => s.byte ((i.natAdd 8).castLE (by decide))

def sin6ScopeId (s : SockaddrStorage) : UInt32 := s.u32 24

end SockaddrStorage

/-- v4::address, made from the sin_addr and sin_port of a sockaddr_in. -/
structure V4Address where
  addr : UInt32
  port : UInt16
deriving DecidableEq

structure V6Address where
  addr : Vector UInt8 16
  flowinfo : UInt32
  scopeId : UInt32
  port : UInt16
deriving DecidableEq

def V4Address.ofSockaddr (sockaddr : SockaddrStorage) : V4Address :=
  ⟨sockaddr.u32 4, sockaddr.u16 2⟩

def V6Address.ofSockaddr (sockaddr : SockaddrStorage) : V6Address where
  addr := .ofFn fun i => sockaddr.byte ((i.natAdd 8).castLE (by decide))
  flowinfo := 0
  scopeId := 0
  port := sockaddr.u16 2

/-- std::variant<v4::address, v6::address>. -/
inductive Address
  | v4 (address : V4Address)
  | v6 (address : V6Address)
deriving DecidableEq

def sockaddrToAddress (addr : SockaddrStorage) : Except Halt Address :=
  if addr.ssFamily = AF_INET then .ok (.v4 (.ofSockaddr addr))
  else if addr.ssFamily = AF_INET6 then .ok (.v6 (.ofSockaddr addr))
  else .error .unreachable

/- Of a family that the variant has an address for. -/
def SockaddrStorage.Inet (s : SockaddrStorage) : Prop :=
  s.ssFamily = AF_INET ∨ s.ssFamily = AF_INET6

/-- The family, the port and the bytes are those of the storage. Of the two fields that only a
sockaddr_in6 has beside them nothing is read. -/
def Address.ReadFrom (s : SockaddrStorage) : Address → Prop
  | .v4 a => s.ssFamily = AF_INET ∧ a.addr = s.sinAddr ∧ a.port = s.sinPort
  | .v6 a => s.ssFamily = AF_INET6 ∧ a.addr = s.sin6Addr ∧ a.port = s.sinPort ∧
    a.flowinfo = 0 ∧ a.scopeId = 0

theorem v4_ne_v6 : AF_INET ≠ AF_INET6 := by
  decide

theorem sockaddrToAddress_v4 {s : SockaddrStorage} (v4 : s.ssFamily = AF_INET) :
    sockaddrToAddress s = .ok (.v4 ⟨s.sinAddr, s.sinPort⟩) := by
  rw [sockaddrToAddress, if_pos v4]
  rfl

theorem sockaddrToAddress_v6 {s : SockaddrStorage} (v6 : s.ssFamily = AF_INET6) :
    sockaddrToAddress s = .ok (.v6 ⟨s.sin6Addr, 0, 0, s.sinPort⟩) := by
  have other : ¬ s.ssFamily = AF_INET := fun v4 => v4_ne_v6 (v4.symm.trans v6)
  rw [sockaddrToAddress, if_neg other, if_pos v6]
  rfl

theorem sockaddrToAddress_inet {s : SockaddrStorage} (inet : s.Inet) :
    ∃ address, sockaddrToAddress s = .ok address ∧ address.ReadFrom s := by
  rcases inet with v4 | v6
  · exact ⟨_, sockaddrToAddress_v4 v4, v4, rfl, rfl⟩
  · exact ⟨_, sockaddrToAddress_v6 v6, v6, rfl, rfl, rfl, rfl⟩

theorem sockaddrToAddress_other {s : SockaddrStorage} (other : ¬ s.Inet) :
    sockaddrToAddress s = .error .unreachable := by
  obtain ⟨not_v4, not_v6⟩ := not_or.mp other
  rw [sockaddrToAddress, if_neg not_v4, if_neg not_v6]

end LibN3.Net
