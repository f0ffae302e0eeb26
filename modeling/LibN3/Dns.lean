import LibN3.Syscalls

/-! getaddrinfo of dns.h, over the function of the C library that it calls. -/
namespace LibN3.Net.Dns
open Error Linux

/-- ::addrinfo: a node of the list that the C function makes, with the ai_addrlen bytes at
ai_addr, and none for a null ai_canonname. -/
structure CAddrinfo where
  aiFlags : Int32
  aiFamily : Int32
  aiSocktype : Int32
  aiProtocol : Int32
  aiAddr : List UInt8
  aiCanonname : Option String
deriving DecidableEq

structure Addrinfo where
  aiFlags : Int32
  aiFamily : Int32
  aiSocktype : Int32
  aiProtocol : Int32
  aiAddr : SockaddrStorage
  aiCanonname : String

/-- The constructor is noexcept, and a std::string cannot be made from a null pointer. -/
def Addrinfo.ofC (caddr : CAddrinfo) : Except Halt Addrinfo :=
  match caddr.aiCanonname with
  | none => .error .terminate
  | some aiCanonname =>
    if caddr.aiAddr.length ≤ sockaddrStorageSize.toNat then
      .ok ⟨caddr.aiFlags, caddr.aiFamily, caddr.aiSocktype, caddr.aiProtocol,
        SockaddrStorage.zero.store caddr.aiAddr, aiCanonname⟩
    else .error .outOfBounds

inductive Resolution
  | failed (ret errno : Int32) (nonzero : ret ≠ 0)
  | found (list : List CAddrinfo)

abbrev Resolver := Option String → Option String → Option CAddrinfo → Resolution

/-- The place that a pointer to a list points at, if it is not null. -/
abbrev ListPlace := Option (List CAddrinfo)

def ListPlace.store (res : ListPlace) : Resolution → Except Halt ListPlace
  | .failed .. => .ok res
  | .found list =>
    match res with
    | none => .error .nullPointer
    | some _ => .ok (some list)

/-- The lists that freeaddrinfo is called on when addr_list ends. Its deleter is not called for
a null pointer. -/
def ListPlace.destroy (addrList : ListPlace) : List (List CAddrinfo) := addrList.toList

def getaddrinfoAt (addrList : ListPlace) (build : Build) (resolver : Resolver)
    (node service : Option String) (hints : Option CAddrinfo) :
    Except Halt (Expected (List Addrinfo) × List (List CAddrinfo)) := do
  if node.isNone && service.isNone then (unexpected EINVAL).map (·, [])
  else
    let resolution := resolver node service hints
    let addrList ← addrList.store resolution
    let outcome : Except Halt (Expected (List Addrinfo)) := match resolution, addrList with
      | .failed ret errno _, _ => (getErrorCodeFromGetaddrinfoErr ret errno).map .error
      | .found _, none => .error (if build = .debug then .assertion "addr_list" else .nullPointer)
      | .found _, some list => do
        let resultVec ← list.mapM Addrinfo.ofC
        returned resultVec
    outcome.map (·, addrList.destroy)

/-- addr_list owns a null pointer, and that is what addr_list.get() passes on. -/
def getaddrinfo (build : Build) (resolver : Resolver) (node service : Option String)
    (hints : Option CAddrinfo) : Except Halt (Expected (List Addrinfo)) :=
  (getaddrinfoAt none build resolver node service hints).map Prod.fst

section resolve

variable (build : Build) {resolver : Resolver} {node service : Option String}
  {hints : Option CAddrinfo}

theorem getaddrinfo_absent (absent : (node.isNone && service.isNone) = true) :
    getaddrinfo build resolver node service hints = unexpected EINVAL := by
  rw [getaddrinfo, getaddrinfoAt, absent, if_pos rfl, map_fst_map]

theorem getaddrinfoAt_failed (addrList : ListPlace)
    (present : (node.isNone && service.isNone) = false)
    {ret errno : Int32} {nonzero : ret ≠ 0}
    (failed : resolver node service hints = .failed ret errno nonzero) :
    getaddrinfoAt addrList build resolver node service hints =
      ((getErrorCodeFromGetaddrinfoErr ret errno).map .error).map (·, addrList.destroy) := by
  simp only [getaddrinfoAt, present, failed, ListPlace.store, halt_ok_bind]
  rfl

theorem getaddrinfo_failed (present : (node.isNone && service.isNone) = false)
    {ret errno : Int32} {nonzero : ret ≠ 0}
    (failed : resolver node service hints = .failed ret errno nonzero) :
    getaddrinfo build resolver node service hints =
      (getErrorCodeFromGetaddrinfoErr ret errno).map .error := by
  rw [getaddrinfo, getaddrinfoAt_failed build none present failed, map_fst_map]

theorem getaddrinfoAt_found (old list : List CAddrinfo)
    (present : (node.isNone && service.isNone) = false)
    (found : resolver node service hints = .found list) :
    getaddrinfoAt (some old) build resolver node service hints =
      (list.mapM Addrinfo.ofC).map fun entries => (.ok entries, [list]) := by
  simp only [getaddrinfoAt, present, found, ListPlace.store, halt_ok_bind]
  cases list.mapM Addrinfo.ofC <;> rfl

theorem getaddrinfoAt_null_found {list : List CAddrinfo}
    (present : (node.isNone && service.isNone) = false)
    (found : resolver node service hints = .found list) :
    getaddrinfoAt none build resolver node service hints = .error .nullPointer := by
  simp only [getaddrinfoAt, present, found, ListPlace.store]
  rfl

end resolve

end LibN3.Net.Dns
