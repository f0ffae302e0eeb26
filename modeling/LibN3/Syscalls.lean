import LibN3.Address
import LibN3.Ownership
import LibN3.Sockopt

/-! The wrappers of syscalls.h. Each makes one call, which the kernel answers with the errno
it fails with, where it returns -1, or with what it returns and stores. -/
namespace LibN3.Linux
open Error Net

def IOV_MAX : ℕ := 1024

structure MsgHdr where
  msgName : UInt64
  msgNamelen : UInt32
  msgIov : UInt64
  msgIovlen : SizeT
  msgControl : UInt64
  msgControllen : SizeT
  msgFlags : Int32
deriving DecidableEq

def MsgHdr.zero : MsgHdr := ⟨0, 0, 0, 0, 0, 0, 0⟩

/-- The calls, with the arguments that are passed to them. A RefBuffer is passed as its data
and size, an address as the bytes that to_sockaddr made. -/
inductive Call
  | setsockopt (sock : Handle) (level option : Int32) (optval : UInt64) (optlen : UInt32)
  | getsockopt (sock : Handle) (level option : Int32) (optval : UInt64) (optlen : UInt32)
  | readv (fd : Handle) (iov : List RefBuffer)
  | writev (fd : Handle) (iov : List RefBuffer)
  | send (sock : Handle) (buf : RefBuffer) (flags : Int32)
  | sendto (sock : Handle) (buf : RefBuffer) (flags : Int32) (rawAddr : List UInt8)
  | sendmsg (sock : Handle) (msg : MsgHdr) (flags : Int32)
  | recv (sock : Handle) (buf : RefBuffer) (flags : Int32)
  | recvfrom (sock : Handle) (buf : RefBuffer) (flags : Int32) (addrlen : UInt32)
  | recvmsg (sock : Handle) (msg : MsgHdr) (flags : Int32)
  | sysconf (name : Int32)
  | connect (sock : Handle) (rawAddr : List UInt8)
  | bind (sock : Handle) (rawAddr : List UInt8)
  | listen (sock : Handle) (backlog : Int32)
  | accept (sock : Handle) (addrlen : UInt32)

/-- What a call returns, where that is not -1, and what it stores: the length of an option, the
bytes of a source address, a message header. -/
@[reducible] def Call.Value : Call → Type
  | .setsockopt .. | .connect .. | .bind .. | .listen .. => Unit
  | .getsockopt .. => UInt32
  | .readv .. | .writev .. | .send .. | .sendto .. | .sendmsg .. | .recv .. => SizeT
  | .recvfrom .. => SizeT × List UInt8
  | .recvmsg .. => SizeT × MsgHdr
  | .sysconf .. => Int64
  | .accept .. => Handle × List UInt8

abbrev Kernel := (call : Call) → Except Int32 call.Value

/-- std::expected. -/
abbrev Expected (A : Type) := Except ErrorCode A

def returned {A : Type} (value : A) : Except Halt (Expected A) := .ok (.ok value)

def unexpected {A : Type} (errno : Int32) : Except Halt (Expected A) :=
  (getErrorCodeFromErrno errno).map .error

/-- The test for -1 that follows a call, and what is done with a value. -/
def checked {V A : Type} (answer : Except Int32 V) (next : V → Except Halt (Expected A)) :
    Except Halt (Expected A) :=
  match answer with
  | .error errno => unexpected errno
  | .ok value => next value

/-- An assertion that what follows it relies on for its accesses to stay in bounds. -/
def relyOn (build : Build) (expr : String) (holds : Bool) : Except Halt Unit :=
  match holds, build with
  | true, _ => .ok ()
  | false, .debug => .error (.assertion expr)
  | false, .release => .error .outOfBounds

def sockaddrStorageSize : UInt32 := 128

theorem map_fst_map {A S : Type} (s : S) (outcome : Except Halt A) :
    (outcome.map (·, s)).map Prod.fst = outcome := by
  cases outcome <;> rfl

def setsockopt (kernel : Kernel) (sock : Handle) (level option : Int32)
    (optionValue : RefBuffer) : Except Halt (Expected Unit) :=
  checked (kernel (.setsockopt sock level option optionValue.iovBase optionValue.size.toUInt32))
    returned

/-- getsockopt over the call that it makes, and over what that call may change. The length that
the call is given is zero, whatever the buffer holds. -/
def getsockoptOver {S : Type} (build : Build)
    (call : UInt64 → UInt32 → S → Except Int32 UInt32 × S) (level option : Int32)
    (optionBuf : RefBuffer) (s : S) : Except Halt (Expected RefBuffer × S) := do
  let needed ← getSockoptSize level option
  if optionBuf.size < needed then (unexpected EINVAL).map (·, s)
  else
    let (answer, s) := call optionBuf.iovBase 0 s
    let outcome := checked answer fun optlen => do
      relyOn build "optlen <= option_buf.as_span().size_bytes()"
        (optlen.toUInt64 ≤ optionBuf.size)
      returned (optionBuf.first optlen)
    outcome.map (·, s)

def getsockopt (build : Build) (kernel : Kernel) (sock : Handle) (level option : Int32)
    (optionBuf : RefBuffer) : Except Halt (Expected RefBuffer) :=
  (getsockoptOver build (fun optval optlen s =>
    (kernel (.getsockopt sock level option optval optlen), s)) level option optionBuf ()).map Prod.fst

section getsockopt

variable {S : Type} (build : Build) (call : UInt64 → UInt32 → S → Except Int32 UInt32 × S)
  (kernel : Kernel) (sock : Handle) {level option : Int32} {needed : SizeT}
  {optionBuf : RefBuffer} (s : S)

theorem getsockoptOver_unsupported {halt : Halt}
    (unsupported : getSockoptSize level option = .error halt) :
    getsockoptOver build call level option optionBuf s = .error halt := by
  rw [getsockoptOver, unsupported]
  rfl

theorem getsockoptOver_small (supported : getSockoptSize level option = .ok needed)
    (small : optionBuf.size < needed) :
    getsockoptOver build call level option optionBuf s = (unexpected EINVAL).map (·, s) := by
  rw [getsockoptOver, supported, halt_ok_bind, if_pos small]

theorem getsockoptOver_large (supported : getSockoptSize level option = .ok needed)
    (large : ¬ optionBuf.size < needed) :
    getsockoptOver build call level option optionBuf s =
      (checked (call optionBuf.iovBase 0 s).1 fun optlen =>
        relyOn build "optlen <= option_buf.as_span().size_bytes()"
          (optlen.toUInt64 ≤ optionBuf.size) >>= fun _ => returned (optionBuf.first optlen)).map
        (·, (call optionBuf.iovBase 0 s).2) := by
  rw [getsockoptOver, supported, halt_ok_bind, if_neg large]

theorem getsockopt_unsupported {halt : Halt}
    (unsupported : getSockoptSize level option = .error halt) :
    getsockopt build kernel sock level option optionBuf = .error halt := by
  rw [getsockopt, getsockoptOver_unsupported build _ _ unsupported]
  rfl

theorem getsockopt_small (supported : getSockoptSize level option = .ok needed)
    (small : optionBuf.size < needed) :
    getsockopt build kernel sock level option optionBuf = unexpected EINVAL := by
  rw [getsockopt, getsockoptOver_small build _ _ supported small, map_fst_map]

theorem getsockopt_large (supported : getSockoptSize level option = .ok needed)
    (large : ¬ optionBuf.size < needed) :
    getsockopt build kernel sock level option optionBuf =
      checked (kernel (.getsockopt sock level option optionBuf.iovBase 0)) fun optlen =>
        relyOn build "optlen <= option_buf.as_span().size_bytes()"
          (optlen.toUInt64 ≤ optionBuf.size) >>= fun _ => returned (optionBuf.first optlen) := by
  rw [getsockopt, getsockoptOver_large build _ _ supported large, map_fst_map]

end getsockopt

def readv (build : Build) (kernel : Kernel) (fd : Handle) (bufs : List RefBuffer) :
    Except Halt (Expected SizeT) := do
  relyOn build "bufs.size() <= IOV_MAX" (bufs.length ≤ IOV_MAX)
  checked (kernel (.readv fd bufs)) returned

def writev (build : Build) (kernel : Kernel) (fd : Handle) (bufs : List RefBuffer) :
    Except Halt (Expected SizeT) := do
  relyOn build "bufs.size() <= IOV_MAX" (bufs.length ≤ IOV_MAX)
  checked (kernel (.writev fd bufs)) returned

def send (kernel : Kernel) (sock : Handle) (buf : RefBuffer) (flags : Int32) :
    Except Halt (Expected SizeT) :=
  checked (kernel (.send sock buf flags)) returned

def sendto (kernel : Kernel) (sock : Handle) (buf : RefBuffer) (rawAddr : List UInt8)
    (flags : Int32) : Except Halt (Expected SizeT) :=
  checked (kernel (.sendto sock buf flags rawAddr)) returned

def sendmsg (kernel : Kernel) (sock : Handle) (msg : MsgHdr) (flags : Int32) :
    Except Halt (Expected SizeT) :=
  checked (kernel (.sendmsg sock msg flags)) returned

def recv (kernel : Kernel) (sock : Handle) (buf : RefBuffer) (flags : Int32) :
    Except Halt (Expected SizeT) :=
  checked (kernel (.recv sock buf flags)) returned

/-- The address that a call stored over a zeroed sockaddr_storage, beside what it returned. -/
def withAddress {V : Type} (ret : V) (stored : List UInt8) :
    Except Halt (Expected (V × Address)) := do
  let address ← sockaddrToAddress (SockaddrStorage.zero.store stored)
  returned (ret, address)

def recvfrom (kernel : Kernel) (sock : Handle) (buf : RefBuffer) (flags : Int32) :
    Except Halt (Expected (SizeT × Address)) :=
  checked (kernel (.recvfrom sock buf flags sockaddrStorageSize)) fun (ret, recvAddr) =>
    withAddress ret recvAddr

def recvmsg (kernel : Kernel) (sock : Handle) (flags : Int32) :
    Except Halt (Expected (SizeT × MsgHdr)) :=
  checked (kernel (.recvmsg sock .zero flags)) returned

/-- errno is zero before this call, and where it stays so there is no limit to report. -/
def sysconf (kernel : Kernel) (name : Int32) : Except Halt (Expected Int64) :=
  match kernel (.sysconf name) with
  | .ok ret => returned ret
  | .error errno => if errno = 0 then unexpected ENOTSUP else unexpected errno

def connect (kernel : Kernel) (sock : Handle) (rawAddr : List UInt8) :
    Except Halt (Expected Unit) :=
  match kernel (.connect sock rawAddr) with
  | .ok () => returned ()
  | .error errno => if errno = EINPROGRESS then returned () else unexpected errno

def bind (kernel : Kernel) (sock : Handle) (rawAddr : List UInt8) : Except Halt (Expected Unit) :=
  checked (kernel (.bind sock rawAddr)) returned

def listen (kernel : Kernel) (sock : Handle) (backlog : Int32) : Except Halt (Expected Unit) :=
  checked (kernel (.listen sock backlog)) returned

def accept (kernel : Kernel) (sock : Handle) : Except Halt (Expected (Handle × Address)) :=
  checked (kernel (.accept sock sockaddrStorageSize)) fun (ret, recvAddr) =>
    withAddress ret recvAddr

end LibN3.Linux
