import LibN3.Syscalls

/-! The interface socket<T> of socket.h. An operation is found by name: a call on T, and
the address &T::f that its kind is read off, find T's own member if T declares one and
the member inherited from socket<T> otherwise. Which operations T declares is a
parameter, and so are the wrappers in n3::linux that they end in. -/
namespace LibN3

def SOMAXCONN : Int32 := 4096

inductive SocketOp : Type 1
  | listen
  | recv
  | accept
  | setsockopt
  | getsockopt
  | bind (U : Type)
  | connect (U : Type)

namespace SocketOp

abbrev Args : SocketOp → Type
  | .listen => Handle
  | .recv => Handle × RefBuffer × Int32
  | .accept => Handle
  | .setsockopt => Handle × Int32 × Int32 × RefBuffer
  | .getsockopt => Handle × Int32 × Int32 × RefBuffer
  | .bind U => Handle × U
  | .connect U => Handle × U

abbrev LinuxArgs : SocketOp → Type
  | .listen => Handle × Int32
  | op => op.Args

abbrev Result : SocketOp → Type
  | .listen => Linux.Expected Unit
  | .recv => Linux.Expected SizeT
  | .accept => Linux.Expected (Handle × Net.Address)
  | .setsockopt => Linux.Expected Unit
  | .getsockopt => Linux.Expected RefBuffer
  | .bind _ => Linux.Expected Unit
  | .connect _ => Linux.Expected Unit

end SocketOp

/-- What a class can declare under a name. -/
inductive Member (Args Result : Type)
  | memberFunction (body : Args → Result)
  | staticFunction (body : Args → Result)
  | dataMember

def Member.version {Args Result : Type} : Member Args Result → Option (Args → Result)
  | .memberFunction body => some body
  | .staticFunction body => some body
  | .dataMember => none

/-- A class derived from socket<T>: what it declares itself under the names of the operations. -/
abbrev SocketClass := (op : SocketOp) → Option (Member op.Args op.Result)

abbrev Linux := (op : SocketOp) → op.LinuxArgs → op.Result

inductive Found (Args Result : Type)
  | own (m : Member Args Result)
  | inherited

inductive Called (Args LinuxArgs : Type)
  | own (args : Args)
  | linux (args : LinuxArgs)
deriving DecidableEq

section dispatch

variable {Args LinuxArgs Result : Type}

def lookup : Option (Member Args Result) → Found Args Result
  | some m => .own m
  | none => .inherited

/-- std::is_member_function_pointer_v<decltype(&T::f)>: the inherited operation is a
member function like any other. -/
def isMemberFunctionPointer : Found Args Result → Bool
  | .own (.memberFunction _) => true
  | .own (.staticFunction _) => false
  | .own .dataMember => false
  | .inherited => true

/-- The body that all operations of socket<T> share. A call on T that finds the
inherited operation enters this body again, so the depth of calls is bounded by fuel. -/
def dispatch (declared : Option (Member Args Result)) (linuxArgs : Args → LinuxArgs)
    (linux : LinuxArgs → Result) : ℕ → Args → Option (Result × List (Called Args LinuxArgs))
  | 0, _ => none
  | fuel + 1, args =>
    if isMemberFunctionPointer (lookup declared) then
      match lookup declared with
      | .own m => m.version.map fun body => (body args, [.own args])
      | .inherited => dispatch declared linuxArgs linux fuel args
    else some (linux (linuxArgs args), [.linux (linuxArgs args)])

end dispatch

namespace Socket

variable (T : SocketClass) (linux : Linux) (fuel : ℕ)

/-- Values above SOMAXCONN are truncated, so that is the backlog. -/
def listen (sock : Handle) :=
  dispatch (T .listen) (fun sock => (sock, SOMAXCONN)) (linux .listen) fuel sock

def recv (sock : Handle) (buf : RefBuffer) (flags : Int32) :=
  dispatch (T .recv) id (linux .recv) fuel (sock, buf, flags)

def bind (U : Type) (sock : Handle) (addr : U) :=
  dispatch (T (.bind U)) id (linux (.bind U)) fuel (sock, addr)

def connect (U : Type) (sock : Handle) (addr : U) :=
  dispatch (T (.connect U)) id (linux (.connect U)) fuel (sock, addr)

def accept (sock : Handle) :=
  dispatch (T .accept) id (linux .accept) fuel sock

def setsockopt (sock : Handle) (level option : Int32) (optionValue : RefBuffer) :=
  dispatch (T .setsockopt) id (linux .setsockopt) fuel (sock, level, option, optionValue)

def getsockopt (sock : Handle) (level option : Int32) (optionBuf : RefBuffer) :=
  dispatch (T .getsockopt) id (linux .getsockopt) fuel (sock, level, option, optionBuf)

def linuxArgs : (op : SocketOp) → op.Args → op.LinuxArgs
  | .listen, sock => (sock, SOMAXCONN)
  | .recv, args => args
  | .accept, args => args
  | .setsockopt, args => args
  | .getsockopt, args => args
  | .bind _, args => args
  | .connect _, args => args

def operation : (op : SocketOp) → op.Args → Option (op.Result × List (Called op.Args op.LinuxArgs))
  | .listen, sock => listen T linux fuel sock
  | .recv, (sock, buf, flags) => recv T linux fuel sock buf flags
  | .accept, sock => accept T linux fuel sock
  | .setsockopt, (sock, level, option, value) => setsockopt T linux fuel sock level option value
  | .getsockopt, (sock, level, option, buf) => getsockopt T linux fuel sock level option buf
  | .bind U, (sock, addr) => bind T linux fuel U sock addr
  | .connect U, (sock, addr) => connect T linux fuel U sock addr

variable {T linux fuel}

theorem operation_dispatch (op : SocketOp) (args : op.Args) :
    operation T linux fuel op args =
      dispatch (T op) (linuxArgs op) (linux op) fuel args := by
  cases op <;> rfl

end Socket

section dispatch

variable {Args LinuxArgs Result : Type} {linuxArgs : Args → LinuxArgs} {linux : LinuxArgs → Result}

theorem dispatch_own (body : Args → Result) (fuel : ℕ) (args : Args) :
    dispatch (some (.memberFunction body)) linuxArgs linux (fuel + 1) args =
      some (body args, [.own args]) := rfl

theorem dispatch_other {m : Member Args Result} (other : isMemberFunctionPointer (.own m) = false)
    (fuel : ℕ) (args : Args) :
    dispatch (some m) linuxArgs linux (fuel + 1) args =
      some (linux (linuxArgs args), [.linux (linuxArgs args)]) := by
  simp [dispatch, lookup, other]

/-- An operation that is not redeclared finds itself, and never returns. -/
theorem dispatch_inherited (fuel : ℕ) (args : Args) :
    dispatch none linuxArgs linux fuel args = none := by
  induction fuel with
  | zero => rfl
  | succ fuel ih =>
    have again : dispatch none linuxArgs linux (fuel + 1) args =
        dispatch none linuxArgs linux fuel args := by
      simp [dispatch, lookup, isMemberFunctionPointer]
    rw [again, ih]

end dispatch

/- The call returns, having run T's own version once if there is one, and otherwise the
wrapper once, on the same arguments. -/
def DispatchesOnce (T : SocketClass) (linux : Linux) (op : SocketOp) (args : op.Args) : Prop :=
  ∃ fuel, Socket.operation T linux fuel op args =
    match (T op).bind Member.version with
    | some body => some (body args, [.own args])
    | none => some (linux op (Socket.linuxArgs op args), [.linux (Socket.linuxArgs op args)])

/-- Dispatch is as it should be exactly for the operations that T declares itself as
member functions, and for names that it has a data member of: the test for an override
also finds what is inherited, and misses a static function. -/
theorem dispatches_once_iff_overridden (T : SocketClass) (linux : Linux) (op : SocketOp)
    (args : op.Args) :
    DispatchesOnce T linux op args ↔
      (∃ body, T op = some (.memberFunction body)) ∨ T op = some .dataMember := by
  unfold DispatchesOnce
  simp only [Socket.operation_dispatch]
  cases declared : T op with
  | none =>
    constructor
    · rintro ⟨fuel, returns⟩
      rw [dispatch_inherited] at returns
      cases returns
    · rintro (⟨body, ⟨⟩⟩ | ⟨⟨⟩⟩)
  | some m =>
    cases m with
    | memberFunction body => exact iff_of_true ⟨1, dispatch_own body 0 args⟩ (.inl ⟨body, rfl⟩)
    | dataMember => exact iff_of_true ⟨1, dispatch_other rfl 0 args⟩ (.inr rfl)
    | staticFunction body =>
      constructor
      · rintro ⟨fuel, returns⟩
        cases fuel with
        | zero => cases returns
        | succ fuel =>
          rw [dispatch_other rfl] at returns
          have traces := congrArg Prod.snd (Option.some.inj returns)
          cases traces
      · rintro (⟨body', ⟨⟩⟩ | ⟨⟨⟩⟩)

/-- TcpSocket of tcp.h declares none of the operations. -/
def tcpSocketClass : SocketClass := fun _ => none

theorem tcpSocket_never_returns (linux : Linux) (op : SocketOp) (args : op.Args) (fuel : ℕ) :
    Socket.operation tcpSocketClass linux fuel op args = none := by
  rw [Socket.operation_dispatch]
  exact dispatch_inherited fuel args

theorem tcpSocket_accept_loops :
    ¬ ∀ (T : SocketClass) (linux : Linux) op args, DispatchesOnce T linux op args := by
  intro claim
  let refuses : Linux
    | .listen, _ => .error (.posix .ebadf)
    | .recv, _ => .error (.posix .ebadf)
    | .accept, _ => .error (.posix .ebadf)
    | .setsockopt, _ => .error (.posix .ebadf)
    | .getsockopt, _ => .error (.posix .ebadf)
    | .bind _, _ => .error (.posix .ebadf)
    | .connect _, _ => .error (.posix .ebadf)
  obtain ⟨fuel, returns⟩ := claim tcpSocketClass refuses .accept 3
  rw [tcpSocket_never_returns] at returns
  cases returns

end LibN3
