import LibN3.BufferQueue
import LibN3.Error
import LibN3.Ownership
import LibN3.Table

/-! epoll_ctx of epoll.h and epoll_executor of epoll_executor.h. The kernel is on the
other side of three calls: what it answers is an argument, and what it keeps is the
interest set of this one epoll descriptor. An error is told by its errno. -/
namespace LibN3
open Error

def EPOLLIN : UInt32 := 0x001
def EPOLLPRI : UInt32 := 0x002
def EPOLLOUT : UInt32 := 0x004
def EPOLLERR : UInt32 := 0x008
def EPOLLHUP : UInt32 := 0x010
def EPOLLRDHUP : UInt32 := 0x2000
def EPOLLEXCLUSIVE : UInt32 := 0x10000000
def EPOLLET : UInt32 := 0x80000000

/-- epoll_data is a union as large as a pointer, and data is its bytes. -/
structure EpollEvent where
  events : UInt32
  data : UInt64
deriving DecidableEq

/-- The fd member of the union: its low four bytes, as an int. -/
def dataFd (data : UInt64) : Handle := data.toUInt32.toInt32

/-- The interest set: the event given at EPOLL_CTL_ADD for each descriptor in it. -/
abbrev Interest := Handle → Option EpollEvent

structure EpollCtx where
  this : UInt64

namespace EpollCtx

def eventBufferSize : ℕ := 32768

def eventMask : UInt32 := EPOLLIN ||| EPOLLOUT ||| EPOLLET ||| EPOLLEXCLUSIVE

def add (ctx : EpollCtx) (fd : Handle) (answer : Option Int32) (interest : Interest) :
    Except Int32 Unit × Interest :=
  let event : EpollEvent := ⟨eventMask, ctx.this⟩
  match answer with
  | some errno => (.error errno, interest)
  | none => (.ok (), Function.update interest fd (some event))

def remove (fd : Handle) (answer : Option Int32) (interest : Interest) :
    Except Int32 Unit × Interest :=
  match answer with
  | some errno => (.error errno, interest)
  | none => (.ok (), Function.update interest fd none)

def wait (returned : Except Int32 (List EpollEvent)) : Except Int32 (List EpollEvent) :=
  match returned with
  | .error errno => if errno == EINTR then .error ETIMEDOUT else .error errno
  | .ok [] => .error ETIMEDOUT
  | .ok events => .ok events

end EpollCtx

/-- struct events: six unsigned bit-fields of one bit, which keep a value modulo 2. -/
structure Events where
  in_ : BitVec 1
  out : BitVec 1
  rdhup : BitVec 1
  pri : BitVec 1
  err : BitVec 1
  hup : BitVec 1
deriving DecidableEq

def bitField (value : UInt32) : BitVec 1 := value.toBitVec.truncate 1

def Events.ofMask (epollEvents : UInt32) : Events where
  in_ := bitField (epollEvents &&& EPOLLIN)
  out := bitField (epollEvents &&& EPOLLOUT)
  rdhup := bitField (epollEvents &&& EPOLLRDHUP)
  pri := bitField (epollEvents &&& EPOLLPRI)
  err := bitField (epollEvents &&& EPOLLERR)
  hup := bitField (epollEvents &&& EPOLLHUP)

/- Whether any event is raised that is not a read or a write. -/
def Events.hasError (e : Events) : Bool :=
  if e.rdhup ≠ 0 then true
  else if e.pri ≠ 0 then true
  else if e.err ≠ 0 then true
  else if e.hup ≠ 0 then true
  else false

structure EpollHandleState where
  fd : Handle
  txQueue : BufferQueue ℕ
  rxQueue : BufferQueue ℕ
  eventCache : Events
deriving DecidableEq

/-- The value-initialised state that operator[] puts under a key it does not find. -/
def EpollHandleState.zero : EpollHandleState := ⟨0, .new, .new, ⟨0, 0, 0, 0, 0, 0⟩⟩

abbrev HandleMap := Handle → Option EpollHandleState

structure EpollExecutor where
  epoll : EpollCtx
  handleMap : HandleMap

namespace EpollExecutor

def new (this : UInt64) : EpollExecutor := ⟨⟨this⟩, fun _ => none⟩

/- handle_map[handle].event_cache = event_flags -/
def setEventCache (state : Option EpollHandleState) (eventFlags : Events) :
    Option EpollHandleState :=
  some { state.getD .zero with eventCache := eventFlags }

def cacheEvent (handleMap : HandleMap) (epollEvent : EpollEvent) : HandleMap :=
  let eventFlags := Events.ofMask epollEvent.events
  let handle := dataFd epollEvent.data
  Function.update handleMap handle (setEventCache (handleMap handle) eventFlags)

def add (ex : EpollExecutor) (fd : Handle) (answer : Option Int32) (interest : Interest) :
    Except Int32 Unit × Interest :=
  ex.epoll.add fd answer interest

def remove (_ : EpollExecutor) (fd : Handle) (answer : Option Int32)
    (interest : Interest) : Except Int32 Unit × Interest :=
  EpollCtx.remove fd answer interest

def runOnce (ex : EpollExecutor) (returned : Except Int32 (List EpollEvent)) :
    EpollExecutor :=
  match EpollCtx.wait returned with
  | .error _ => ex
  | .ok events => { ex with handleMap := events.foldl cacheEvent ex.handleMap }

end EpollExecutor

/-- A batch writes each event's flags under the key that its data holds. -/
theorem runOnce_putAll (ex : EpollExecutor) (events : List EpollEvent) :
    (ex.runOnce (.ok events)).handleMap =
      Table.putAll (fun e => dataFd e.data)
        (fun e state => EpollExecutor.setEventCache state (.ofMask e.events))
        ex.handleMap events := by
  cases events with
  | nil => rfl
  | cons e events => rfl

theorem runOnce_error (ex : EpollExecutor) (errno : Int32) :
    ex.runOnce (.error errno) = ex := by
  unfold EpollExecutor.runOnce EpollCtx.wait
  by_cases interrupted : errno == EINTR
  · simp [interrupted]
  · simp [interrupted]

end LibN3
