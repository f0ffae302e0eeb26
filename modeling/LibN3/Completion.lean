import LibN3.Socket

/-! socket::send of socket.h, and the n3::callback of callbacks.h that it builds when the call
would block. A class has to declare something under the name of send: with nothing there,
&T::send is the template of socket<T> and the body does not compile. Past the test for an
override come those whose send is a static function or a data member. A function is known by
what it is invoked with. -/
namespace LibN3.Linux
open Error

inductive Arg (T : Type)
  | result (r : Expected SizeT)
  | other (x : T)
deriving DecidableEq

structure Invocation (F T : Type) where
  func : F
  args : List (Arg T)
deriving DecidableEq

structure BindFront (F T : Type) where
  func : F
  boundArgs : List (Arg T)
deriving DecidableEq

def BindFront.invoke {F T : Type} (b : BindFront F T) (callArgs : List (Arg T)) :
    Invocation F T :=
  ⟨b.func, b.boundArgs ++ callArgs⟩

structure Callback (F T : Type) where
  mf : BindFront F T
deriving DecidableEq

def Callback.new {F T : Type} (func : F) (funcArgs : List (Arg T)) : Callback F T :=
  ⟨⟨func, funcArgs⟩⟩

def Callback.call {F T : Type} (cb : Callback F T) (callArgs : List (Arg T)) :
    Invocation F T :=
  cb.mf.invoke callArgs

/-- std::invoke(cb_func, ret, cb_args...) -/
def invokeNow {F T : Type} (cbFunc : F) (ret : Expected SizeT) (cbArgs : List (Arg T)) :
    Invocation F T :=
  ⟨cbFunc, .result ret :: cbArgs⟩

/-- What T has under the name of send. A function there is given no completion function. -/
abbrev OwnSend := Member (Handle × RefBuffer × Int32) Unit

inductive Sent (F T : Type)
  | own (args : Handle × RefBuffer × Int32)
  | invoked (invocation : Invocation F T)
  | wouldBlock (cb : Callback F T)
deriving DecidableEq

def Socket.send {F T : Type} (own : OwnSend) (kernel : Kernel) (sock : Handle) (buf : RefBuffer)
    (flags : Int32) (cbFunc : F) (cbArgs : List (Arg T)) : Except Halt (Sent F T) := do
  if isMemberFunctionPointer (.own own) then return .own (sock, buf, flags)
  else
    let ret ← Linux.send kernel sock buf flags
    match ret with
    | .ok _ => return .invoked (invokeNow cbFunc ret cbArgs)
    | .error code =>
      if code = .posix .eagain then return .wouldBlock (.new cbFunc cbArgs)
      else return .invoked (invokeNow cbFunc ret cbArgs)

/-- What it takes for send to compile. Which arguments a function takes is a matter of their
types, so it takes any result if it takes one. -/
structure Accepted {F T : Type} (takes : F → List (Arg T) → Prop) (cbFunc : F)
    (cbArgs : List (Arg T)) : Prop where
  constraint : ∀ r, takes cbFunc (.result r :: cbArgs)
  /- std::forward<Args...>(cb_args...) has one parameter and names one type. -/
  forwarded : ∃ a, cbArgs = [a]
  constructible : ∀ r, takes cbFunc (cbArgs ++ [.result r])

/-- A call that would block leaves a callback that, once it is given a result, invokes the
function as it would have been invoked with that result at once. -/
def CompletesAlike {F T : Type} (own : OwnSend) (kernel : Kernel) (sock : Handle) (buf : RefBuffer)
    (flags : Int32) (cbFunc : F) (cbArgs : List (Arg T)) (r : Expected SizeT) : Prop :=
  ∃ cb, Socket.send own kernel sock buf flags cbFunc cbArgs = .ok (.wouldBlock cb) ∧
    cb.call [.result r] = invokeNow cbFunc r cbArgs

section send

variable {F T : Type} {own : OwnSend} {kernel : Kernel} {sock : Handle} {buf : RefBuffer}
  {flags : Int32} (cbFunc : F) (cbArgs : List (Arg T))

theorem send_own (overrides : isMemberFunctionPointer (.own own) = true) :
    Socket.send own kernel sock buf flags cbFunc cbArgs = .ok (.own (sock, buf, flags)) := by
  rw [Socket.send, if_pos overrides]
  rfl

theorem send_invokes_now (falls : isMemberFunctionPointer (.own own) = false)
    {ret : Expected SizeT} (returns : Linux.send kernel sock buf flags = .ok ret)
    (ended : ret ≠ .error (.posix .eagain)) :
    Socket.send own kernel sock buf flags cbFunc cbArgs =
      .ok (.invoked (invokeNow cbFunc ret cbArgs)) := by
  rw [Socket.send, falls, if_neg Bool.false_ne_true, returns, halt_ok_bind]
  cases ret with
  | ok n => rfl
  | error code =>
    have other : code ≠ .posix .eagain := fun same => ended (congrArg Except.error same)
    simp only [if_neg other]
    rfl

theorem send_would_block (falls : isMemberFunctionPointer (.own own) = false)
    (blocks : kernel (.send sock buf flags) = .error EAGAIN) :
    Socket.send own kernel sock buf flags cbFunc cbArgs =
      .ok (.wouldBlock (.new cbFunc cbArgs)) := by
  have returns : Linux.send kernel sock buf flags = .ok (.error (.posix .eagain)) := by
    rw [Linux.send, blocks]
    rfl
  rw [Socket.send, falls, if_neg Bool.false_ne_true, returns]
  rfl

end send

theorem append_eq_cons_iff_all {A : Type} (a : A) (xs : List A) :
    xs ++ [a] = a :: xs ↔ ∀ x ∈ xs, x = a := by
  induction xs with
  | nil => exact iff_of_true rfl fun x member => absurd member List.not_mem_nil
  | cons x xs ih =>
    rw [List.cons_append, List.cons.injEq, List.forall_mem_cons]
    constructor
    · rintro ⟨rfl, same⟩
      exact ⟨rfl, ih.mp same⟩
    · rintro ⟨rfl, all⟩
      exact ⟨rfl, ih.mpr all⟩

/-- A callback puts the result behind the bound arguments, so the two ways to complete are alike
only for arguments that are the result itself. -/
theorem completes_alike_iff {F T : Type} (cbFunc : F) (cbArgs : List (Arg T)) {own : OwnSend}
    (falls : isMemberFunctionPointer (.own own) = false) {kernel : Kernel} {sock : Handle}
    {buf : RefBuffer} {flags : Int32} (blocks : kernel (.send sock buf flags) = .error EAGAIN)
    (r : Expected SizeT) :
    CompletesAlike own kernel sock buf flags cbFunc cbArgs r ↔ ∀ a ∈ cbArgs, a = .result r := by
  have built := send_would_block cbFunc cbArgs falls blocks
  rw [← append_eq_cons_iff_all]
  constructor
  · rintro ⟨cb, built', alike⟩
    rw [built] at built'
    cases built'
    exact congrArg Invocation.args alike
  · intro same
    exact ⟨_, built, congrArg (Invocation.mk cbFunc) same⟩

def full : Kernel
  | .send .. => .error EAGAIN
  | _ => .error EINTR

/- A function that takes arguments of any types, and one argument bound. -/
theorem accepted_one (a : Arg ℕ) : Accepted (fun _ _ => True) () [a] :=
  ⟨fun _ => trivial, ⟨a, rfl⟩, fun _ => trivial⟩

theorem same_result_completes_alike :
    CompletesAlike .dataMember full 3 (.mk 0x1000 1) 0 () [(.result (.ok 1) : Arg ℕ)] (.ok 1) :=
  (completes_alike_iff () _ rfl rfl (.ok 1)).mpr (List.forall_mem_singleton.mpr rfl)

theorem bound_argument_comes_first :
    ¬ ∀ (takes : Unit → List (Arg ℕ) → Prop) (cbArgs : List (Arg ℕ)), Accepted takes () cbArgs →
      ∀ own : OwnSend, isMemberFunctionPointer (.own own) = false →
      ∀ (kernel : Kernel) (sock : Handle) (buf : RefBuffer) (flags : Int32),
      kernel (.send sock buf flags) = .error EAGAIN →
      ∀ r, CompletesAlike own kernel sock buf flags () cbArgs r := by
  intro claim
  obtain ⟨cb, built, alike⟩ := claim _ _ (accepted_one (.other 7)) .dataMember rfl full 3
    (.mk 0x1000 1) 0 rfl (.ok 1)
  cases built
  exact absurd alike (by decide)

end LibN3.Linux
