import Mathlib.Tactic.Common

/-! MoveOnly of ownership.h and OwnedHandle of handle.h. What a MoveOnly becomes where an
int is wanted is left to overload resolution, so that is modelled as well: copy
initialisation considers no explicit conversion function, and takes the one it finds
through a standard conversion. -/
namespace LibN3

abbrev Handle := Int32

structure MoveOnly (T : Type) where
  inner : Option T
deriving DecidableEq

inductive Target
  | bool
  | optional
  | value
deriving DecidableEq

structure ConversionFunction where
  target : Target
  isExplicit : Bool
  isDeleted : Bool
deriving DecidableEq

namespace MoveOnly

def empty {T : Type} : MoveOnly T := ⟨none⟩

def new {T : Type} (value : T) : MoveOnly T := ⟨some value⟩

def hasValue {T : Type} (m : MoveOnly T) : Bool := m.inner.isSome

def conversions : List ConversionFunction :=
  [⟨.bool, false, false⟩, ⟨.optional, true, true⟩, ⟨.value, true, true⟩]

def candidates : List ConversionFunction := conversions.filter fun f => !f.isExplicit

/-- The result of a conversion function, taken to int: a bool promotes to 0 or 1, and
no standard conversion leads from an optional to an int. -/
def standard (m : MoveOnly Handle) : Target → Option Handle
  | .bool => some (if m.hasValue then 1 else 0)
  | .optional => none
  | .value => m.inner

/-- The resolution is not ambiguous, and the function it finds may be called. -/
theorem candidates_eq : candidates = [⟨.bool, false, false⟩] := by
  decide

def toHandle (m : MoveOnly Handle) : Handle :=
  (m.standard (candidates.head (by decide)).target).get rfl

/- So it is the number of values held, whatever the value. -/
@[simp] theorem toHandle_new (f : Handle) : (MoveOnly.new f).toHandle = 1 := rfl

end MoveOnly

inductive Syscall
  | close (fd : Handle)
  | shutdown (fd : Handle) (how : Int32)
deriving DecidableEq

structure OwnedHandle where
  fd : MoveOnly Handle
deriving DecidableEq

namespace OwnedHandle

def new (fdArg : Handle) : OwnedHandle := ⟨.new fdArg⟩

def toHandle (o : OwnedHandle) : Handle := o.fd.toHandle

def destroy (o : OwnedHandle) : List Syscall := [.close o.fd.toHandle]

@[simp] theorem toHandle_new (f : Handle) : (OwnedHandle.new f).toHandle = 1 := rfl

end OwnedHandle

end LibN3
