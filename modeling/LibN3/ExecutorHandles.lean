import LibN3.Epoll
import LibN3.Holders
import LibN3.Runs

/-! ExecutorOwnedHandle of epoll_executor.h, and runs that build such handles over open
descriptors and destroy them. Whether EPOLL_CTL_ADD succeeds is given for each; a removal
succeeds if the descriptor is registered. The kernel forgets a descriptor once it is
closed. -/
namespace LibN3
open Error

/-- The calls that reach the kernel, those on the interest set with what it answered. -/
inductive HandleCall
  | add (fd : Handle) (answer : Option Int32)
  | remove (fd : Handle) (answer : Option Int32)
  | sys (call : Syscall)
deriving DecidableEq

def closes : HandleCall → Option Handle
  | .sys (.close fd) => some fd
  | _ => none

structure ExecutorOwnedHandle where
  fd : OwnedHandle
deriving DecidableEq

namespace ExecutorOwnedHandle

def forget (interest : Interest) : Syscall → Interest
  | .close fd => Function.update interest fd none
  | .shutdown _ _ => interest

/-- The end of the member fd, whose destructor makes the calls. -/
def destroyMember (fd : OwnedHandle) (interest : Interest) : List HandleCall × Interest :=
  (fd.destroy.map .sys, fd.destroy.foldl forget interest)

/-- The constructor: add(..).value() throws where the call failed, and then it is the
member that ends, not the object. -/
def new (executor : EpollExecutor) (fdArg : Handle) (answer : Option Int32)
    (interest : Interest) : Option ExecutorOwnedHandle × List HandleCall × Interest :=
  let fd := OwnedHandle.new fdArg
  let added := executor.add fd.toHandle answer interest
  match added.1 with
  | .ok _ => (some ⟨fd⟩, [.add fd.toHandle answer], added.2)
  | .error _ =>
    let ended := destroyMember fd added.2
    (none, .add fd.toHandle answer :: ended.1, ended.2)

def kernelRemove (interest : Interest) (fd : Handle) : Option Int32 :=
  if (interest fd).isSome then none else some ENOENT

def destroy (executor : EpollExecutor) (o : ExecutorOwnedHandle) (interest : Interest) :
    List HandleCall × Interest :=
  let answer := kernelRemove interest o.fd.toHandle
  let ended := destroyMember o.fd (executor.remove o.fd.toHandle answer interest).2
  (.remove o.fd.toHandle answer :: ended.1, ended.2)

end ExecutorOwnedHandle

/-- A construction over a descriptor, the object unless it threw, and the calls made for
it up to the end of the object. -/
structure RegisteredLife where
  source : Handle
  answer : Option Int32
  object : Option ExecutorOwnedHandle
  alive : Bool
  calls : List HandleCall
deriving DecidableEq

structure RegisteredWorld where
  executor : EpollExecutor
  interest : Interest
  lives : List RegisteredLife

inductive RegisteredOp
  | construct (fd : Handle) (answer : Option Int32)
  | destroy (i : ℕ)
deriving DecidableEq

namespace RegisteredWorld

def new (this : UInt64) : RegisteredWorld := ⟨.new this, fun _ => none, []⟩

def step (w : RegisteredWorld) : RegisteredOp → RegisteredWorld
  | .construct fd answer =>
    let made := ExecutorOwnedHandle.new w.executor fd answer w.interest
    { w with interest := made.2.2
             lives := w.lives ++ [⟨fd, answer, made.1, made.1.isSome, made.2.1⟩] }
  | .destroy i =>
    match w.lives[i]? with
    | none => w
    | some l =>
      match l.object with
      | none => w
      | some o =>
        let ended := o.destroy w.executor w.interest
        { w with interest := ended.2
                 lives := w.lives.set i { l with alive := false, calls := l.calls ++ ended.1 } }

/-- The descriptors of live objects are open and distinct, and only a live object is
destroyed. -/
def Admits (w : RegisteredWorld) : RegisteredOp → Prop
  | .construct fd _ => 0 ≤ fd ∧ ∀ l ∈ w.lives, l.alive = true → l.source ≠ fd
  | .destroy i => ∃ l ∈ w.lives[i]?, l.alive = true

instance decidableAdmits (w : RegisteredWorld) (op : RegisteredOp) : Decidable (w.Admits op) :=
  match op with
  | .construct fd _ => @instDecidableAnd _ _ (inferInstanceAs (Decidable (0 ≤ fd)))
      (List.decidableBAll (fun l : RegisteredLife => l.alive = true → l.source ≠ fd) w.lives)
  | .destroy i => inferInstanceAs (Decidable (∃ l ∈ w.lives[i]?, l.alive = true))

end RegisteredWorld

/- What an object should do for its descriptor: it throws if it cannot register it, takes
it out of the interest set before it closes it, and closes it and no other, once. -/
structure KeepsDescriptor (l : RegisteredLife) : Prop where
  throws : l.object = none ↔ l.answer.isSome
  closes_once : l.calls.filterMap closes = if l.alive then [] else [l.source]
  removes_first : l.object.isSome → l.alive = false →
    l.calls = [.add l.source none, .remove l.source none, .sys (.close l.source)]

/- The interest set is that of the live objects, and so a construction that throws leaves
it as it was. -/
structure InStep (w : RegisteredWorld) : Prop where
  registered : ∀ fd, (w.interest fd).isSome ↔ ∃ l ∈ w.lives, l.alive = true ∧ l.source = fd
  kept : ∀ l ∈ w.lives, KeepsDescriptor l

def OverOne : RegisteredOp → Prop
  | .construct fd _ => fd = 1
  | .destroy _ => True

instance decidableOverOne (op : RegisteredOp) : Decidable (OverOne op) :=
  match op with
  | .construct fd _ => inferInstanceAs (Decidable (fd = 1))
  | .destroy _ => .isTrue trivial

section calls

variable (executor : EpollExecutor) (f : Handle) (interest : Interest)

/- Whatever descriptor it is given, a handle converts to 1, and that is what is
registered, removed and closed. -/
theorem new_ok : ExecutorOwnedHandle.new executor f none interest =
    (some ⟨.new f⟩, [.add 1 none],
      Function.update interest 1 (some ⟨EpollCtx.eventMask, executor.epoll.this⟩)) := rfl

theorem new_error (errno : Int32) :
    ExecutorOwnedHandle.new executor f (some errno) interest =
      (none, [.add 1 (some errno), .sys (.close 1)], Function.update interest 1 none) := rfl

theorem destroy_new : ExecutorOwnedHandle.destroy executor ⟨.new f⟩ interest =
    ([.remove 1 (ExecutorOwnedHandle.kernelRemove interest 1), .sys (.close 1)],
      Function.update interest 1 none) := by
  have forgotten : Function.update (executor.remove 1
      (ExecutorOwnedHandle.kernelRemove interest 1) interest).2 1 none =
        Function.update interest 1 none := by
    unfold ExecutorOwnedHandle.kernelRemove
    cases interest 1 with
    | none => rfl
    | some event => exact Function.update_idem (β := fun _ => Option EpollEvent) none none interest
  exact Prod.ext rfl forgotten

end calls

/-- What runs keep that only ever build handles over descriptor 1. -/
structure OnlyOne (w : RegisteredWorld) : Prop where
  sources : ∀ l ∈ w.lives, l.source = 1
  built : ∀ l ∈ w.lives, l.alive = true →
    l.object = some ⟨.new 1⟩ ∧ l.answer = none ∧ l.calls = [.add 1 none]
  one_live : w.lives.countP RegisteredLife.alive ≤ 1

namespace OnlyOne

variable {w : RegisteredWorld} {i : ℕ} {l : RegisteredLife}

theorem start (this : UInt64) : OnlyOne (.new this) where
  sources := by rintro l ⟨⟩
  built := by rintro l ⟨⟩
  one_live := Nat.zero_le 1

theorem step_destroy (inv : OnlyOne w) (here : w.lives[i]? = some l) (live : l.alive = true) :
    w.step (.destroy i) = { w with
      interest := Function.update w.interest 1 none
      lives := w.lives.set i { l with
        alive := false
        calls := [.add 1 none, .remove 1 (ExecutorOwnedHandle.kernelRemove w.interest 1),
          .sys (.close 1)] } } := by
  obtain ⟨object, _, calls⟩ := inv.built l (List.mem_of_getElem? here) live
  simp only [RegisteredWorld.step, here, object, calls, destroy_new]
  rfl

theorem none_live (inv : OnlyOne w) (here : w.lives[i]? = some l) (live : l.alive = true)
    (calls : List HandleCall) :
    (w.lives.set i { l with alive := false, calls := calls }).countP RegisteredLife.alive = 0 := by
  obtain ⟨inside, element⟩ := List.getElem?_eq_some_iff.mp here
  rw [List.countP_set inside, element, live]
  exact Nat.sub_eq_zero_of_le inv.one_live

theorem step (w : RegisteredWorld) (op : RegisteredOp) (inv : OnlyOne w) (admits : w.Admits op)
    (over_one : OverOne op) : OnlyOne (w.step op) := by
  cases op with
  | construct fd answer =>
    cases over_one
    have idle : w.lives.countP RegisteredLife.alive = 0 := by
      apply List.countP_eq_zero.mpr
      intro l present live
      exact admits.2 l present live (inv.sources l present)
    refine ⟨?_, ?_, ?_⟩
    · exact Holders.forall_mem_snoc inv.sources rfl
    · apply Holders.forall_mem_snoc inv.built
      intro live
      cases answer with
      | none => exact ⟨rfl, rfl, rfl⟩
      | some errno => cases live
    · simp only [RegisteredWorld.step, List.countP_append, idle, Nat.zero_add]
      exact List.countP_le_length
  | destroy i =>
    obtain ⟨l, here, live⟩ := admits
    rw [inv.step_destroy here live]
    refine ⟨?_, ?_, ?_⟩
    · apply Holders.forall_mem_set inv.sources
      exact inv.sources l (List.mem_of_getElem? here)
    · apply Holders.forall_mem_set inv.built
      rintro ⟨⟩
    · exact (inv.none_live here live _).le.trans (Nat.zero_le 1)

end OnlyOne

section registration

variable {w : RegisteredWorld}

theorem live_append (lives : List RegisteredLife) (l : RegisteredLife) (fd : Handle) :
    (∃ l' ∈ lives ++ [l], l'.alive = true ∧ l'.source = fd) ↔
      (∃ l' ∈ lives, l'.alive = true ∧ l'.source = fd) ∨ l.alive = true ∧ l.source = fd := by
  simp only [List.mem_append, List.mem_singleton, or_and_right, exists_or, exists_eq_left]

theorem kept_new (executor : EpollExecutor) (interest : Interest) (answer : Option Int32) :
    let made := ExecutorOwnedHandle.new executor 1 answer interest
    KeepsDescriptor ⟨1, answer, made.1, made.1.isSome, made.2.1⟩ := by
  cases answer with
  | none => exact ⟨by simp [new_ok], rfl, by rintro _ ⟨⟩⟩
  | some errno => exact ⟨by simp [new_error], rfl, by rintro ⟨⟩⟩

theorem inStep_construct (fd : Handle) (answer : Option Int32)
    (steady : InStep w) (admits : w.Admits (.construct fd answer)) :
    InStep (w.step (.construct fd answer)) ↔ fd = 1 := by
  constructor
  · intro after
    cases answer with
    | none =>
      have registered := (after.registered fd).mpr ⟨_, List.mem_concat_self, rfl, rfl⟩
      by_contra other
      rw [RegisteredWorld.step, new_ok] at registered
      dsimp only at registered
      rw [Function.update_of_ne other] at registered
      obtain ⟨l, present, live, source⟩ := (steady.registered fd).mp registered
      exact admits.2 l present live source
    | some errno =>
      have closed := (after.kept _ List.mem_concat_self).closes_once
      exact (List.singleton_inj.mp closed).symm
  · rintro rfl
    have idle : ¬ ∃ l ∈ w.lives, l.alive = true ∧ l.source = 1 := by
      rintro ⟨l, present, live, source⟩
      exact admits.2 l present live source
    constructor
    · intro fd
      rw [RegisteredWorld.step, live_append]
      cases answer with
      | none =>
        rw [new_ok]
        by_cases one : fd = 1
        · subst one
          simp
        · dsimp only
          rw [Function.update_of_ne one, steady.registered fd]
          simp [Ne.symm one]
      | some errno =>
        rw [new_error]
        by_cases one : fd = 1
        · subst one
          simpa using idle
        · dsimp only
          rw [Function.update_of_ne one, steady.registered fd]
          simp
    · exact Holders.forall_mem_snoc steady.kept (kept_new w.executor w.interest answer)

theorem inStep_destroy (inv : OnlyOne w) (steady : InStep w) {i : ℕ}
    (admits : w.Admits (.destroy i)) : InStep (w.step (.destroy i)) := by
  obtain ⟨l, here, live⟩ := admits
  have present := List.mem_of_getElem? here
  have source := inv.sources l present
  obtain ⟨object, answer, _⟩ := inv.built l present live
  have registered : (w.interest 1).isSome := (steady.registered 1).mpr ⟨l, present, live, source⟩
  have removed : ExecutorOwnedHandle.kernelRemove w.interest 1 = none := if_pos registered
  rw [inv.step_destroy here live, removed]
  constructor
  · intro fd
    apply iff_of_false
    · intro some
      by_cases one : fd = 1
      · subst one
        simp at some
      · dsimp only at some
        rw [Function.update_of_ne one] at some
        obtain ⟨l', present', live', source'⟩ := (steady.registered fd).mp some
        exact one (source'.symm.trans (inv.sources l' present'))
    · rintro ⟨l', member, live', _⟩
      exact List.countP_eq_zero.mp (inv.none_live here live _) l' member live'
  · apply Holders.forall_mem_set steady.kept
    constructor
    · simp [object, answer]
    · rw [source]
      rfl
    · simp [source]

theorem inStep_step (w : RegisteredWorld) (op : RegisteredOp) (inv : OnlyOne w)
    (steady : InStep w) (admits : w.Admits op) : InStep (w.step op) ↔ OverOne op := by
  cases op with
  | construct fd answer => exact inStep_construct fd answer steady admits
  | destroy i => exact iff_of_true (inStep_destroy inv steady admits) trivial

end registration

/-- The interest set is in step with the handles throughout a run exactly when every
handle is built over descriptor 1, the one that any of them registers and closes. -/
theorem handles_in_step_iff_over_one (this : UInt64) (ops : List RegisteredOp)
    (admitted : Runs.Each RegisteredWorld.step RegisteredWorld.Admits (.new this) ops) :
    Runs.Always RegisteredWorld.step InStep (.new this) ops ↔ ∀ op ∈ ops, OverOne op := by
  have empty : InStep (.new this) := by
    constructor
    · intro fd
      simp [RegisteredWorld.new]
    · rintro l ⟨⟩
  rw [← Runs.each_const RegisteredWorld.step OverOne (.new this) ops]
  exact Runs.always_iff_each OnlyOne.step inStep_step (.start this) empty admitted

theorem handle_over_one_twice :
    Runs.Always RegisteredWorld.step InStep (.new 0)
      [.construct 1 (some ENOENT), .construct 1 none, .destroy 1] :=
  (handles_in_step_iff_over_one 0 _ (by decide)).mpr (by decide)

theorem handle_registers_another_descriptor :
    ¬ ∀ this ops, Runs.Each RegisteredWorld.step RegisteredWorld.Admits (.new this) ops →
      Runs.Always RegisteredWorld.step InStep (.new this) ops := by
  intro claim
  have always := claim 0 [.construct 5 none] (by decide)
  have registered := (always.2.registered 5).mpr ⟨_, List.mem_singleton_self _, rfl, rfl⟩
  exact absurd registered (by decide)

end LibN3
