import LibN3.Holders
import LibN3.Ownership
import LibN3.Runs

/-! OwnedCoroutine of ownership.h and the tasks that have one, Task of io_uring.h and
EpollTask of epoll_executor.h. Frames are numbered as coroutines make them, so a number
is never given to a second frame. Both tasks keep their promise_type private, and are taken
here as they would be with it accessible. -/
namespace LibN3

/-- A std::coroutine_handle: the frame it refers to, or none for a null handle. -/
abbrev CoroutineHandle := Option ℕ

def nullptr : CoroutineHandle := none

structure OwnedCoroutine where
  coro : MoveOnly CoroutineHandle
deriving DecidableEq

namespace OwnedCoroutine

/-- coro{nullptr}. A handle can be made from a null pointer, so of MoveOnly's constructors
this calls the one that makes a value from its arguments. -/
def new : OwnedCoroutine := ⟨.new nullptr⟩

def ofHandle (handle : CoroutineHandle) : OwnedCoroutine := ⟨.new handle⟩

/-- The constructor that forwards its arguments, which takes a handle that is not moved. -/
def ofArgs (handle : CoroutineHandle) : OwnedCoroutine := ⟨.new handle⟩

/-- The handles that the destructor calls destroy() on. -/
def destroy (o : OwnedCoroutine) : List CoroutineHandle :=
  if o.coro.hasValue then o.coro.inner.toList else []

end OwnedCoroutine

structure Task where
  coroHandle : OwnedCoroutine
deriving DecidableEq

def Task.new : Task := ⟨.new⟩

def Task.ofHandle (handle : CoroutineHandle) : Task := ⟨.ofArgs handle⟩

structure EpollTask where
  coroHandle : OwnedCoroutine
deriving DecidableEq

def EpollTask.new : EpollTask := ⟨.new⟩

def EpollTask.ofHandle (handle : CoroutineHandle) : EpollTask := ⟨.ofArgs handle⟩

inductive OwnerKind
  | ownedCoroutine
  | task
  | epollTask
deriving DecidableEq

namespace OwnerKind

/- The OwnedCoroutine that is the object, or its only member. -/
def new : OwnerKind → OwnedCoroutine
  | .ownedCoroutine => OwnedCoroutine.new
  | .task => Task.new.coroHandle
  | .epollTask => EpollTask.new.coroHandle

def ofHandle : OwnerKind → CoroutineHandle → OwnedCoroutine
  | .ownedCoroutine, handle => OwnedCoroutine.ofHandle handle
  | .task, handle => (Task.ofHandle handle).coroHandle
  | .epollTask, handle => (EpollTask.ofHandle handle).coroHandle

theorem new_eq (kind : OwnerKind) : kind.new = ⟨.new nullptr⟩ := by
  cases kind <;> rfl

theorem ofHandle_eq (kind : OwnerKind) (handle : CoroutineHandle) :
    kind.ofHandle handle = ⟨.new handle⟩ := by
  cases kind <;> rfl

end OwnerKind

structure OwnerLife where
  owner : OwnedCoroutine
  alive : Bool
deriving DecidableEq

/-- The owners, and the handles that destroy() was called on. -/
structure CoroutineWorld where
  lives : List OwnerLife
  destroyed : List CoroutineHandle
deriving DecidableEq

inductive OwnerOp
  | construct (kind : OwnerKind)
  | adopt (kind : OwnerKind) (frame : ℕ)
  | destroy (i : ℕ)
deriving DecidableEq

def OwnerLife.handle (l : OwnerLife) : CoroutineHandle := l.owner.coro.inner.getD nullptr

namespace CoroutineWorld

def new : CoroutineWorld := ⟨[], []⟩

def enter (w : CoroutineWorld) (owner : OwnedCoroutine) : CoroutineWorld :=
  { w with lives := w.lives ++ [⟨owner, true⟩] }

def step (w : CoroutineWorld) : OwnerOp → CoroutineWorld
  | .construct kind => w.enter kind.new
  | .adopt kind frame => w.enter (kind.ofHandle (some frame))
  | .destroy i =>
    match w.lives[i]? with
    | none => w
    | some l => ⟨w.lives.set i { l with alive := false }, w.destroyed ++ l.owner.destroy⟩

/-- A frame is handed to one owner, which destroys it, and an owner ends once. -/
def Admits (w : CoroutineWorld) : OwnerOp → Prop
  | .construct _ => True
  | .adopt _ frame => ∀ l ∈ w.lives, l.handle ≠ some frame
  | .destroy i => ∃ l ∈ w.lives[i]?, l.alive = true

instance decidableAdmits (w : CoroutineWorld) (op : OwnerOp) : Decidable (w.Admits op) :=
  match op with
  | .construct _ => .isTrue trivial
  | .adopt _ frame => List.decidableBAll (fun l : OwnerLife => l.handle ≠ some frame) w.lives
  | .destroy i => inferInstanceAs (Decidable (∃ l ∈ w.lives[i]?, l.alive = true))

def ledger (w : CoroutineWorld) : Holders.Ledger CoroutineHandle :=
  ⟨w.lives.map fun l => ⟨l.handle, l.alive⟩, w.destroyed⟩

end CoroutineWorld

/- Each frame is destroyed once, when its owner ends, and no null handle is. -/
structure DestroyedOnce (w : CoroutineWorld) : Prop where
  once : w.ledger.Balanced
  no_null : nullptr ∉ w.destroyed

/- The owner that ends was not default-constructed. -/
def EndsWithFrame (w : CoroutineWorld) : OwnerOp → Prop
  | .destroy i => ∀ l ∈ w.lives[i]?, l.handle ≠ nullptr
  | _ => True

instance decidableEndsWithFrame (w : CoroutineWorld) (op : OwnerOp) :
    Decidable (EndsWithFrame w op) :=
  match op with
  | .construct _ => .isTrue trivial
  | .adopt _ _ => .isTrue trivial
  | .destroy i => inferInstanceAs (Decidable (∀ l ∈ w.lives[i]?, l.handle ≠ nullptr))

/-- Every owner has a value, if only a null handle, and no frame has two owners. -/
structure OwnedApart (w : CoroutineWorld) : Prop where
  engaged : ∀ l ∈ w.lives, l.owner.coro = .new l.handle
  apart : ∀ frame, (w.lives.map OwnerLife.handle).count (some frame) ≤ 1

namespace OwnedApart

variable {w : CoroutineWorld} {i : ℕ} {l : OwnerLife}

theorem start : OwnedApart .new where
  engaged := by rintro l ⟨⟩
  apart := fun _ => Nat.zero_le 1

theorem enter (inv : OwnedApart w) (handle : CoroutineHandle)
    (fresh : ∀ l ∈ w.lives, handle ≠ nullptr → l.handle ≠ handle) :
    OwnedApart (w.enter ⟨.new handle⟩) := by
  constructor
  · exact Holders.forall_mem_snoc inv.engaged rfl
  · intro frame
    have entering : [(⟨⟨.new handle⟩, true⟩ : OwnerLife)].map OwnerLife.handle = [handle] := rfl
    rw [CoroutineWorld.enter, List.map_append, List.count_append, entering]
    by_cases same : handle = some frame
    · subst same
      have none_before : (w.lives.map OwnerLife.handle).count (some frame) = 0 := by
        apply List.count_eq_zero.mpr
        intro known
        obtain ⟨l, present, held⟩ := List.mem_map.mp known
        exact fresh l present (Option.some_ne_none frame) held
      have once : (w.lives.map OwnerLife.handle).count (some frame) +
          [some frame].count (some frame) = 1 := by
        rw [none_before, List.count_singleton_self]
      exact Nat.le_of_eq once
    · rw [List.count_singleton, if_neg (by simpa using same)]
      exact inv.apart frame

theorem step_destroy (inv : OwnedApart w) (here : w.lives[i]? = some l) :
    w.step (.destroy i) = ⟨w.lives.set i { l with alive := false }, w.destroyed ++ [l.handle]⟩ := by
  have value := inv.engaged l (List.mem_of_getElem? here)
  simp [CoroutineWorld.step, here, OwnedCoroutine.destroy, value, MoveOnly.hasValue, MoveOnly.new]

theorem step (w : CoroutineWorld) (op : OwnerOp) (inv : OwnedApart w) (admits : w.Admits op) :
    OwnedApart (w.step op) := by
  cases op with
  | construct kind =>
    rw [CoroutineWorld.step, kind.new_eq]
    exact inv.enter nullptr fun _ _ some => absurd rfl some
  | adopt kind frame =>
    rw [CoroutineWorld.step, kind.ofHandle_eq]
    exact inv.enter (some frame) fun l present _ => admits l present
  | destroy i =>
    obtain ⟨l, here, live⟩ := admits
    rw [inv.step_destroy here]
    constructor
    · apply Holders.forall_mem_set inv.engaged
      exact inv.engaged l (List.mem_of_getElem? here)
    · intro frame
      have same : (w.lives.set i { l with alive := false }).map OwnerLife.handle =
          w.lives.map OwnerLife.handle := Holders.map_set_same here rfl
      dsimp only
      rw [same]
      exact inv.apart frame

end OwnedApart

section ledger

variable {w : CoroutineWorld} {i : ℕ} {l : OwnerLife}

theorem ledger_enter_owner (w : CoroutineWorld) (handle : CoroutineHandle) :
    (w.enter ⟨.new handle⟩).ledger = w.ledger.acquire handle := by
  simp [CoroutineWorld.ledger, CoroutineWorld.enter, Holders.Ledger.acquire, OwnerLife.handle,
    MoveOnly.new]

theorem ledger_get_owner (here : w.lives[i]? = some l) :
    w.ledger.holders[i]? = some ⟨l.handle, l.alive⟩ := by
  simp [CoroutineWorld.ledger, here]

theorem ledger_end (inv : OwnedApart w) (here : w.lives[i]? = some l) :
    (w.step (.destroy i)).ledger = w.ledger.drop i l.handle := by
  rw [inv.step_destroy here]
  simp [CoroutineWorld.ledger, Holders.Ledger.drop, List.map_set, OwnerLife.handle]

theorem holding_le_one (inv : OwnedApart w) (frame : ℕ) : w.ledger.holding (some frame) ≤ 1 := by
  apply Nat.le_trans _ (inv.apart frame)
  unfold Holders.Ledger.holding CoroutineWorld.ledger
  rw [List.count, List.count, List.countP_map, List.countP_map]
  apply List.countP_mono_left
  intro l _ held
  have holder : (⟨l.handle, l.alive⟩ : Holders.Holder CoroutineHandle) = ⟨some frame, true⟩ := by
    simpa using held
  simpa using congrArg Holders.Holder.resource holder

/-- An owner may end exactly when it has a frame to destroy. -/
theorem destroyedOnce_destroy (inv : OwnedApart w) (once : DestroyedOnce w)
    (here : w.lives[i]? = some l) (live : l.alive = true) :
    DestroyedOnce (w.step (.destroy i)) ↔ l.handle ≠ nullptr := by
  have holder := ledger_get_owner here
  rw [live] at holder
  have alone := Holders.Ledger.balanced_drop_iff once.once holder
  constructor
  · rintro ⟨_, no_null⟩ null
    rw [inv.step_destroy here, null] at no_null
    exact no_null (by simp)
  · intro with_frame
    obtain ⟨frame, handle⟩ := Option.ne_none_iff_exists'.mp with_frame
    have one : w.ledger.holding l.handle = 1 := by
      have some_hold := Holders.Ledger.holding_pos holder
      have at_most := holding_le_one inv frame
      rw [← handle] at at_most
      omega
    constructor
    · rw [ledger_end inv here]
      exact alone.mpr one
    · rw [inv.step_destroy here]
      intro member
      rcases List.mem_append.mp member with old | new
      · exact once.no_null old
      · exact with_frame (List.mem_singleton.mp new).symm

theorem destroyedOnce_step (w : CoroutineWorld) (op : OwnerOp) (inv : OwnedApart w)
    (once : DestroyedOnce w) (admits : w.Admits op) :
    DestroyedOnce (w.step op) ↔ EndsWithFrame w op := by
  cases op with
  | construct kind =>
    rw [CoroutineWorld.step, kind.new_eq]
    refine iff_of_true ⟨?_, once.no_null⟩ trivial
    rw [ledger_enter_owner]
    apply Holders.Ledger.balanced_acquire once.once
    -- A null handle that has an owner still has one, as none was ever destroyed.
    exact Holders.Ledger.held_of_unreleased once.once once.no_null
  | adopt kind frame =>
    rw [CoroutineWorld.step, kind.ofHandle_eq]
    refine iff_of_true ⟨?_, once.no_null⟩ trivial
    rw [ledger_enter_owner]
    apply Holders.Ledger.balanced_acquire once.once
    intro known
    obtain ⟨holder, member, resource⟩ := List.mem_map.mp known
    obtain ⟨l, present, rfl⟩ := List.mem_map.mp member
    exact absurd resource (admits l present)
  | destroy i =>
    obtain ⟨l, here, live⟩ := admits
    have ends : EndsWithFrame w (.destroy i) ↔ l.handle ≠ nullptr := by
      simp only [EndsWithFrame, Option.mem_def.mp here, Option.mem_some_iff, forall_eq']
    rw [ends]
    exact destroyedOnce_destroy inv once here live

end ledger

/-- An owner that is default-constructed holds a null handle as its value. So frames are
destroyed once, and nothing else is, exactly when no such owner ends. -/
theorem destroyed_once_iff_end_with_frame (ops : List OwnerOp)
    (admitted : Runs.Each CoroutineWorld.step CoroutineWorld.Admits .new ops) :
    Runs.Always CoroutineWorld.step DestroyedOnce .new ops ↔
      Runs.Each CoroutineWorld.step EndsWithFrame .new ops := by
  have preserves := fun w op inv admits (_ : EndsWithFrame w op) => OwnedApart.step w op inv admits
  have none_destroyed : DestroyedOnce .new := ⟨Holders.Ledger.balanced_empty, List.not_mem_nil⟩
  exact Runs.always_iff_each preserves destroyedOnce_step .start none_destroyed admitted

theorem frames_destroyed_once :
    Runs.Always CoroutineWorld.step DestroyedOnce .new
      [.adopt .task 0, .construct .epollTask, .adopt .ownedCoroutine 1, .destroy 2, .destroy 0] :=
  (destroyed_once_iff_end_with_frame _ (by decide)).mpr (by decide)

theorem default_task_destroys_null :
    ¬ ∀ ops, Runs.Each CoroutineWorld.step CoroutineWorld.Admits .new ops →
      Runs.Always CoroutineWorld.step DestroyedOnce .new ops := by
  intro claim
  have always := claim [.construct .task, .destroy 0] (by decide)
  exact absurd always.2.2.no_null (by decide)

end LibN3
