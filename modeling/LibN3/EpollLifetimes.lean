import LibN3.Epoll
import LibN3.Holders
import LibN3.Runs

/-! The lifetimes of epoll_ctx objects and of the descriptor that each one holds in its
epoll_handle. The kernel gives out a number that is not open, so a number that has been
closed may come back as another descriptor. -/
namespace LibN3

structure EpollHandle where
  efd : Handle
deriving DecidableEq

namespace EpollHandle

/-- epoll_handle(), given what epoll_create1 answered: it throws where that failed. -/
def new (answer : Except Int32 Handle) : Except Int32 EpollHandle := answer.map mk

/-- The only special member there is to make one epoll_handle from another: a class that
declares its destructor gets a copy constructor, and no move constructor. -/
def copy (h : EpollHandle) : EpollHandle := ⟨h.efd⟩

def destroy (h : EpollHandle) : List Syscall := [.close h.efd]

end EpollHandle

inductive EpollCall
  | add (fd : Handle)
  | remove (fd : Handle)
  | wait
deriving DecidableEq

structure EpollCtxObject where
  efd : EpollHandle
deriving DecidableEq

namespace EpollCtxObject

def copyConstruct (c : EpollCtxObject) : EpollCtxObject := ⟨c.efd.copy⟩

/-- The object made and the object moved from. An epoll_handle that is to be moved is
copied, for want of another constructor that takes it. -/
def moveConstruct (c : EpollCtxObject) : EpollCtxObject × EpollCtxObject := (⟨c.efd.copy⟩, c)

def destroy (c : EpollCtxObject) : List Syscall := c.efd.destroy

def descriptor (c : EpollCtxObject) : EpollCall → Handle
  | .add _ => c.efd.efd
  | .remove _ => c.efd.efd
  | .wait => c.efd.efd

end EpollCtxObject

structure CtxLife where
  object : EpollCtxObject
  acquired : ℕ
  alive : Bool
  movedFrom : Bool
deriving DecidableEq

def CtxLife.holds (fd : Handle) (l : CtxLife) : Bool := l.alive && l.object.efd.efd == fd

structure CtxUse where
  movedFrom : Bool
  acquired : ℕ
  found : Option ℕ
deriving DecidableEq

/-- The objects and the process's table of descriptors, which are numbered as they are
obtained, with those closed so far and the calls made on them. -/
structure CtxWorld where
  lives : List CtxLife
  openAs : Handle → Option ℕ
  acquired : ℕ
  closed : List ℕ
  uses : List CtxUse

inductive CtxOp
  | construct (answer : Except Int32 Handle)
  | copy (i : ℕ)
  | move (i : ℕ)
  | destroy (i : ℕ)
  | use (i : ℕ) (call : EpollCall)

namespace CtxWorld

def new : CtxWorld := ⟨[], fun _ => none, 0, [], []⟩

def syscall (w : CtxWorld) : Syscall → CtxWorld
  | .close fd =>
    match w.openAs fd with
    | some id => { w with openAs := Function.update w.openAs fd none, closed := w.closed ++ [id] }
    | none => w
  | .shutdown _ _ => w

def enter (w : CtxWorld) (object : EpollCtxObject) (acquired : ℕ) : CtxWorld :=
  { w with lives := w.lives ++ [⟨object, acquired, true, false⟩] }

def moved (l : CtxLife) : CtxLife :=
  { l with object := l.object.moveConstruct.2, movedFrom := true }

def step (w : CtxWorld) : CtxOp → CtxWorld
  | .construct answer =>
    match EpollHandle.new answer with
    | .error _ => w
    | .ok h =>
      { w.enter ⟨h⟩ w.acquired with
        openAs := Function.update w.openAs h.efd (some w.acquired), acquired := w.acquired + 1 }
  | .copy i =>
    match w.lives[i]? with
    | none => w
    | some l => w.enter l.object.copyConstruct l.acquired
  | .move i =>
    match w.lives[i]? with
    | none => w
    | some l =>
      { w with lives := w.lives.set i (moved l) }.enter l.object.moveConstruct.1 l.acquired
  | .destroy i =>
    match w.lives[i]? with
    | none => w
    | some l =>
      { l.object.destroy.foldl syscall w with lives := w.lives.set i { l with alive := false } }
  | .use i call =>
    match w.lives[i]? with
    | none => w
    | some l =>
      { w with uses := w.uses ++ [⟨l.movedFrom, l.acquired, w.openAs (l.object.descriptor call)⟩] }

/-- epoll_create1 gives out a number that is not open, and only a live object is copied,
moved, destroyed or used. -/
def Admits (w : CtxWorld) : CtxOp → Prop
  | .construct (.ok fd) => w.openAs fd = none
  | .construct (.error _) => True
  | .copy i => ∃ l ∈ w.lives[i]?, l.alive = true
  | .move i => ∃ l ∈ w.lives[i]?, l.alive = true
  | .destroy i => ∃ l ∈ w.lives[i]?, l.alive = true
  | .use i _ => ∃ l ∈ w.lives[i]?, l.alive = true

instance decidableAdmits (w : CtxWorld) (op : CtxOp) : Decidable (w.Admits op) :=
  match op with
  | .construct (.ok fd) => inferInstanceAs (Decidable (w.openAs fd = none))
  | .construct (.error _) => .isTrue trivial
  | .copy i => inferInstanceAs (Decidable (∃ l ∈ w.lives[i]?, l.alive = true))
  | .move i => inferInstanceAs (Decidable (∃ l ∈ w.lives[i]?, l.alive = true))
  | .destroy i => inferInstanceAs (Decidable (∃ l ∈ w.lives[i]?, l.alive = true))
  | .use i _ => inferInstanceAs (Decidable (∃ l ∈ w.lives[i]?, l.alive = true))

def ledger (w : CtxWorld) : Holders.Ledger ℕ :=
  ⟨w.lives.map fun l => ⟨l.acquired, l.alive⟩, w.closed⟩

def sharers (w : CtxWorld) (fd : Handle) : ℕ := w.lives.countP (CtxLife.holds fd)

end CtxWorld

/- A descriptor is closed once, when no object holds it any more, and until it is moved
from an object uses the descriptor that it was made to hold. -/
structure OneOwner (w : CtxWorld) : Prop where
  closed_once : w.ledger.Balanced
  uses_open : ∀ u ∈ w.uses, u.movedFrom = false → u.found = some u.acquired

/- An object is destroyed only as the last that holds its descriptor. -/
def LastHolder (w : CtxWorld) : CtxOp → Prop
  | .destroy i => ∀ l ∈ w.lives[i]?, w.sharers l.object.efd.efd = 1
  | _ => True

instance decidableLastHolder (w : CtxWorld) (op : CtxOp) : Decidable (LastHolder w op) :=
  match op with
  | .construct _ => .isTrue trivial
  | .copy _ => .isTrue trivial
  | .move _ => .isTrue trivial
  | .destroy i => inferInstanceAs (Decidable (∀ l ∈ w.lives[i]?, w.sharers l.object.efd.efd = 1))
  | .use _ _ => .isTrue trivial

/-- What holds while every object is destroyed as the last holder: a live object's number
stands for the descriptor it was made to hold. -/
structure HoldsOpen (w : CtxWorld) : Prop where
  live_open : ∀ l ∈ w.lives, l.alive = true → w.openAs l.object.efd.efd = some l.acquired
  obtained : ∀ l ∈ w.lives, l.acquired < w.acquired
  same_number : ∀ l ∈ w.lives, ∀ other ∈ w.lives, l.acquired = other.acquired →
    l.object.efd.efd = other.object.efd.efd

namespace HoldsOpen

variable {w : CtxWorld} {i : ℕ} {l : CtxLife}

theorem start : HoldsOpen .new where
  live_open := by rintro l ⟨⟩
  obtained := by rintro l ⟨⟩
  same_number := by rintro l ⟨⟩

/-- Only the number, the descriptor and the end of a life matter here, so lives may be added
and changed as long as each has one before it that is like it in these. -/
theorem of_members (inv : HoldsOpen w) {lives : List CtxLife}
    (members : ∀ other ∈ lives, ∃ old ∈ w.lives, other.object.efd.efd = old.object.efd.efd ∧
      other.acquired = old.acquired ∧ (other.alive = true → old.alive = true)) :
    HoldsOpen { w with lives := lives } := by
  refine ⟨?_, ?_, ?_⟩
  · intro other member alive
    obtain ⟨old, before, number, acquired, lived⟩ := members other member
    rw [number, acquired]
    exact inv.live_open old before (lived alive)
  · intro other member
    obtain ⟨old, before, _, acquired, _⟩ := members other member
    rw [acquired]
    exact inv.obtained old before
  · intro other member third member' same
    obtain ⟨old, before, number, acquired, _⟩ := members other member
    obtain ⟨old', before', number', acquired', _⟩ := members third member'
    rw [acquired, acquired'] at same
    rw [number, number']
    exact inv.same_number old before old' before' same

theorem relabel (inv : HoldsOpen w) (present : l ∈ w.lives) (l' : CtxLife)
    (number : l'.object.efd.efd = l.object.efd.efd) (acquired : l'.acquired = l.acquired)
    (alive : l'.alive = true → l.alive = true) (i : ℕ) :
    HoldsOpen { w with lives := w.lives.set i l' } := by
  apply inv.of_members
  apply Holders.forall_mem_set
  · intro other old
    exact ⟨other, old, rfl, rfl, id⟩
  · exact ⟨l, present, number, acquired, alive⟩

theorem share (inv : HoldsOpen w) (present : l ∈ w.lives) (live : l.alive = true) :
    HoldsOpen (w.enter l.object l.acquired) := by
  apply inv.of_members
  apply Holders.forall_mem_snoc
  · intro other old
    exact ⟨other, old, rfl, rfl, id⟩
  · exact ⟨l, present, rfl, rfl, fun _ => live⟩

theorem obtain_new (inv : HoldsOpen w) {fd : Handle} (closed : w.openAs fd = none) :
    HoldsOpen (w.step (.construct (.ok fd))) := by
  refine ⟨?_, ?_, ?_⟩
  · apply Holders.forall_mem_snoc
    · intro other old alive
      have before := inv.live_open other old alive
      have apart : other.object.efd.efd ≠ fd := by
        rintro rfl
        rw [closed] at before
        cases before
      exact (Function.update_of_ne apart _ _).trans before
    · intro _
      exact Function.update_self _ _ _
  · exact Holders.forall_mem_snoc (fun other old => Nat.lt_succ_of_lt (inv.obtained other old))
      (Nat.lt_succ_self _)
  · intro other member third member' same
    rcases List.mem_append.mp member with old | new
    · rcases List.mem_append.mp member' with old' | new'
      · exact inv.same_number other old third old' same
      · rw [List.mem_singleton.mp new'] at same
        exact absurd same (inv.obtained other old).ne
    · rcases List.mem_append.mp member' with old' | new'
      · rw [List.mem_singleton.mp new] at same
        exact absurd same.symm (inv.obtained third old').ne
      · rw [List.mem_singleton.mp new, List.mem_singleton.mp new']

theorem sharers_eq (inv : HoldsOpen w) (present : l ∈ w.lives) (live : l.alive = true) :
    w.sharers l.object.efd.efd = w.ledger.holding l.acquired := by
  unfold CtxWorld.sharers Holders.Ledger.holding CtxWorld.ledger
  rw [List.count, List.countP_map]
  apply List.countP_congr
  intro other member
  simp only [CtxLife.holds, Bool.and_eq_true, beq_iff_eq, Function.comp_apply,
    Holders.Holder.mk.injEq]
  constructor
  · rintro ⟨alive, number⟩
    have here := inv.live_open l present live
    rw [← number, inv.live_open other member alive] at here
    exact ⟨Option.some.inj here, alive⟩
  · rintro ⟨same, alive⟩
    exact ⟨alive, inv.same_number other member l present same⟩

theorem moved_get (here : w.lives[i]? = some l) :
    (w.lives.set i (CtxWorld.moved l))[i]? = some (CtxWorld.moved l) :=
  List.getElem?_set_self (List.getElem?_eq_some_iff.mp here).1

theorem step_destroy (inv : HoldsOpen w) (here : w.lives[i]? = some l) (live : l.alive = true) :
    w.step (.destroy i) = { w with
      lives := w.lives.set i { l with alive := false }
      openAs := Function.update w.openAs l.object.efd.efd none
      closed := w.closed ++ [l.acquired] } := by
  have found := inv.live_open l (List.mem_of_getElem? here) live
  simp [CtxWorld.step, here, EpollCtxObject.destroy, EpollHandle.destroy, CtxWorld.syscall, found]

theorem destroy (inv : HoldsOpen w) (here : w.lives[i]? = some l) (live : l.alive = true)
    (last : w.sharers l.object.efd.efd = 1) : HoldsOpen (w.step (.destroy i)) := by
  have present := List.mem_of_getElem? here
  have marked := inv.relabel present { l with alive := false } rfl rfl (by rintro ⟨⟩) i
  rw [inv.step_destroy here live]
  refine ⟨?_, marked.obtained, marked.same_number⟩
  intro other member alive
  have apart : other.object.efd.efd ≠ l.object.efd.efd := by
    intro same
    obtain ⟨inside, element⟩ := List.getElem?_eq_some_iff.mp here
    have holds : CtxLife.holds l.object.efd.efd l = true := by simp [CtxLife.holds, live]
    have ended : CtxLife.holds l.object.efd.efd { l with alive := false } = false := rfl
    have others : (w.lives.set i { l with alive := false }).countP
        (CtxLife.holds l.object.efd.efd) = 0 := by
      rw [List.countP_set inside, element, holds, ended]
      exact Nat.sub_eq_zero_of_le (Nat.le_of_eq last)
    exact absurd (List.countP_eq_zero.mp others other member) (by simp [CtxLife.holds, alive, same])
  exact (Function.update_of_ne apart _ _).trans (marked.live_open other member alive)

theorem step (w : CtxWorld) (op : CtxOp) (inv : HoldsOpen w) (admits : w.Admits op)
    (last : LastHolder w op) : HoldsOpen (w.step op) := by
  rcases op with ⟨errno | fd⟩ | i | i | i | ⟨i, call⟩
  · exact inv
  · exact inv.obtain_new admits
  · obtain ⟨l, here, live⟩ := admits
    simp only [CtxWorld.step, Option.mem_def.mp here]
    exact inv.share (List.mem_of_getElem? here) live
  · obtain ⟨l, here, live⟩ := admits
    simp only [CtxWorld.step, Option.mem_def.mp here]
    have marked := inv.relabel (List.mem_of_getElem? here) (CtxWorld.moved l) rfl rfl id i
    exact marked.share (l := CtxWorld.moved l) (List.mem_of_getElem? (moved_get here)) live
  · obtain ⟨l, here, live⟩ := admits
    exact inv.destroy here live (last l here)
  · obtain ⟨l, here, live⟩ := admits
    simp only [CtxWorld.step, Option.mem_def.mp here]
    exact ⟨inv.live_open, inv.obtained, inv.same_number⟩

end HoldsOpen

section ledger

variable {w : CtxWorld} {i : ℕ} {l : CtxLife}

theorem ledger_enter (w : CtxWorld) (object : EpollCtxObject) (acquired : ℕ) :
    (w.enter object acquired).ledger = w.ledger.acquire acquired := by
  simp [CtxWorld.ledger, CtxWorld.enter, Holders.Ledger.acquire]

theorem ledger_get (here : w.lives[i]? = some l) :
    w.ledger.holders[i]? = some ⟨l.acquired, l.alive⟩ := by
  simp [CtxWorld.ledger, here]

theorem ledger_copy (balanced : w.ledger.Balanced) (here : w.lives[i]? = some l)
    (live : l.alive = true) (object : EpollCtxObject) :
    (w.enter object l.acquired).ledger.Balanced := by
  have holder := ledger_get here
  rw [live] at holder
  rw [ledger_enter]
  exact Holders.Ledger.balanced_acquire balanced fun _ => Holders.Ledger.holding_pos holder

theorem not_obtained (inv : HoldsOpen w) (known : w.acquired ∈
    w.ledger.holders.map Holders.Holder.resource) : 0 < w.ledger.holding w.acquired := by
  obtain ⟨holder, member, resource⟩ := List.mem_map.mp known
  obtain ⟨l, present, rfl⟩ := List.mem_map.mp member
  exact absurd resource (inv.obtained l present).ne

theorem ledger_destroy (inv : HoldsOpen w) (here : w.lives[i]? = some l) (live : l.alive = true) :
    (w.step (.destroy i)).ledger = w.ledger.drop i l.acquired := by
  rw [inv.step_destroy here live]
  simp [CtxWorld.ledger, Holders.Ledger.drop, List.map_set]

theorem oneOwner_destroy (inv : HoldsOpen w) (one : OneOwner w) (here : w.lives[i]? = some l)
    (live : l.alive = true) : OneOwner (w.step (.destroy i)) ↔ w.sharers l.object.efd.efd = 1 := by
  have holder := ledger_get here
  rw [live] at holder
  have alone := Holders.Ledger.balanced_drop_iff one.closed_once holder
  rw [← inv.sharers_eq (List.mem_of_getElem? here) live, ← ledger_destroy inv here live] at alone
  constructor
  · rintro ⟨closed_once, _⟩
    exact alone.mp closed_once
  · intro last
    refine ⟨alone.mpr last, ?_⟩
    rw [inv.step_destroy here live]
    exact one.uses_open

theorem oneOwner_step (w : CtxWorld) (op : CtxOp) (inv : HoldsOpen w) (one : OneOwner w)
    (admits : w.Admits op) : OneOwner (w.step op) ↔ LastHolder w op := by
  rcases op with ⟨errno | fd⟩ | i | i | i | ⟨i, call⟩
  · exact iff_of_true one trivial
  · have fresh := Holders.Ledger.balanced_acquire one.closed_once (not_obtained inv)
    rw [← ledger_enter w ⟨⟨fd⟩⟩] at fresh
    exact iff_of_true ⟨fresh, one.uses_open⟩ trivial
  · obtain ⟨l, here, live⟩ := admits
    simp only [CtxWorld.step, Option.mem_def.mp here]
    exact iff_of_true ⟨ledger_copy one.closed_once here live _, one.uses_open⟩ trivial
  · obtain ⟨l, here, live⟩ := admits
    simp only [CtxWorld.step, Option.mem_def.mp here]
    have same : CtxWorld.ledger { w with lives := w.lives.set i (CtxWorld.moved l) } = w.ledger :=
      congrArg (Holders.Ledger.mk · w.closed) (Holders.map_set_same here rfl)
    have balanced := one.closed_once
    rw [← same] at balanced
    have copied := ledger_copy balanced (HoldsOpen.moved_get here) live l.object.moveConstruct.1
    exact iff_of_true ⟨copied, one.uses_open⟩ trivial
  · obtain ⟨l, here, live⟩ := admits
    have last : LastHolder w (.destroy i) ↔ w.sharers l.object.efd.efd = 1 := by
      simp only [LastHolder, Option.mem_def.mp here, Option.mem_some_iff, forall_eq']
    rw [last]
    exact oneOwner_destroy inv one here live
  · obtain ⟨l, here, live⟩ := admits
    simp only [CtxWorld.step, Option.mem_def.mp here]
    refine iff_of_true ⟨one.closed_once, ?_⟩ trivial
    apply Holders.forall_mem_snoc one.uses_open
    intro _
    have found := inv.live_open l (List.mem_of_getElem? here) live
    cases call <;> exact found

end ledger

/-- Copies and moves share a descriptor that each owner closes. So it has one owner
throughout a run exactly when no object is destroyed while another holds its number. -/
theorem one_owner_iff_last_holder (ops : List CtxOp)
    (admitted : Runs.Each CtxWorld.step CtxWorld.Admits .new ops) :
    Runs.Always CtxWorld.step OneOwner .new ops ↔
      Runs.Each CtxWorld.step LastHolder .new ops := by
  have none_closed : OneOwner .new := ⟨Holders.Ledger.balanced_empty, by rintro u ⟨⟩⟩
  exact Runs.always_iff_each HoldsOpen.step oneOwner_step .start none_closed admitted

theorem two_epolls_one_owner :
    Runs.Always CtxWorld.step OneOwner .new
      [.construct (.ok 3), .use 0 (.add 8), .construct (.ok 4), .destroy 0, .construct (.ok 3),
        .use 2 .wait, .destroy 1, .destroy 2] :=
  (one_owner_iff_last_holder _ (by decide)).mpr (by decide)

/-- An object is moved from and destroyed, and the one it was moved to has no descriptor. -/
theorem moved_from_closes_epoll :
    ¬ ∀ ops, Runs.Each CtxWorld.step CtxWorld.Admits .new ops →
      Runs.Always CtxWorld.step OneOwner .new ops := by
  intro claim
  have always := claim [.construct (.ok 3), .move 0, .destroy 0, .use 1 .wait] (by decide)
  obtain ⟨_, _, _, _, used⟩ := always
  have use : (⟨false, 0, none⟩ : CtxUse) ∈ [⟨false, 0, none⟩] := List.mem_cons_self
  exact absurd (used.uses_open _ use rfl) (by decide)

end LibN3
