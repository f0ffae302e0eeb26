import LibN3.Answers
import LibN3.Holders
import LibN3.Ownership
import LibN3.Runs

/-! io_uring_handle of io_uring.h, and runs that build such handles and destroy them. What the
two calls of liburing return is given for each. Where its MoveOnly is empty, operator* is taken
to give the storage inside, as it does in a library that does not check. -/
namespace LibN3.Linux.IoUring
open Error

structure Ring where
  ringFd : Handle
deriving DecidableEq

inductive RingCall
  | queueInitParams (ret : Int32)
  | registerRingFd (ret : Int32)
  | queueExit
deriving DecidableEq

structure RingAccess where
  call : RingCall
  engaged : Bool
deriving DecidableEq

structure IoUringHandle where
  ring : MoveOnly Ring
deriving DecidableEq

namespace IoUringHandle

/- &*this->ring -/
def access (ring : MoveOnly Ring) (call : RingCall) : RingAccess := ⟨call, ring.hasValue⟩

/-- The object, unless the constructor throws, and the calls that it makes. What is stored
through the pointer gives the member no value. -/
def new (initRet registerRet : Int32) :
    Except Halt (Except ErrorCode IoUringHandle) × List RingAccess :=
  let ring : MoveOnly Ring := .empty
  let init := access ring (.queueInitParams initRet)
  if initRet ≠ 0 then ((getErrorCodeFromErrno (-initRet)).map .error, [init])
  else
    let register := access ring (.registerRingFd registerRet)
    if registerRet ≠ 0 then ((getErrorCodeFromErrno (-registerRet)).map .error, [init, register])
    else (.ok (.ok ⟨ring⟩), [init, register])

def destroy (o : IoUringHandle) : List RingAccess :=
  if o.ring.hasValue then [access o.ring .queueExit] else []

end IoUringHandle

structure RingLife where
  initRet : Int32
  registerRet : Int32
  made : Except Halt (Except ErrorCode IoUringHandle)
  alive : Bool
  accesses : List RingAccess

namespace RingLife

def new (initRet registerRet : Int32) : RingLife :=
  let made := IoUringHandle.new initRet registerRet
  ⟨initRet, registerRet, made.1, made.1 matches .ok (.ok _), made.2⟩

def destroy (l : RingLife) : RingLife :=
  match l.made with
  | .ok (.ok o) => { l with alive := false, accesses := l.accesses ++ o.destroy }
  | _ => l

def halted (l : RingLife) : Bool := l.made matches .error _

/-- The errno of the call that failed. A ring that is registered has 1 returned for it. -/
def failure (l : RingLife) : Option Int32 :=
  if l.initRet ≠ 0 then some (-l.initRet)
  else if l.registerRet < 0 then some (-l.registerRet)
  else none

def exits (l : RingLife) : ℕ := (l.accesses.map RingAccess.call).count .queueExit

def Reports (l : RingLife) : Prop :=
  match l.failure with
  | some errno => ∃ error : PosixError, l.made = .ok (.error (.posix error)) ∧
      error.toUnderlying = errno
  | none => ∃ o, l.made = .ok (.ok o)

def Engaged (l : RingLife) : Prop := ∀ a ∈ l.accesses, a.engaged = true

/- A ring that was initialised is given up once, when there is no object for it. -/
def Released (l : RingLife) : Prop :=
  l.exits = if l.initRet = 0 ∧ l.alive = false then 1 else 0

end RingLife

structure KeepsRing (l : RingLife) : Prop where
  reports : l.Reports
  engaged : l.Engaged
  released : l.Released

inductive RingOp
  | construct (initRet registerRet : Int32)
  | destroy (i : ℕ)
deriving DecidableEq

abbrev RingWorld := List RingLife

namespace RingWorld

def step (w : RingWorld) : RingOp → RingWorld
  | .construct initRet registerRet => w ++ [.new initRet registerRet]
  | .destroy i =>
    match w[i]? with
    | none => w
    | some l => w.set i l.destroy

/-- Each call succeeds or returns a negative errno, nothing follows the end of the program, and
only a live object is destroyed. -/
def Admits (w : RingWorld) : RingOp → Prop
  | .construct initRet registerRet =>
    (∀ l ∈ w, l.halted = false) ∧ initRet ≤ 0 ∧ (registerRet = 1 ∨ registerRet < 0)
  | .destroy i => ∃ l ∈ w[i]?, l.alive = true

instance decidableAdmits (w : RingWorld) (op : RingOp) : Decidable (w.Admits op) :=
  match op with
  | .construct initRet registerRet =>
    @instDecidableAnd _ _ (List.decidableBAll (fun l : RingLife => l.halted = false) w)
      (inferInstanceAs (Decidable (initRet ≤ 0 ∧ (registerRet = 1 ∨ registerRet < 0))))
  | .destroy i => inferInstanceAs (Decidable (∃ l ∈ w[i]?, l.alive = true))

end RingWorld

def RingOp.Meets (Q : RingLife → Prop) : RingOp → Prop
  | .construct initRet registerRet => Q (.new initRet registerRet)
  | .destroy _ => True

section lives

variable {initRet registerRet : Int32}

theorem nonzero_of_answers (answers : registerRet = 1 ∨ registerRet < 0) : registerRet ≠ 0 := by
  rintro rfl
  exact absurd answers (by decide)

/-- What a construction comes to. A ring that is registered has 1 returned for it, which the
constructor takes for a failure. -/
theorem new_cases (initRet : Int32) (answers : registerRet = 1 ∨ registerRet < 0) :
    (initRet ≠ 0 ∧ RingLife.new initRet registerRet =
      ⟨initRet, registerRet, (getErrorCodeFromErrno (-initRet)).map .error, false,
        [⟨.queueInitParams initRet, false⟩]⟩) ∨
    (initRet = 0 ∧ RingLife.new initRet registerRet =
      ⟨0, registerRet, (getErrorCodeFromErrno (-registerRet)).map .error, false,
        [⟨.queueInitParams 0, false⟩, ⟨.registerRingFd registerRet, false⟩]⟩) := by
  by_cases initialised : initRet = 0
  · refine .inr ⟨initialised, ?_⟩
    subst initialised
    have made : IoUringHandle.new 0 registerRet =
        ((getErrorCodeFromErrno (-registerRet)).map .error,
          [⟨.queueInitParams 0, false⟩, ⟨.registerRingFd registerRet, false⟩]) :=
      if_pos (nonzero_of_answers answers)
    simp only [RingLife.new, made]
    cases getErrorCodeFromErrno (-registerRet) <;> rfl
  · refine .inl ⟨initialised, ?_⟩
    have made : IoUringHandle.new initRet registerRet =
        ((getErrorCodeFromErrno (-initRet)).map .error, [⟨.queueInitParams initRet, false⟩]) :=
      if_pos initialised
    simp only [RingLife.new, made]
    cases getErrorCodeFromErrno (-initRet) <;> rfl

theorem new_not_alive (answers : registerRet = 1 ∨ registerRet < 0) :
    (RingLife.new initRet registerRet).alive = false := by
  rcases new_cases initRet answers with ⟨_, made⟩ | ⟨_, made⟩ <;> rw [made]

theorem not_engaged (answers : registerRet = 1 ∨ registerRet < 0) :
    ¬ (RingLife.new initRet registerRet).Engaged := by
  intro engaged
  rcases new_cases initRet answers with ⟨_, made⟩ | ⟨_, made⟩
  · rw [RingLife.Engaged, made] at engaged
    cases engaged _ List.mem_cons_self
  · rw [RingLife.Engaged, made] at engaged
    cases engaged _ List.mem_cons_self

theorem reports_iff (answers : registerRet = 1 ∨ registerRet < 0) :
    (RingLife.new initRet registerRet).Reports ↔
      ∃ errno ∈ (RingLife.new initRet registerRet).failure, Enumerated errno := by
  rcases new_cases initRet answers with ⟨failed, made⟩ | ⟨rfl, made⟩
  · rw [made]
    simp only [RingLife.Reports, RingLife.failure, ne_eq, failed, not_false_eq_true, if_true,
      Option.mem_some_iff, exists_eq_left']
    exact makes_unexpected_iff (-initRet)
  · rw [made]
    rcases answers with rfl | negative
    · have unreachable : (getErrorCodeFromErrno (-1)).map .error =
          (.error .unreachable : Except Halt (Except ErrorCode IoUringHandle)) := rfl
      rw [unreachable]
      exact iff_of_false (by rintro ⟨_, ⟨⟩⟩) (by rintro ⟨_, ⟨⟩, _⟩)
    · simp only [RingLife.Reports, RingLife.failure, negative, ne_eq, not_true_eq_false, if_false,
        if_true, Option.mem_some_iff, exists_eq_left']
      exact makes_unexpected_iff (-registerRet)

/-- No ring is ever given up, which is right for one that was not initialised. -/
theorem released_iff (answers : registerRet = 1 ∨ registerRet < 0) :
    (RingLife.new initRet registerRet).Released ↔ initRet ≠ 0 := by
  rcases new_cases initRet answers with ⟨failed, made⟩ | ⟨rfl, made⟩
  · rw [made]
    exact iff_of_true (by simp [RingLife.Released, RingLife.exits, failed]) failed
  · rw [made]
    exact iff_of_false (by simp [RingLife.Released, RingLife.exits]) (not_not_intro rfl)

end lives

/-- So a run is as good as the constructions in it: there is no object that could be destroyed. -/
theorem always_lives_iff (Q : RingLife → Prop) {ops : List RingOp}
    (admitted : Runs.Each RingWorld.step RingWorld.Admits [] ops) :
    Runs.Always RingWorld.step (fun w => ∀ l ∈ w, Q l) [] ops ↔ ∀ op ∈ ops, op.Meets Q := by
  have none_alive : ∀ l ∈ ([] : RingWorld), l.alive = false := by
    rintro l ⟨⟩
  have preserves (w : RingWorld) (op : RingOp) (inv : ∀ l ∈ w, l.alive = false)
      (admits : w.Admits op) (_ : op.Meets Q) : ∀ l ∈ w.step op, l.alive = false := by
    cases op with
    | construct initRet registerRet =>
      exact Holders.forall_mem_snoc inv (new_not_alive admits.2.2)
    | destroy i =>
      obtain ⟨l, here, live⟩ := admits
      exact absurd (inv l (List.mem_of_getElem? here)) (by simp [live])
  have exact_step (w : RingWorld) (op : RingOp) (inv : ∀ l ∈ w, l.alive = false)
      (good : ∀ l ∈ w, Q l) (admits : w.Admits op) : (∀ l ∈ w.step op, Q l) ↔ op.Meets Q := by
    cases op with
    | construct initRet registerRet =>
      constructor
      · intro all
        exact all _ (List.mem_append_right w List.mem_cons_self)
      · exact Holders.forall_mem_snoc good
    | destroy i =>
      obtain ⟨l, here, live⟩ := admits
      exact absurd (inv l (List.mem_of_getElem? here)) (by simp [live])
  have by_step := Runs.always_iff_each preserves exact_step none_alive (by rintro l ⟨⟩) admitted
  exact by_step.trans (Runs.each_const _ _ _ _)

/-- Leaving aside what the calls are made on, a run is as it should be exactly when no ring is
ever initialised in it, and each time for a reason that has a code. -/
theorem reported_and_released_iff {ops : List RingOp}
    (admitted : Runs.Each RingWorld.step RingWorld.Admits [] ops) :
    Runs.Always RingWorld.step (fun w => ∀ l ∈ w, l.Reports ∧ l.Released) [] ops ↔
      ∀ op ∈ ops, op.Meets fun l => l.initRet ≠ 0 ∧ Enumerated (-l.initRet) := by
  have answered : ∀ op ∈ ops, op.Meets fun l => l.registerRet = 1 ∨ l.registerRet < 0 := by
    refine Runs.each_mem ?_ admitted
    rintro w (⟨initRet, registerRet⟩ | i) admits
    · exact admits.2.2
    · trivial
  rw [always_lives_iff (fun l => l.Reports ∧ l.Released) admitted]
  refine forall₂_congr fun op member => ?_
  cases op with
  | construct initRet registerRet =>
    have answers : registerRet = 1 ∨ registerRet < 0 := answered _ member
    change RingLife.Reports _ ∧ RingLife.Released _ ↔ initRet ≠ 0 ∧ Enumerated (-initRet)
    rw [reports_iff answers, released_iff answers, and_comm]
    refine and_congr_right fun failed => ?_
    have failure : (RingLife.new initRet registerRet).failure = some (-initRet) := if_pos failed
    simp only [failure, Option.mem_some_iff, exists_eq_left']
  | destroy i => exact Iff.rfl

theorem rings_kept_iff_none_constructed {ops : List RingOp}
    (admitted : Runs.Each RingWorld.step RingWorld.Admits [] ops) :
    Runs.Always RingWorld.step (fun w => ∀ l ∈ w, KeepsRing l) [] ops ↔ ops = [] := by
  rw [always_lives_iff KeepsRing admitted]
  constructor
  · intro met
    cases ops with
    | nil => rfl
    | cons op rest =>
      cases op with
      | construct initRet registerRet =>
        exact absurd (met _ List.mem_cons_self).engaged (not_engaged admitted.1.2.2)
      | destroy i =>
        obtain ⟨l, here, _⟩ := admitted.1
        cases here
  · rintro rfl op ⟨⟩

theorem failed_ring_not_kept : ¬ Runs.Always RingWorld.step (fun w => ∀ l ∈ w, KeepsRing l) []
    [.construct (-ENOMEM) 1] :=
  mt (rings_kept_iff_none_constructed (by decide)).mp (by decide)

theorem registered_ring_is_unreachable :
    ¬ ∀ ops, Runs.Each RingWorld.step RingWorld.Admits [] ops →
      Runs.Always RingWorld.step (fun w => ∀ l ∈ w, KeepsRing l) [] ops := by
  intro claim
  have kept := (claim [.construct 0 1] (by decide)).2 _ List.mem_cons_self
  obtain ⟨o, made⟩ := kept.reports
  cases made

end LibN3.Linux.IoUring
