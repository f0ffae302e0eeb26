import LibN3.Coroutine
import LibN3.Error
import LibN3.Segments

/-! Task::execute of io_uring.h. A coroutine is the sequence of its segments, and its promise
keeps the exception that it ended in. The promise_type of Task is private, so as it is written no
coroutine of this type compiles: the frames here are those that there are once it is accessible. -/
namespace LibN3
open Segments

inductive Awaitable
  | uringAwaitable
  | suspendAlways
deriving DecidableEq

/-- await_suspend of UringAwaitable resumes the coroutine that it is called for. -/
def Awaitable.resumes : Awaitable → Bool
  | .uringAwaitable => true
  | .suspendAlways => false

section coroutines

variable {A E : Type}

abbrev CoroutineBody (A E : Type) := Body A Awaitable E

/-- A frame, with what ran of it and the promise. A coroutine that throws goes on to its final
suspension, as one that returns does. -/
abbrev CoroutineFrame (A E : Type) := Frame A Awaitable E

namespace CoroutineFrame

def done (f : CoroutineFrame A E) : Bool := f.rest.isNone

def eptr (f : CoroutineFrame A E) : Option E := f.raised

/-- The loop of execute: the exception that it rethrows, if it does, and the frame. -/
def execute (f : CoroutineFrame A E) : Option E × CoroutineFrame A E :=
  if _ : f.done = false then
    let resumed : CoroutineFrame A E := f.resume Awaitable.resumes
    match resumed.eptr with
    | some exception => (some exception, resumed)
    | none => execute resumed
  else (none, f)
termination_by f.left
decreasing_by exact Frame.left_resume Awaitable.resumes ‹_›

end CoroutineFrame

abbrev Frames (A E : Type) := ℕ → CoroutineFrame A E

def Task.execute (t : Task) (frames : Frames A E) : Except Halt (Option E × Frames A E) :=
  match t.coroHandle.coro.inner with
  | some (some n) =>
    let (thrown, f) := CoroutineFrame.execute (frames n)
    .ok (thrown, Function.update frames n f)
  | _ => .error .nullPointer

def Task.calls (t : Task) : ℕ → Frames A E → Except Halt (List (Option E) × Frames A E)
  | 0, frames => .ok ([], frames)
  | n + 1, frames => do
    let (thrown, frames) ← t.execute frames
    let (later, frames) ← t.calls n frames
    return (thrown :: later, frames)

/-- The segments run once and in order by the time that the first call is over, and a call
throws what the coroutine ended in, or returns if it returned. -/
structure Honest (body : CoroutineBody A E) (outcomes : List (Option E))
    (f : CoroutineFrame A E) : Prop where
  once_in_order : f.ran = if outcomes = [] then [] else body.segments
  no_false_success : ∀ thrown ∈ outcomes, thrown = body.thrown

def ExecutesHonestly (body : CoroutineBody A E) (n count : ℕ) (frames : Frames A E) : Prop :=
  ∃ outcomes frames', (Task.ofHandle (some n)).calls count
      (Function.update frames n (.new body)) = .ok (outcomes, frames') ∧
    outcomes.length = count ∧ Honest body outcomes (frames' n)

theorem execute_ended (ran : List A) (raised : Option E) :
    CoroutineFrame.execute ⟨none, raised, ran⟩ = (none, ⟨none, raised, ran⟩) := by
  rw [CoroutineFrame.execute, dif_neg Bool.noConfusion]

theorem execute_round (ran : List A) (body : CoroutineBody A E) :
    CoroutineFrame.execute ⟨some body, none, ran⟩ =
      match (body.resume Awaitable.resumes none ran).raised with
      | some exception => (some exception, body.resume Awaitable.resumes none ran)
      | none => CoroutineFrame.execute (body.resume Awaitable.resumes none ran) := by
  have unfinished : CoroutineFrame.done (⟨some body, none, ran⟩ : CoroutineFrame A E) = false := rfl
  rw [CoroutineFrame.execute, dif_pos unfinished]
  rfl

theorem execute_running (ran : List A) (body : CoroutineBody A E) :
    CoroutineFrame.execute ⟨some body, none, ran⟩ = (body.thrown, .ended ran body) := by
  induction size : body.segments.length using Nat.strong_induction_on generalizing ran body with
  | _ length ih =>
    rw [execute_round]
    rcases body.resume_spec Awaitable.resumes ran with ends | ⟨first, rest, stops, split, same⟩
    · rw [ends]
      cases thrown : body.thrown with
      | none => simp only [Frame.ended, thrown, execute_ended]
      | some exception => simp only [Frame.ended, thrown]
    · have shorter : rest.segments.length < length := by
        have progress := body.left_resume Awaitable.resumes none ran
        rw [stops, size] at progress
        exact progress
      rw [stops]
      simp only [ih _ shorter (ran ++ first) rest rfl, Frame.ended, same, List.append_assoc, split]

section calls

variable (n : ℕ)

theorem execute_ofHandle (frames : Frames A E) :
    (Task.ofHandle (some n)).execute frames =
      .ok ((CoroutineFrame.execute (frames n)).1,
        Function.update frames n (CoroutineFrame.execute (frames n)).2) := rfl

theorem calls_ended (count : ℕ) {frames : Frames A E} {ran : List A} {raised : Option E}
    (ended : frames n = ⟨none, raised, ran⟩) :
    (Task.ofHandle (some n)).calls count frames = .ok (.replicate count none, frames) := by
  induction count with
  | zero => rfl
  | succ count ih =>
    have same : Function.update frames n (frames n) = frames := Function.update_eq_self n frames
    rw [Task.calls, execute_ofHandle, ended, execute_ended, ← ended, same, halt_ok_bind]
    simp only [ih]
    rfl

theorem calls_new (count : ℕ) (body : CoroutineBody A E) (frames : Frames A E) :
    (Task.ofHandle (some n)).calls (count + 1) (Function.update frames n (.new body)) =
      .ok (body.thrown :: .replicate count none, Function.update frames n (.ended [] body)) := by
  have first : CoroutineFrame.execute (Function.update frames n (.new body) n) =
      (body.thrown, .ended [] body) := by
    rw [Function.update_self]
    exact execute_running [] body
  have here : Function.update frames n (.ended [] body) n = .ended [] body :=
    Function.update_self n _ frames
  have later := calls_ended n count here
  rw [Task.calls, execute_ofHandle, first, halt_ok_bind]
  simp only [Function.update_idem, later]
  rfl

end calls

/-- An exception is rethrown by the call that runs into it, and no later call looks for it. -/
theorem execute_honest_iff (body : CoroutineBody A E) (n count : ℕ) (frames : Frames A E) :
    ExecutesHonestly body n count frames ↔ body.thrown = none ∨ count ≤ 1 := by
  cases count with
  | zero =>
    refine iff_of_true ⟨[], _, rfl, rfl, ?_, ?_⟩ (.inr (Nat.zero_le 1))
    · rw [Function.update_self]
      rfl
    · rintro thrown ⟨⟩
  | succ count =>
    have called := calls_new n count body frames
    have ran : (Function.update frames n (Frame.ended [] body) n).ran = body.segments := by
      rw [Function.update_self]
      rfl
    constructor
    · rintro ⟨outcomes, frames', returns, _, honest⟩
      rw [called] at returns
      cases returns
      cases count with
      | zero => exact .inr (Nat.le_refl 1)
      | succ count =>
        have second := honest.no_false_success none (by simp [List.replicate_succ])
        exact .inl second.symm
    · intro condition
      refine ⟨_, _, called, by simp, ran, ?_⟩
      rintro thrown member
      rcases List.mem_cons.mp member with rfl | later
      · rfl
      · obtain ⟨some_later, rfl⟩ := List.mem_replicate.mp later
        rcases condition with returned | one
        · exact returned.symm
        · omega

end coroutines

theorem second_execute_returns :
    ¬ ∀ (body : CoroutineBody ℕ String) (n count : ℕ) (frames : Frames ℕ String),
      ExecutesHonestly body n count frames := by
  intro claim
  have called := calls_new 0 1 (.suspend 0 .uringAwaitable (.throws 1 "failed"))
    (fun _ => (⟨none, none, []⟩ : CoroutineFrame ℕ String))
  obtain ⟨outcomes, frames', returns, _, honest⟩ := claim _ 0 2 _
  rw [called] at returns
  cases returns
  have second := honest.no_false_success none (by simp)
  cases second

end LibN3
