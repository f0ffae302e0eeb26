import LibN3.Execute
import Mathlib.Data.List.Induction

/-! Calls of execute on many Tasks in any order, and the stack that one call needs, with the
promise_type of Task taken to be accessible. -/
namespace LibN3
open Segments

section tasks

variable {A E : Type}

structure TaskRun (A E : Type) where
  frames : Frames A E
  thrown : List (Option E)
  log : List A

namespace TaskRun

def new (bodies : ℕ → CoroutineBody A E) : TaskRun A E := ⟨fun n => .new (bodies n), [], []⟩

/-- execute on the Task that owns the frame n. What the frame has run since is what ran. -/
def call (w : TaskRun A E) (n : ℕ) : Except Halt (TaskRun A E) := do
  let (thrown, frames) ← (Task.ofHandle (some n)).execute w.frames
  return ⟨frames, w.thrown ++ [thrown], w.log ++ (frames n).ran.drop (w.frames n).ran.length⟩

def callAll (w : TaskRun A E) (calls : List ℕ) : Except Halt (TaskRun A E) := calls.foldlM call w

end TaskRun

/-- The bodies run one at a time, each from its start to its end, in the order in which the Tasks
are first called. The first call on a Task throws what its body does, and the others return. -/
structure TakeTurns (bodies : ℕ → CoroutineBody A E) (calls : List ℕ) (w : TaskRun A E) : Prop where
  frames : w.frames = fun n => if n ∈ calls then .ended [] (bodies n) else .new (bodies n)
  log : w.log = calls.eraseDups.flatMap fun n => (bodies n).segments
  count : w.thrown.length = calls.length
  thrown : ∀ i n, calls[i]? = some n →
    w.thrown[i]? = some (if n ∈ calls.take i then none else (bodies n).thrown)

section turns

variable {bodies : ℕ → CoroutineBody A E} {calls : List ℕ} {w : TaskRun A E} {n : ℕ}

theorem call_eq (w : TaskRun A E) (n : ℕ) :
    w.call n = .ok ⟨Function.update w.frames n (CoroutineFrame.execute (w.frames n)).2,
      w.thrown ++ [(CoroutineFrame.execute (w.frames n)).1],
      w.log ++ (CoroutineFrame.execute (w.frames n)).2.ran.drop (w.frames n).ran.length⟩ := by
  rw [TaskRun.call, execute_ofHandle, halt_ok_bind]
  simp only [Function.update_self]
  rfl

theorem eraseDups_again (again : n ∈ calls) : (calls ++ [n]).eraseDups = calls.eraseDups := by
  have none_new : [n].removeAll calls = [] := by simp [List.removeAll, again]
  rw [List.eraseDups_append, none_new, List.eraseDups_nil, List.append_nil]

theorem eraseDups_first (first : n ∉ calls) :
    (calls ++ [n]).eraseDups = calls.eraseDups ++ [n] := by
  have one_new : [n].removeAll calls = [n] := by simp [List.removeAll, first]
  rw [List.eraseDups_append, one_new]
  rfl

theorem thrown_snoc {outcome : Option E} (turns : TakeTurns bodies calls w)
    (last : outcome = if n ∈ calls then none else (bodies n).thrown) (i m : ℕ)
    (here : (calls ++ [n])[i]? = some m) :
    (w.thrown ++ [outcome])[i]? =
      some (if m ∈ (calls ++ [n]).take i then none else (bodies m).thrown) := by
  rcases Nat.lt_trichotomy i calls.length with earlier | rfl | later
  · rw [List.getElem?_append_left earlier] at here
    rw [List.getElem?_append_left (turns.count ▸ earlier), turns.thrown i m here,
      List.take_append_of_le_length (Nat.le_of_lt earlier)]
  · rw [List.getElem?_concat_length] at here
    cases here
    have outcome_last := List.getElem?_concat_length (l := w.thrown) (a := outcome)
    rw [turns.count] at outcome_last
    rw [outcome_last, List.take_left, last]
  · rw [List.getElem?_eq_none (by simp; omega)] at here
    cases here

theorem call_again (turns : TakeTurns bodies calls w) (again : n ∈ calls) :
    ∃ w', w.call n = .ok w' ∧ TakeTurns bodies (calls ++ [n]) w' := by
  have frame : w.frames n = .ended [] (bodies n) := by
    rw [turns.frames]
    exact if_pos again
  have executed : CoroutineFrame.execute (w.frames n) = (none, w.frames n) := by
    rw [frame]
    exact execute_ended _ _
  refine ⟨_, call_eq w n, ?_, ?_, ?_, ?_⟩
  · simp only [executed, Function.update_eq_self]
    rw [turns.frames]
    funext m
    have same : m ∈ calls ++ [n] ↔ m ∈ calls := by
      rw [List.mem_append, List.mem_singleton, or_iff_left_of_imp]
      rintro rfl
      exact again
    simp only [same]
  · simp only [executed, List.drop_length, List.append_nil]
    rw [turns.log, eraseDups_again again]
  · simp [turns.count]
  · apply thrown_snoc turns
    rw [executed, if_pos again]

theorem call_first (turns : TakeTurns bodies calls w) (first : n ∉ calls) :
    ∃ w', w.call n = .ok w' ∧ TakeTurns bodies (calls ++ [n]) w' := by
  have frame : w.frames n = .new (bodies n) := by
    rw [turns.frames]
    exact if_neg first
  have executed : CoroutineFrame.execute (w.frames n) =
      ((bodies n).thrown, .ended [] (bodies n)) := by
    rw [frame]
    exact execute_running [] (bodies n)
  refine ⟨_, call_eq w n, ?_, ?_, ?_, ?_⟩
  · simp only [executed]
    rw [turns.frames]
    funext m
    by_cases same : m = n
    · subst same
      simp
    · simp [same]
  · have all_new : (Frame.ended [] (bodies n) : CoroutineFrame A E).ran.drop
        (Frame.new (bodies n) : CoroutineFrame A E).ran.length = (bodies n).segments := rfl
    simp only [executed]
    rw [turns.log, frame, all_new, eraseDups_first first, List.flatMap_append, List.flatMap_singleton]
  · simp [turns.count]
  · apply thrown_snoc turns
    rw [executed, if_neg first]

end turns

/-- Whatever the coroutines await, no two of them are ever under way together. -/
theorem tasks_take_turns (bodies : ℕ → CoroutineBody A E) (calls : List ℕ) :
    ∃ w, (TaskRun.new bodies).callAll calls = .ok w ∧ TakeTurns bodies calls w := by
  induction calls using List.reverseRecOn with
  | nil =>
    refine ⟨_, rfl, ?_, rfl, rfl, ?_⟩
    · simp [TaskRun.new]
    · rintro i n ⟨⟩
  | append_singleton calls n ih =>
    obtain ⟨w, called, turns⟩ := ih
    have next : ∃ w', w.call n = .ok w' ∧ TakeTurns bodies (calls ++ [n]) w' := by
      by_cases again : n ∈ calls
      · exact call_again turns again
      · exact call_first turns again
    obtain ⟨w', last, turns'⟩ := next
    refine ⟨w', ?_, turns'⟩
    rw [TaskRun.callAll] at called ⊢
    rw [List.foldlM_append, called]
    simp only [halt_ok_bind, List.foldlM_cons, last]
    rfl

end tasks

section stack

variable {A E : Type}

def CoroutineFrame.rounds (f : CoroutineFrame A E) : List (CoroutineFrame A E) :=
  if _ : f.done = false then
    let resumed : CoroutineFrame A E := f.resume Awaitable.resumes
    f :: match resumed.eptr with
      | some _ => []
      | none => rounds resumed
  else []
termination_by f.left
decreasing_by exact Frame.left_resume Awaitable.resumes ‹_›

def CoroutineFrame.depth (f : CoroutineFrame A E) : ℕ :=
  (f.rest.map (Body.nested Awaitable.resumes)).getD 0

theorem rounds_ended (ran : List A) (raised : Option E) :
    CoroutineFrame.rounds ⟨none, raised, ran⟩ = [] := by
  rw [CoroutineFrame.rounds, dif_neg Bool.noConfusion]

theorem rounds_running (ran : List A) (body : CoroutineBody A E) :
    CoroutineFrame.rounds ⟨some body, none, ran⟩ = ⟨some body, none, ran⟩ ::
      match (body.resume Awaitable.resumes none ran).raised with
      | some _ => []
      | none => CoroutineFrame.rounds (body.resume Awaitable.resumes none ran) := by
  have unfinished : CoroutineFrame.done (⟨some body, none, ran⟩ : CoroutineFrame A E) = false := rfl
  rw [CoroutineFrame.rounds, dif_pos unfinished]
  rfl

/-- The rounds are those of execute, as the last of them leaves what execute does. -/
theorem rounds_end (ran : List A) (body : CoroutineBody A E) :
    (CoroutineFrame.rounds ⟨some body, none, ran⟩).getLast?.map (Frame.resume Awaitable.resumes) =
      some (CoroutineFrame.execute ⟨some body, none, ran⟩).2 := by
  rw [execute_running]
  induction size : body.segments.length using Nat.strong_induction_on generalizing ran body with
  | _ length ih =>
    rw [rounds_running]
    rcases body.resume_spec Awaitable.resumes ran with ends | ⟨first, rest, stops, split, same⟩
    · have last : Frame.resume Awaitable.resumes ⟨some body, none, ran⟩ = .ended ran body := ends
      rw [ends]
      cases thrown : body.thrown with
      | none =>
        simp only [Frame.ended, thrown, rounds_ended] at last ⊢
        rw [List.getLast?_singleton, Option.map_some, last]
      | some exception =>
        simp only [Frame.ended, thrown] at last ⊢
        rw [List.getLast?_singleton, Option.map_some, last]
    · have shorter : rest.segments.length < length :=
        size ▸ Body.shorter_of_stops Awaitable.resumes stops
      have later := ih _ shorter (ran ++ first) rest rfl
      have same_end : (Frame.ended (ran ++ first) rest : CoroutineFrame A E) = .ended ran body := by
        simp only [Frame.ended, same, List.append_assoc, split]
      rw [stops, ← same_end, ← later]
      simp only [rounds_running, List.getLast?_cons_cons]

theorem rounds_depth (ran : List A) (body : CoroutineBody A E) :
    (CoroutineFrame.rounds ⟨some body, none, ran⟩).map CoroutineFrame.depth =
      (body.groups Awaitable.resumes).map (·.length + 1) := by
  induction size : body.segments.length using Nat.strong_induction_on generalizing ran body with
  | _ length ih =>
    have deep : CoroutineFrame.depth (⟨some body, none, ran⟩ : CoroutineFrame A E) =
        body.nested Awaitable.resumes := rfl
    rw [rounds_running, List.map_cons, deep]
    rcases body.resume_groups Awaitable.resumes ran with ⟨ends, one⟩ | ⟨first, rest, stops, more⟩
    · rw [ends, one]
      cases thrown : body.thrown with
      | none => simp only [Frame.ended, thrown, rounds_ended, List.map_nil]
      | some exception => simp only [Frame.ended, thrown, List.map_nil]
    · have shorter : rest.segments.length < length :=
        size ▸ Body.shorter_of_stops Awaitable.resumes stops
      rw [stops, more]
      simp only [ih _ shorter (ran ++ first) rest rfl]

theorem groups_splitOn (body : CoroutineBody A E) :
    body.groups Awaitable.resumes = body.kinds.splitOn .suspendAlways := by
  have stays : (fun kind => !Awaitable.resumes kind) = (· == Awaitable.suspendAlways) := by
    funext kind
    cases kind <;> rfl
  rw [Body.groups, stays, List.splitOn_eq_splitOnP]

/-- execute resumes once for each suspension that stays, and once more. Each time the stack holds
as many resumes as UringAwaitables are awaited up to the next one, and one more. -/
theorem execute_stack (body : CoroutineBody A E) :
    (CoroutineFrame.rounds (.new body)).map CoroutineFrame.depth =
        (body.kinds.splitOn .suspendAlways).map (·.length + 1) ∧
      (CoroutineFrame.rounds (.new body)).getLast?.map (Frame.resume Awaitable.resumes) =
        some (CoroutineFrame.execute (.new body)).2 := by
  rw [← groups_splitOn]
  exact ⟨rounds_depth [] body, rounds_end [] body⟩

end stack

end LibN3
