import Mathlib.Data.List.Basic

/-! Computations cut into segments by the points where they are suspended, and run from one
such point to the next. A suspension may be of a kind that is passed: what is called there
runs the computation on. -/
namespace Segments

universe u v w
variable {A : Type u} {K : Type v} {E : Type w}

inductive Body (A : Type u) (K : Type v) (E : Type w)
  | returns (segment : A)
  | throws (segment : A) (exception : E)
  | suspend (segment : A) (kind : K) (rest : Body A K E)

namespace Body

def segments : Body A K E → List A
  | .returns segment => [segment]
  | .throws segment _ => [segment]
  | .suspend segment _ rest => segment :: rest.segments

def thrown : Body A K E → Option E
  | .returns _ => none
  | .throws _ exception => some exception
  | .suspend _ _ rest => rest.thrown

def kinds : Body A K E → List K
  | .returns _ => []
  | .throws _ _ => []
  | .suspend _ kind rest => kind :: rest.kinds

end Body

/-- What is left of a computation, if it has not ended, the exception that it ended in, if it
did, and the segments that have run. -/
structure Frame (A : Type u) (K : Type v) (E : Type w) where
  rest : Option (Body A K E)
  raised : Option E
  ran : List A

namespace Frame

def new (body : Body A K E) : Frame A K E := ⟨some body, none, []⟩

def left (f : Frame A K E) : ℕ := (f.rest.map fun body => body.segments.length).getD 0

def ended (ran : List A) (body : Body A K E) : Frame A K E :=
  ⟨none, body.thrown, ran ++ body.segments⟩

end Frame

variable (passes : K → Bool)

/-- To the next suspension that is not passed, or to the end. -/
def Body.resume (raised : Option E) (ran : List A) : Body A K E → Frame A K E
  | .returns segment => ⟨none, raised, ran ++ [segment]⟩
  | .throws segment exception => ⟨none, some exception, ran ++ [segment]⟩
  | .suspend segment kind rest =>
    if passes kind then rest.resume raised (ran ++ [segment])
    else ⟨some rest, raised, ran ++ [segment]⟩

def Frame.resume (f : Frame A K E) : Frame A K E :=
  match f.rest with
  | none => f
  | some body => body.resume passes f.raised f.ran

theorem Body.resume_spec (ran : List A) (body : Body A K E) :
    body.resume passes none ran = .ended ran body ∨
      ∃ first rest, body.resume passes none ran = ⟨some rest, none, ran ++ first⟩ ∧
        first ++ rest.segments = body.segments ∧ rest.thrown = body.thrown := by
  induction body generalizing ran with
  | returns segment => exact .inl rfl
  | throws segment exception => exact .inl rfl
  | suspend segment kind rest ih =>
    cases passed : passes kind with
    | false =>
      refine .inr ⟨[segment], rest, ?_, rfl, rfl⟩
      rw [Body.resume, passed, if_neg Bool.false_ne_true]
    | true =>
      rw [Body.resume, if_pos passed]
      rcases ih (ran ++ [segment]) with ends | ⟨first, later, stops, split, same⟩
      · refine .inl (ends.trans ?_)
        simp [Frame.ended, Body.segments, Body.thrown]
      · refine .inr ⟨segment :: first, later, ?_, congrArg (segment :: ·) split, same⟩
        rw [stops, List.append_assoc]
        rfl

/-- The resumes that one resume is the outermost of, as the one that is called at a suspension
that is passed is called from within the one before it. -/
def Body.nested : Body A K E → ℕ
  | .returns _ => 1
  | .throws _ _ => 1
  | .suspend _ kind rest => if passes kind then rest.nested + 1 else 1

def Body.groups (body : Body A K E) : List (List K) := body.kinds.splitOnP fun kind => !passes kind

/-- A resume is as deep as the first group is long, and leaves the groups behind it. -/
theorem Body.resume_groups (ran : List A) (body : Body A K E) :
    (body.resume passes none ran = .ended ran body ∧
        (body.groups passes).map (·.length + 1) = [body.nested passes]) ∨
      ∃ first rest, body.resume passes none ran = ⟨some rest, none, ran ++ first⟩ ∧
        (body.groups passes).map (·.length + 1) =
          body.nested passes :: (rest.groups passes).map (·.length + 1) := by
  induction body generalizing ran with
  | returns segment => exact .inl ⟨rfl, rfl⟩
  | throws segment exception => exact .inl ⟨rfl, rfl⟩
  | suspend segment kind rest ih =>
    cases passed : passes kind with
    | false =>
      refine .inr ⟨[segment], rest, ?_, ?_⟩
      · rw [Body.resume, passed, if_neg Bool.false_ne_true]
      · simp [Body.groups, Body.kinds, Body.nested, List.splitOnP_cons_eq_if_modifyHead, passed]
    | true =>
      have longer : ((Body.suspend segment kind rest).groups passes).map (·.length + 1) =
          ((rest.groups passes).map (·.length + 1)).modifyHead (· + 1) := by
        rw [Body.groups, Body.kinds, List.splitOnP_cons_eq_if_modifyHead, passed]
        cases split : rest.groups passes with
        | nil => exact absurd split (List.splitOnP_ne_nil _ _)
        | cons group others =>
          rw [Body.groups] at split
          simp [split]
      have deeper : (Body.suspend segment kind rest).nested passes = rest.nested passes + 1 := by
        rw [Body.nested, if_pos passed]
      rw [Body.resume, if_pos passed, longer, deeper]
      rcases ih (ran ++ [segment]) with ⟨ends, last⟩ | ⟨first, later, stops, more⟩
      · refine .inl ⟨ends.trans ?_, by rw [last]; rfl⟩
        simp [Frame.ended, Body.segments, Body.thrown]
      · refine .inr ⟨segment :: first, later, ?_, by rw [more]; rfl⟩
        rw [stops, List.append_assoc]
        rfl

theorem Body.left_resume (raised : Option E) (ran : List A) (body : Body A K E) :
    (body.resume passes raised ran).left < body.segments.length := by
  induction body generalizing ran with
  | returns segment => exact Nat.zero_lt_one
  | throws segment exception => exact Nat.zero_lt_one
  | suspend segment kind rest ih =>
    unfold Body.resume
    split
    · exact Nat.lt_succ_of_lt (ih (ran ++ [segment]))
    · exact Nat.lt_succ_self _

theorem Body.shorter_of_stops {raised raised' : Option E} {ran ran' : List A} {body rest : Body A K E}
    (stops : body.resume passes raised ran = ⟨some rest, raised', ran'⟩) :
    rest.segments.length < body.segments.length := by
  have progress := body.left_resume passes raised ran
  rw [stops] at progress
  exact progress

theorem Frame.left_resume {f : Frame A K E} (unfinished : f.rest.isNone = false) :
    (f.resume passes).left < f.left := by
  cases rest : f.rest with
  | none =>
    rw [rest] at unfinished
    cases unfinished
  | some body =>
    have resumed : f.resume passes = body.resume passes f.raised f.ran := by
      rw [Frame.resume, rest]
    have size : f.left = body.segments.length := by
      rw [Frame.left, rest]
      rfl
    rw [resumed, size]
    exact Body.left_resume passes f.raised f.ran body

end Segments
