import Mathlib.Data.List.Basic

/-! Runs of a deterministic system whose inputs are met one after another.
A condition on a step is read in the state the step is taken from, so a guard
and the exact circumstances of a failure are the same kind of thing here. -/
namespace Runs

universe u v
variable {S : Type u} {A : Type v} (step : S → A → S)

def run (s : S) : List A → S
  | [] => s
  | a :: rest => run (step s a) rest

/-- Every step of the run meets C in the state it is taken from. -/
def Each (C : S → A → Prop) (s : S) : List A → Prop
  | [] => True
  | a :: rest => C s a ∧ Each C (step s a) rest

/-- P holds at the start and after every step of the run. -/
def Always (P : S → Prop) (s : S) : List A → Prop
  | [] => P s
  | a :: rest => P s ∧ Always P (step s a) rest

instance decidableEach (C : S → A → Prop) [∀ s a, Decidable (C s a)] (s : S) (as : List A) :
    Decidable (Each step C s as) :=
  match as with
  | [] => .isTrue trivial
  | a :: rest => @instDecidableAnd _ _ _ (decidableEach C (step s a) rest)

theorem run_append (s : S) (as bs : List A) :
    run step s (as ++ bs) = run step (run step s as) bs := by
  induction as generalizing s with
  | nil => rfl
  | cons a rest ih => exact ih (step s a)

theorem run_snoc (s : S) (as : List A) (a : A) :
    run step s (as ++ [a]) = step (run step s as) a :=
  run_append step s as [a]

theorem each_append (C : S → A → Prop) (s : S) (as bs : List A) :
    Each step C s (as ++ bs) ↔ Each step C s as ∧ Each step C (run step s as) bs := by
  induction as generalizing s with
  | nil => simp [Each, run]
  | cons a rest ih => simp only [List.cons_append, Each, run, ih, and_assoc]

theorem each_snoc (C : S → A → Prop) (s : S) (as : List A) (a : A) :
    Each step C s (as ++ [a]) ↔ Each step C s as ∧ C (run step s as) a := by
  simp only [each_append, Each, and_true]

theorem each_const (D : A → Prop) (s : S) (as : List A) :
    Each step (fun _ a => D a) s as ↔ ∀ a ∈ as, D a := by
  induction as generalizing s with
  | nil => simp [Each]
  | cons a rest ih => simp only [Each, ih, List.forall_mem_cons]

variable {step}

/-- What every step that is met has of itself, whatever the state, each input of the run has. -/
theorem each_mem {C : S → A → Prop} {D : A → Prop} (implies : ∀ s a, C s a → D a) {s : S}
    {as : List A} (admitted : Each step C s as) : ∀ a ∈ as, D a := by
  induction as generalizing s with
  | nil => exact fun a member => absurd member List.not_mem_nil
  | cons a rest ih =>
    exact List.forall_mem_cons.mpr ⟨implies s a admitted.1, ih admitted.2⟩

theorem invariant {I : S → Prop} {C : S → A → Prop}
    (preserves : ∀ s a, I s → C s a → I (step s a))
    {s : S} (initial : I s) {as : List A} (admitted : Each step C s as) : I (run step s as) := by
  induction as generalizing s with
  | nil => exact initial
  | cons a rest ih => exact ih (preserves s a initial admitted.1) admitted.2

theorem always_start {P : S → Prop} {s : S} {as : List A} (h : Always step P s as) : P s := by
  cases as with
  | nil => exact h
  | cons a rest => exact h.1

/-- If C says of each step whether it keeps P, then C says of each run whether P
holds throughout. The invariant I carries what both readings of a step may use; it
needs to outlive a step only when P does. -/
theorem always_iff_each {I P : S → Prop} {G C : S → A → Prop}
    (preserves : ∀ s a, I s → G s a → C s a → I (step s a))
    (exact_step : ∀ s a, I s → P s → G s a → (P (step s a) ↔ C s a))
    {s : S} (inv : I s) (start : P s) {as : List A} (admitted : Each step G s as) :
    Always step P s as ↔ Each step C s as := by
  induction as generalizing s with
  | nil => exact ⟨fun _ => trivial, fun _ => start⟩
  | cons a rest ih =>
    have here := exact_step s a inv start admitted.1
    constructor
    · rintro ⟨_, later⟩
      have kept := always_start later
      have now := here.mp kept
      exact ⟨now, (ih (preserves s a inv admitted.1 now) kept admitted.2).mp later⟩
    · rintro ⟨now, later⟩
      have kept := here.mpr now
      exact ⟨start, (ih (preserves s a inv admitted.1 now) kept admitted.2).mpr later⟩

/-- A step that stops where another goes on. A run of the first either makes no such step
and is a run of the second, or ends by one it makes in a state the second reaches too. -/
theorem run_until_stop {step' : S → A → S} {stopped : S → Prop}
    (stays : ∀ s a, stopped s → step s a = s)
    (agrees : ∀ s a, ¬ stopped (step s a) → step s a = step' s a)
    (s : S) (running : ¬ stopped s) (as : List A) :
    (¬ stopped (run step s as) ∧ run step s as = run step' s as) ∨
      ∃ before a after, as = before ++ a :: after ∧ ¬ stopped (run step' s before) ∧
        stopped (step (run step' s before) a) ∧
        run step s as = step (run step' s before) a := by
  induction as generalizing s with
  | nil => exact .inl ⟨running, rfl⟩
  | cons a rest ih =>
    by_cases stops : stopped (step s a)
    · have still : ∀ bs, run step (step s a) bs = step s a := by
        intro bs
        induction bs with
        | nil => rfl
        | cons b bs again => rw [run, stays _ b stops, again]
      exact .inr ⟨[], a, rest, rfl, running, stops, still rest⟩
    · have same := agrees s a stops
      rcases ih (step s a) stops with ⟨goes, agree⟩ | ⟨before, b, after, rfl, goes, halts, ends⟩
      · rw [same] at goes agree
        refine .inl ⟨?_, ?_⟩
        · rw [run, same]
          exact goes
        · rw [run, same, agree, run]
      · rw [same] at goes halts ends
        refine .inr ⟨a :: before, b, after, rfl, goes, halts, ?_⟩
        rw [run, same]
        exact ends

end Runs
