import Mathlib.Logic.Function.Basic
import LibN3.Runs

/-! A cell computed once behind a flag, for threads that take turns in any order. The first to
ask computes it and stores it; those that ask meanwhile wait; all read it afterwards. -/
namespace Once

universe u v
variable {τ : Type u} {V : Type v}

inductive Flag
  | unset
  | busy
  | done
deriving DecidableEq

/-- Where a thread is: in no call or at its flag, computing, about to store, or past the flag. -/
inductive Place (V : Type v)
  | outside
  | computing
  | storing (v : V)
  | past
deriving DecidableEq

structure World (τ : Type u) (V : Type v) where
  flag : Flag
  cell : V
  place : τ → Place V
  computed : List V
  returned : List (τ × V)

namespace World

def new (init : V) : World τ V := ⟨.unset, init, fun _ => .outside, [], []⟩

def Waiting (w : World τ V) (t : τ) : Prop := w.place t = .outside ∧ w.flag = .busy

end World

/-- The four phases. Only in the last is the cell read, and then nothing writes it. -/
inductive Phase (w : World τ V) : Prop
  | unset (flag : w.flag = .unset) (rest : ∀ u, w.place u = .outside)
      (computed : w.computed = []) (returned : w.returned = [])
  | computing (t : τ) (flag : w.flag = .busy) (place : w.place t = .computing)
      (rest : ∀ u, u ≠ t → w.place u = .outside)
      (computed : w.computed = []) (returned : w.returned = [])
  | storing (t : τ) (v : V) (flag : w.flag = .busy) (place : w.place t = .storing v)
      (rest : ∀ u, u ≠ t → w.place u = .outside)
      (computed : w.computed = [v]) (returned : w.returned = [])
  | done (flag : w.flag = .done) (rest : ∀ u, w.place u = .outside ∨ w.place u = .past)
      (computed : w.computed = [w.cell]) (returned : ∀ r ∈ w.returned, r.2 = w.cell)

namespace Phase

variable {w : World τ V}

theorem start (init : V) : Phase (.new init : World τ V) := .unset rfl (fun _ => rfl) rfl rfl

theorem computed_once (phase : Phase w) : w.computed.length ≤ 1 := by
  cases phase with
  | unset _ _ computed _ => rw [computed]; exact Nat.zero_le 1
  | computing _ _ _ _ computed _ => rw [computed]; exact Nat.zero_le 1
  | storing _ _ _ _ _ computed _ => rw [computed]; exact Nat.le_refl 1
  | done _ _ computed _ => rw [computed]; exact Nat.le_refl 1

/-- What is returned is the one value computed. -/
theorem returned_computed (phase : Phase w) : ∀ r ∈ w.returned, w.computed = [r.2] := by
  intro r member
  cases phase with
  | unset _ _ _ returned => rw [returned] at member; cases member
  | computing _ _ _ _ _ returned => rw [returned] at member; cases member
  | storing _ _ _ _ _ _ returned => rw [returned] at member; cases member
  | done _ _ computed returned => rw [computed, returned r member]

theorem none_computed {t : τ} (phase : Phase w) (place : w.place t = .computing) :
    w.computed = [] := by
  cases phase with
  | unset _ _ computed _ => exact computed
  | computing _ _ _ _ computed _ => exact computed
  | storing u _ _ storing rest _ _ =>
    by_cases same : t = u
    · rw [same, storing] at place
      cases place
    · rw [rest t same] at place
      cases place
  | done _ rest _ _ =>
    rcases rest t with outside | past
    · rw [outside] at place
      cases place
    · rw [past] at place
      cases place

/-- The threads never all wait. -/
theorem one_moves [Nonempty τ] (phase : Phase w) : ∃ t, ¬ w.Waiting t := by
  obtain ⟨any⟩ := ‹Nonempty τ›
  cases phase with
  | unset flag _ _ _ =>
    refine ⟨any, fun waiting => ?_⟩
    have busy := waiting.2
    rw [flag] at busy
    cases busy
  | computing t _ place _ _ _ =>
    refine ⟨t, fun waiting => ?_⟩
    have outside := waiting.1
    rw [place] at outside
    cases outside
  | storing t _ _ place _ _ _ =>
    refine ⟨t, fun waiting => ?_⟩
    have outside := waiting.1
    rw [place] at outside
    cases outside
  | done flag _ _ _ =>
    refine ⟨any, fun waiting => ?_⟩
    have busy := waiting.2
    rw [flag] at busy
    cases busy

end Phase

section steps

variable [DecidableEq τ]

namespace World

def move (w : World τ V) (t : τ) (p : Place V) : World τ V :=
  { w with place := Function.update w.place t p }

/-- The next step of a thread, and what it computes if that is its step. A thread that finds
the flag busy waits. -/
def step (w : World τ V) (a : τ × V) : World τ V :=
  match w.place a.1 with
  | .outside =>
    match w.flag with
    | .unset => { w.move a.1 .computing with flag := .busy }
    | .busy => w
    | .done => w.move a.1 .past
  | .computing => { w.move a.1 (.storing a.2) with computed := w.computed ++ [a.2] }
  | .storing v => { w.move a.1 .past with flag := .done, cell := v }
  | .past => { w.move a.1 .outside with returned := w.returned ++ [(a.1, w.cell)] }

end World

theorem move_here (w : World τ V) (t : τ) (p : Place V) : (w.move t p).place t = p := by
  simp only [World.move, Function.update_self]

theorem move_other (w : World τ V) {t u : τ} (p : Place V) (other : u ≠ t) :
    (w.move t p).place u = w.place u := by
  simp only [World.move, Function.update_of_ne other]

namespace Phase

variable {w : World τ V}

theorem elsewhere {t : τ} {p : Place V} (rest : ∀ u, u ≠ t → w.place u = .outside) :
    ∀ u, u ≠ t → (w.move t p).place u = .outside := by
  intro u other
  rw [move_other w p other]
  exact rest u other

theorem step (w : World τ V) (a : τ × V) (phase : Phase w) : Phase (w.step a) := by
  obtain ⟨t, value⟩ := a
  have here (p : Place V) : (w.move t p).place t = p := move_here w t p
  cases phase with
  | unset flag rest computed returned =>
    simp only [World.step, rest t, flag]
    exact .computing t rfl (here _) (elsewhere fun u _ => rest u) computed returned
  | computing runner flag place rest computed returned =>
    by_cases same : t = runner
    · subst same
      simp only [World.step, place]
      exact .storing t value flag (here _) (elsewhere rest) (by rw [computed]; rfl) returned
    · simp only [World.step, rest t same, flag]
      exact .computing runner flag place rest computed returned
  | storing runner v flag place rest computed returned =>
    by_cases same : t = runner
    · subst same
      simp only [World.step, place]
      refine .done rfl ?_ computed ?_
      · intro u
        by_cases same : u = t
        · subst same
          exact .inr (here _)
        · exact .inl (elsewhere rest u same)
      · intro r member
        have none_yet : r ∈ w.returned := member
        rw [returned] at none_yet
        cases none_yet
    · simp only [World.step, rest t same, flag]
      exact .storing runner v flag place rest computed returned
  | done flag rest computed returned =>
    have moved (p : Place V) (fits : p = .outside ∨ p = .past) :
        ∀ u, (w.move t p).place u = .outside ∨ (w.move t p).place u = .past := by
      intro u
      by_cases same : u = t
      · subst same
        rw [here]
        exact fits
      · rw [move_other w p same]
        exact rest u
    rcases rest t with outside | past
    · simp only [World.step, outside, flag]
      exact .done flag (moved .past (.inr rfl)) computed returned
    · simp only [World.step, past]
      refine .done flag (moved .outside (.inl rfl)) computed ?_
      intro r member
      rcases List.mem_append.mp member with old | new
      · exact returned r old
      · rw [List.mem_singleton.mp new]
        rfl

end Phase

theorem computed_elsewhere (w : World τ V) {t : τ} (v : V) (elsewhere : w.place t ≠ .computing) :
    (w.step (t, v)).computed = w.computed := by
  unfold World.step
  cases place : w.place t with
  | outside => cases w.flag <;> rfl
  | computing => exact absurd place elsewhere
  | storing v => rfl
  | past => rfl

/-- A step that does nothing is one of a thread that waits. -/
theorem waiting_of_step_eq {w : World τ V} {a : τ × V} (same : w.step a = w) :
    w.Waiting a.1 := by
  have moved (p : Place V) : (w.move a.1 p).place a.1 = p := move_here w a.1 p
  cases place : w.place a.1 with
  | outside =>
    refine ⟨place, ?_⟩
    cases flag : w.flag with
    | busy => rfl
    | unset =>
      have after := congrArg World.flag same
      simp only [World.step, place, flag] at after
      cases after
    | done =>
      have after := congrArg (fun w' : World τ V => w'.place a.1) same
      simp only [World.step, place, flag, moved] at after
      cases after
  | computing =>
    have after := congrArg (fun w' : World τ V => w'.computed.length) same
    simp only [World.step, place, List.length_append, List.length_singleton] at after
    omega
  | storing v =>
    have after := congrArg (fun w' : World τ V => w'.place a.1) same
    simp only [World.step, place] at after
    rw [moved] at after
    cases after
  | past =>
    have after := congrArg (fun w' : World τ V => w'.returned.length) same
    simp only [World.step, place, List.length_append, List.length_singleton] at after
    omega

end steps

end Once
