import LibN3.Answers
import LibN3.Once

/-! GetPageSize of page_size.cpp, called by any number of threads, and the PageBuffers of
buffer.h that are made from what it returns. -/
namespace LibN3.Linux

def _SC_PAGESIZE : Int32 := 30

def pageSizeOr (kernel : Kernel) : Except Halt SizeT := do
  match ← sysconf kernel _SC_PAGESIZE with
  | .ok ret => return ret.toUInt64
  | .error _ => return 4096

structure PageBuffer where
  pageSize : SizeT
  underlying : UInt64 × SizeT

namespace PageBuffer

/-- PageBuffer(), of what its two calls of GetPageSize return and of where operator new puts
the page. -/
def construct (first second : SizeT) (base : UInt64) : PageBuffer := ⟨first, (base, second)⟩

def data (buf : PageBuffer) : UInt64 × SizeT := (buf.underlying.1, buf.pageSize)

end PageBuffer

/-- The threads at their flag, those that ran the lambda with the kernel that each asked, and
what stopped the program in the lambda, if something did. -/
structure PageWorld (τ : Type) where
  once : Once.World τ SizeT
  asked : List (τ × Kernel)
  halted : Option Halt

namespace PageWorld

variable {τ : Type}

def new : PageWorld τ := ⟨.new 0, [], none⟩

structure Answered (w : PageWorld τ) : Prop where
  phase : Once.Phase w.once
  goes : w.halted = none →
    List.Forall₂ (fun a size => pageSizeOr a.2 = .ok size) w.asked w.once.computed
  stopped : ∀ halt, w.halted = some halt →
    w.once.computed = [] ∧ ∃ a, w.asked = [a] ∧ pageSizeOr a.2 = .error halt

theorem Answered.of_returned {w : PageWorld τ} (inv : Answered w) :
    ∀ r ∈ w.once.returned, w.once.computed = [r.2] ∧
      ∃ a, w.asked = [a] ∧ pageSizeOr a.2 = .ok r.2 := by
  intro r member
  have computed := inv.phase.returned_computed r member
  cases halted : w.halted with
  | some halt =>
    have none_computed := (inv.stopped halt halted).1
    rw [computed] at none_computed
    cases none_computed
  | none =>
    have answers := inv.goes halted
    rw [computed] at answers
    obtain ⟨a, rest, answer, others, asked⟩ := List.forall₂_cons_right_iff.mp answers
    rw [List.forall₂_nil_right_iff] at others
    exact ⟨computed, a, by rw [asked, others], answer⟩

theorem Answered.asked_once {w : PageWorld τ} (inv : Answered w) : w.asked.length ≤ 1 := by
  cases halted : w.halted with
  | none =>
    rw [(inv.goes halted).length_eq]
    exact inv.phase.computed_once
  | some halt =>
    obtain ⟨_, a, asked, _⟩ := inv.stopped halt halted
    rw [asked]
    exact Nat.le_refl 1

section steps

variable [DecidableEq τ]

/-- The next step of a thread, with the kernel that answers if the step is the lambda's. -/
def step (w : PageWorld τ) (a : τ × Kernel) : PageWorld τ :=
  match w.halted, w.once.place a.1 with
  | some _, _ => w
  | none, .computing =>
    match pageSizeOr a.2 with
    | .ok size => { w with once := w.once.step (a.1, size), asked := w.asked ++ [a] }
    | .error halt => { w with asked := w.asked ++ [a], halted := some halt }
  | none, _ => { w with once := w.once.step (a.1, 0) }

theorem step_elsewhere {w : PageWorld τ} {a : τ × Kernel} (goes : w.halted = none)
    (elsewhere : w.once.place a.1 ≠ .computing) :
    w.step a = { w with once := w.once.step (a.1, 0) } := by
  unfold step
  cases place : w.once.place a.1 with
  | computing => exact absurd place elsewhere
  | outside => simp only [goes]
  | storing v => simp only [goes]
  | past => simp only [goes]

theorem Answered.step (w : PageWorld τ) (a : τ × Kernel) (inv : Answered w) :
    Answered (w.step a) := by
  cases halted : w.halted with
  | some halt =>
    simp only [PageWorld.step, halted]
    exact inv
  | none =>
    have answers := inv.goes halted
    by_cases place : w.once.place a.1 = .computing
    · have none_computed := inv.phase.none_computed place
      rw [none_computed, List.forall₂_nil_right_iff] at answers
      simp only [PageWorld.step, halted, place]
      cases answer : pageSizeOr a.2 with
      | error halt =>
        refine ⟨inv.phase, by rintro ⟨⟩, ?_⟩
        rintro halt' ⟨⟩
        exact ⟨none_computed, a, by rw [answers]; rfl, answer⟩
      | ok size =>
        refine ⟨inv.phase.step _ _, fun _ => ?_, fun halt stops => ?_⟩
        · simp only [Once.World.step, place, none_computed, answers]
          exact .cons answer .nil
        · cases stops
    · rw [step_elsewhere halted place]
      refine ⟨inv.phase.step _ _, fun _ => ?_, fun halt stops => ?_⟩
      · dsimp only
        rw [Once.computed_elsewhere w.once 0 place]
        exact answers
      · rw [halted] at stops
        cases stops

theorem waiting_of_step_eq {w : PageWorld τ} {a : τ × Kernel} (goes : w.halted = none)
    (same : w.step a = w) : w.once.Waiting a.1 := by
  by_cases place : w.once.place a.1 = .computing
  · cases answer : pageSizeOr a.2 with
    | error halt =>
      have after := congrArg PageWorld.halted same
      simp only [step, goes, place, answer] at after
      cases after
    | ok size =>
      have after := congrArg PageWorld.once same
      simp only [step, goes, place, answer] at after
      exact Once.waiting_of_step_eq after
  · rw [step_elsewhere goes place] at same
    exact Once.waiting_of_step_eq (congrArg PageWorld.once same)

structure OneSize (w : PageWorld τ) : Prop where
  asked_once : w.asked.length ≤ 1
  one_size : ∀ r ∈ w.once.returned, w.once.computed = [r.2] ∧
    ∃ a, w.asked = [a] ∧ pageSizeOr a.2 = .ok r.2
  page_fits : ∀ r ∈ w.once.returned, ∀ r' ∈ w.once.returned, ∀ base,
    (PageBuffer.construct r.2 r'.2 base).data = (PageBuffer.construct r.2 r'.2 base).underlying
  halted_once : ∀ halt, w.halted = some halt →
    w.once.returned = [] ∧ ∃ a, w.asked = [a] ∧ pageSizeOr a.2 = .error halt
  one_goes_on : w.halted = none → ∃ t, ∀ kernel, w.step (t, kernel) ≠ w

theorem Answered.oneSize {w : PageWorld τ} [Inhabited τ] (inv : Answered w) : OneSize w := by
  have of_returned := inv.of_returned
  refine ⟨inv.asked_once, of_returned, ?_, ?_, ?_⟩
  · intro r member r' member' base
    have same : [r.2] = [r'.2] := (of_returned r member).1.symm.trans (of_returned r' member').1
    rw [PageBuffer.data, PageBuffer.construct, (List.cons.inj same).1]
  · intro halt halted
    obtain ⟨none_computed, once⟩ := inv.stopped halt halted
    refine ⟨List.eq_nil_iff_forall_not_mem.mpr fun r member => ?_, once⟩
    rw [(of_returned r member).1] at none_computed
    cases none_computed
  · intro goes
    obtain ⟨t, moves⟩ := inv.phase.one_moves
    exact ⟨t, fun kernel same => moves (waiting_of_step_eq goes same)⟩

end steps

/-- In every interleaving, sysconf is asked once at most, each call of each thread returns the
one size that came of it, and a PageBuffer spans just what it has allocated. -/
theorem page_size_asked_once [DecidableEq τ] [Inhabited τ] (steps : List (τ × Kernel)) :
    OneSize (Runs.run step (new : PageWorld τ) steps) := by
  have start : Answered (new : PageWorld τ) := ⟨.start 0, fun _ => .nil, by rintro halt ⟨⟩⟩
  have each : Runs.Each step (fun _ _ => True) (new : PageWorld τ) steps :=
    (Runs.each_const step (fun _ => True) new steps).mpr fun _ _ => trivial
  exact (Runs.invariant (fun w a inv _ => Answered.step w a inv) start each).oneSize

end PageWorld

end LibN3.Linux
