import Mathlib.Data.List.MinMax
import Mathlib.Data.Multiset.AddSub

/-! A priority queue by what it promises. How it keeps its elements is left open, and so
is which one is on top where several are greatest. -/
namespace Priority

universe u v w

structure Queue (α : Type u) [DecidableEq α] (less : α → α → Prop) where
  State : Type v
  contents : State → Multiset α
  new : State
  push : State → α → State
  top : State → Option α
  pop : State → State
  contents_new : contents new = 0
  contents_push : ∀ q a, contents (push q a) = a ::ₘ contents q
  contents_pop : ∀ q a, top q = some a → contents (pop q) = (contents q).erase a
  top_none : ∀ q, top q = none → contents q = 0
  top_mem : ∀ q a, top q = some a → a ∈ contents q
  top_greatest : ∀ q a, top q = some a → ∀ b ∈ contents q, ¬ less a b

namespace Queue

variable {α : Type u} [DecidableEq α] {less : α → α → Prop} (pq : Queue α less)

def drain : ℕ → pq.State → List α
  | 0, _ => []
  | n + 1, q =>
    match pq.top q with
    | none => []
    | some a => a :: drain n (pq.pop q)

theorem drain_subset (n : ℕ) (q : pq.State) : ∀ a ∈ pq.drain n q, a ∈ pq.contents q := by
  induction n generalizing q with
  | zero => simp [drain]
  | succ n ih =>
    intro a member
    unfold drain at member
    cases top : pq.top q with
    | none => simp [top] at member
    | some b =>
      rw [top] at member
      rcases List.mem_cons.mp member with rfl | later
      · exact pq.top_mem q a top
      · have left := ih (pq.pop q) a later
        rw [pq.contents_pop q b top] at left
        exact Multiset.mem_of_mem_erase left

/-- What comes out first is greatest among what comes out after it. -/
theorem drain_pairwise (n : ℕ) (q : pq.State) :
    (pq.drain n q).Pairwise fun a b => ¬ less a b := by
  induction n generalizing q with
  | zero => exact .nil
  | succ n ih =>
    unfold drain
    cases top : pq.top q with
    | none => exact .nil
    | some a =>
      apply List.Pairwise.cons _ (ih (pq.pop q))
      intro b later
      have left := pq.drain_subset n (pq.pop q) b later
      rw [pq.contents_pop q a top] at left
      exact pq.top_greatest q a top b (Multiset.mem_of_mem_erase left)

theorem drain_contents {n : ℕ} {q : pq.State} (size : (pq.contents q).card = n) :
    (pq.drain n q : Multiset α) = pq.contents q := by
  induction n generalizing q with
  | zero => exact (Multiset.card_eq_zero.mp size).symm
  | succ n ih =>
    unfold drain
    cases top : pq.top q with
    | none =>
      rw [pq.top_none q top] at size
      cases size
    | some a =>
      have member := pq.top_mem q a top
      have popped := pq.contents_pop q a top
      have smaller : (pq.contents (pq.pop q)).card = n := by
        rw [popped, Multiset.card_erase_of_mem member, size]
        rfl
      rw [← Multiset.cons_coe, ih smaller, popped]
      exact Multiset.cons_erase member

end Queue

/-- A queue that keeps a list and looks for the greatest key in all of it. -/
def Queue.ofList {α : Type u} {κ : Type w} [DecidableEq α] [LinearOrder κ] (key : α → κ)
    {less : α → α → Prop} (ordered : ∀ a b, less a b ↔ key a < key b) : Queue α less where
  State := List α
  contents := fun l => l
  new := []
  push := fun l a => a :: l
  top := List.argmax key
  pop := fun l => match l.argmax key with
    | none => l
    | some a => l.erase a
  contents_new := rfl
  contents_push := fun _ _ => rfl
  contents_pop := by
    intro l a top
    simp [top]
  top_none := by
    intro l none
    rw [List.argmax_eq_none.mp none]
    rfl
  top_mem := fun l a top => List.argmax_mem top
  top_greatest := by
    intro l a top b member
    rw [ordered, not_lt]
    exact List.le_of_mem_argmax member top

end Priority
