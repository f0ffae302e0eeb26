import LibN3.Moves
import Mathlib.Algebra.BigOperators.Group.List.Basic
import Mathlib.Algebra.Group.End

/-! std::swap on cells with a MoveOnly in them. That a MoveOnly is std::movable, as ownership.cpp
asserts, is to say among other things that two can be swapped. -/
namespace LibN3

universe u
variable {C : Type u} {T V : Type}

/-- One is moved to a local variable, the other to the one, and the variable to the other. -/
def swap (tmp a b : C) : List (CellOp C T) :=
  [.moveConstruct tmp a, .moveAssign a b, .moveAssign b tmp, .destroy tmp]

variable [DecidableEq C]

namespace Cells

/-- The cells after a move to this one from the other. -/
def moved (cells : Cells C V) (this other : C) : Cells C V :=
  (cells.set other (some .empty)).set this (cells other)

variable {cells : Cells C V} {this other c tmp a b : C}

theorem moved_this : cells.moved this other this = cells other := Function.update_self _ _ _

theorem moved_other (apart : other ≠ this) : cells.moved this other other = some .empty :=
  (Function.update_of_ne apart _ _).trans (Function.update_self _ _ _)

theorem moved_else (here : c ≠ this) (there : c ≠ other) : cells.moved this other c = cells c :=
  (Function.update_of_ne here _ _).trans (Function.update_of_ne there _ _)

/-- The first move empties one of the two and the second the other, and where the two are one
cell it stays empty. -/
theorem moved_twice (apart : b ≠ tmp) : ((cells.moved tmp a).moved a b) b = some .empty := by
  rcases eq_or_ne b a with rfl | other
  · rw [moved_this, moved_other apart]
  · exact moved_other other

theorem moved_swap (dead : cells tmp = none) (apart_a : a ≠ tmp) (apart_b : b ≠ tmp) :
    (((cells.moved tmp a).moved a b).moved b tmp).set tmp none = cells ∘ Equiv.swap a b := by
  funext c
  rw [Function.comp_apply]
  rcases eq_or_ne c tmp with rfl | here
  · rw [Equiv.swap_apply_of_ne_of_ne apart_a.symm apart_b.symm, dead]
    exact Function.update_self _ _ _
  · refine (Function.update_of_ne here _ _).trans ?_
    rcases eq_or_ne c b with rfl | other
    · rw [moved_this, moved_else apart_a.symm here.symm, moved_this, Equiv.swap_apply_right]
    · rw [moved_else other here]
      rcases eq_or_ne c a with rfl | third
      · rw [moved_this, moved_else apart_b other.symm, Equiv.swap_apply_left]
      · rw [moved_else third other, moved_else here third,
          Equiv.swap_apply_of_ne_of_ne third other]

end Cells

namespace CellWorld

variable {w : CellWorld C T} {this other c tmp a b : C}

omit [DecidableEq C] in
theorem held_empty (empty : w.cells c = some .empty) : w.held c = none := by
  rw [held, Cells.held, empty]
  rfl

theorem step_moveConstruct (alive : (w.cells other).isSome) :
    w.step (.moveConstruct this other) = { w with cells := w.cells.moved this other } := by
  rw [step, Cells.moveConstruct_eq alive]
  rfl

/-- A move to an empty cell destroys nothing. -/
theorem step_moveAssign (empty : w.cells this = some .empty) (alive : (w.cells other).isSome) :
    w.step (.moveAssign this other) = { w with cells := w.cells.moved this other } := by
  have target : (w.cells this).isSome := by
    rw [empty]
    rfl
  have nothing : Function.update w.cells.held other none this = none := by
    have free : w.cells.held this = none := held_empty empty
    rw [Function.update_apply, free, ite_self]
  simp only [step, Cells.moveAssign_eq target alive, nothing, Option.map_none, Option.toList_none,
    List.append_nil]
  rfl

theorem step_destroy (empty : w.cells this = some .empty) :
    w.step (.destroy this) = { w with cells := w.cells.set this none } := by
  simp only [step, held_empty empty, Option.map_none, Option.toList_none, List.append_nil]

omit [DecidableEq C] in
theorem apart_of_alive (dead : w.cells tmp = none) (alive : (w.cells c).isSome) : c ≠ tmp := by
  rintro rfl
  rw [dead] at alive
  cases alive

theorem swap_steps (dead : w.cells tmp = none) (first : (w.cells a).isSome)
    (second : (w.cells b).isSome) :
    Runs.Each step Admits w (swap tmp a b) ∧
      Runs.run step w (swap tmp a b) = { w with cells := w.cells ∘ Equiv.swap a b } := by
  have apart_a := apart_of_alive dead first
  have apart_b := apart_of_alive dead second
  have empty₁ : w.cells.moved tmp a a = some .empty := Cells.moved_other apart_a
  have alive₁ : (w.cells.moved tmp a b).isSome := by
    rcases eq_or_ne b a with rfl | other
    · rw [empty₁]
      rfl
    · rw [Cells.moved_else apart_b other]
      exact second
  have empty₂ : (w.cells.moved tmp a).moved a b b = some .empty := Cells.moved_twice apart_b
  have alive₂ : ((w.cells.moved tmp a).moved a b tmp).isSome := by
    rw [Cells.moved_else apart_a.symm apart_b.symm, Cells.moved_this]
    exact first
  have empty₃ : ((w.cells.moved tmp a).moved a b).moved b tmp tmp = some .empty :=
    Cells.moved_other apart_b.symm
  have step₁ : w.step (.moveConstruct tmp a) = { w with cells := w.cells.moved tmp a } :=
    step_moveConstruct first
  have step₂ : ({ w with cells := w.cells.moved tmp a } : CellWorld C T).step (.moveAssign a b) =
      { w with cells := (w.cells.moved tmp a).moved a b } := step_moveAssign empty₁ alive₁
  have step₃ : ({ w with cells := (w.cells.moved tmp a).moved a b } : CellWorld C T).step
      (.moveAssign b tmp) =
        { w with cells := ((w.cells.moved tmp a).moved a b).moved b tmp } :=
    step_moveAssign empty₂ alive₂
  constructor
  · simp only [swap, Runs.Each, step₁, step₂, step₃, Admits, dead, empty₁, empty₂, empty₃, first,
      alive₁, alive₂, Option.isNone_none, Option.isSome_some, and_self]
  · simp only [swap, Runs.run, step₁, step₂, step₃]
    rw [step_destroy empty₃]
    simp only [Cells.moved_swap dead apart_a apart_b]

end CellWorld

/-- However often cells are swapped, each value is where the swaps take it, none is copied and
none is destroyed, also where a cell is swapped with itself. -/
theorem swaps_permute (tmp : C) (pairs : List (C × C)) (w : CellWorld C T)
    (dead : w.cells tmp = none)
    (alive : ∀ p ∈ pairs, (w.cells p.1).isSome ∧ (w.cells p.2).isSome) :
    Runs.Each CellWorld.step CellWorld.Admits w (pairs.flatMap fun p => swap tmp p.1 p.2) ∧
      Runs.run CellWorld.step w (pairs.flatMap fun p => swap tmp p.1 p.2) =
        { w with cells := w.cells ∘ (pairs.map fun p => Equiv.swap p.1 p.2).prod } := by
  induction pairs generalizing w with
  | nil => exact ⟨trivial, rfl⟩
  | cons p rest ih =>
    obtain ⟨here, there⟩ := List.forall_mem_cons.mp alive
    obtain ⟨admitted, swapped⟩ := CellWorld.swap_steps dead here.1 here.2
    have still {c : C} (before : (w.cells c).isSome) :
        (w.cells (Equiv.swap p.1 p.2 c)).isSome := by
      rw [Equiv.swap_apply_def]
      split
      · exact here.2
      · split
        · exact here.1
        · exact before
    have tmp_stays : w.cells (Equiv.swap p.1 p.2 tmp) = none := by
      rw [Equiv.swap_apply_of_ne_of_ne (CellWorld.apart_of_alive dead here.1).symm
        (CellWorld.apart_of_alive dead here.2).symm, dead]
    obtain ⟨admitted', permuted⟩ := ih { w with cells := w.cells ∘ Equiv.swap p.1 p.2 } tmp_stays
      fun q member => ⟨still (there q member).1, still (there q member).2⟩
    rw [List.flatMap_cons, Runs.each_append, Runs.run_append, swapped]
    refine ⟨⟨admitted, admitted'⟩, permuted.trans ?_⟩
    rw [List.map_cons, List.prod_cons, Equiv.Perm.coe_mul, Function.comp_assoc]

def twoCells : CellWorld ℕ ℕ := Runs.run CellWorld.step .new [.construct 0 3, .construct 1 4]

theorem three_swaps_permute :
    Runs.Each CellWorld.step CellWorld.Admits twoCells
        ([(0, 1), (1, 1), (1, 0)].flatMap fun p => swap 9 p.1 p.2) ∧
      Runs.run CellWorld.step twoCells
          ([(0, 1), (1, 1), (1, 0)].flatMap fun p => swap 9 p.1 p.2) =
        { twoCells with
          cells := twoCells.cells ∘
            ([(0, 1), (1, 1), (1, 0)].map fun p => Equiv.swap p.1 p.2).prod } :=
  swaps_permute 9 _ twoCells rfl (by decide)

end LibN3
