import LibN3.Custody
import LibN3.Ownership
import LibN3.Runs

/-! Cells with a MoveOnly in them. Each value put into one has a number of its own, which
goes where the moves of std::optional take the value, so a value that was copied would be
seen in two cells. Those moves are taken to end normally. -/
namespace LibN3

universe u
variable {C : Type u} {T V : Type}

namespace MoveOnly

/-- std::exchange(inner, std::nullopt): the object afterwards, and what was exchanged. -/
def exchange (other : MoveOnly V) : MoveOnly V × Option V :=
  ({ other with inner := none }, other.inner)

/-- The object after a write through operator*. -/
def write (m : MoveOnly V) (change : V → V) : MoveOnly V :=
  { m with inner := m.inner.map change }

end MoveOnly

/-- The objects that are alive. -/
abbrev Cells (C : Type u) (V : Type) := C → Option (MoveOnly V)

namespace Cells

def held (cells : Cells C V) (c : C) : Option V := (cells c).bind MoveOnly.inner

variable [DecidableEq C]

def set (cells : Cells C V) (c : C) (m : Option (MoveOnly V)) : Cells C V :=
  Function.update cells c m

def moveConstruct (cells : Cells C V) (this other : C) : Cells C V :=
  match cells other with
  | none => cells
  | some source =>
    let (emptied, taken) := source.exchange
    (cells.set other (some emptied)).set this (some ⟨taken⟩)

/-- operator=, and the value that the assignment to inner finds there. The other object has
been emptied by then, also where it is this one. -/
def moveAssign (cells : Cells C V) (this other : C) : Cells C V × Option V :=
  match cells other with
  | none => (cells, none)
  | some source =>
    let (emptied, taken) := source.exchange
    let cells := cells.set other (some emptied)
    (cells.set this ((cells this).map fun target => { target with inner := taken }),
      cells.held this)

end Cells

/-- A value, and its number. -/
structure Value (T : Type) where
  id : ℕ
  content : T

/-- The cells, how many values there have been, which of them were destroyed, and what was
written to each last. -/
structure CellWorld (C : Type u) (T : Type) where
  cells : Cells C (Value T)
  minted : ℕ
  lost : List ℕ
  written : ℕ → Option T

inductive CellOp (C : Type u) (T : Type)
  | constructEmpty (this : C)
  | construct (this : C) (content : T)
  | moveConstruct (this other : C)
  | moveAssign (this other : C)
  | mutate (this : C) (change : T → T)
  | destroy (this : C)

namespace CellWorld

def new : CellWorld C T := ⟨fun _ => none, 0, [], fun _ => none⟩

def held (w : CellWorld C T) : C → Option (Value T) := w.cells.held

def Holds (w : CellWorld C T) (c : C) (id : ℕ) : Prop := ∃ v ∈ w.held c, v.id = id

/-- There is no object where one is constructed and one wherever one is used, and operator*
is not called on an empty one. -/
def Admits (w : CellWorld C T) : CellOp C T → Prop
  | .constructEmpty this | .construct this _ => (w.cells this).isNone
  | .moveConstruct this other => (w.cells this).isNone ∧ (w.cells other).isSome
  | .moveAssign this other => (w.cells this).isSome ∧ (w.cells other).isSome
  | .mutate this _ => ∃ m ∈ w.cells this, m.hasValue = true
  | .destroy this => (w.cells this).isSome

instance decidableAdmits (w : CellWorld C T) (op : CellOp C T) : Decidable (w.Admits op) :=
  match op with
  | .constructEmpty this | .construct this _ =>
    inferInstanceAs (Decidable ((w.cells this).isNone = true))
  | .moveConstruct this other =>
    inferInstanceAs (Decidable ((w.cells this).isNone = true ∧ (w.cells other).isSome = true))
  | .moveAssign this other =>
    inferInstanceAs (Decidable ((w.cells this).isSome = true ∧ (w.cells other).isSome = true))
  | .mutate this _ =>
    inferInstanceAs (Decidable (∃ m ∈ w.cells this, m.hasValue = true))
  | .destroy this => inferInstanceAs (Decidable ((w.cells this).isSome = true))

variable [DecidableEq C]

def step (w : CellWorld C T) : CellOp C T → CellWorld C T
  | .constructEmpty this => { w with cells := w.cells.set this (some .empty) }
  | .construct this content =>
    { w with
      cells := w.cells.set this (some (.new ⟨w.minted, content⟩))
      minted := w.minted + 1
      written := Function.update w.written w.minted (some content) }
  | .moveConstruct this other => { w with cells := w.cells.moveConstruct this other }
  | .moveAssign this other =>
    let (cells, overwritten) := w.cells.moveAssign this other
    { w with cells := cells, lost := w.lost ++ (overwritten.map Value.id).toList }
  | .mutate this change =>
    let rewrite (v : Value T) : Value T := { v with content := change v.content }
    let record (v : Value T) := Function.update w.written v.id (some (change v.content))
    { w with
      cells := w.cells.set this ((w.cells this).map fun m => m.write rewrite)
      written := ((w.held this).map record).getD w.written }
  | .destroy this =>
    { w with
      cells := w.cells.set this none
      lost := w.lost ++ ((w.held this).map Value.id).toList }

def store (w : CellWorld C T) : Custody.Store C :=
  ⟨Option.map Value.id ∘ w.held, w.minted, w.lost⟩

end CellWorld

/- No value is in two cells, one that was put into a cell is in some cell unless it was
destroyed, which happens once, and each is what was last written to it. -/
structure Kept (w : CellWorld C T) : Prop where
  single : ∀ c d id, w.Holds c id → w.Holds d id → c = d
  minted : ∀ c id, w.Holds c id → id < w.minted
  accounted : ∀ id < w.minted, (∃ c, w.Holds c id) ↔ id ∉ w.lost
  lost_once : w.lost.Nodup
  current : ∀ c, ∀ v ∈ w.held c, w.written v.id = some v.content

namespace CellOp

def Moves (op : CellOp C T) (this other : C) : Prop :=
  op = .moveConstruct this other ∨ op = .moveAssign this other

def Uses : CellOp C T → C → Prop
  | .constructEmpty this, c | .construct this _, c => c = this
  | .moveConstruct this other, c | .moveAssign this other, c => c = this ∨ c = other
  | .mutate this _, c | .destroy this, c => c = this

/- The value in the cell is not there afterwards. -/
def Ends (op : CellOp C T) (c : C) : Prop :=
  op = .destroy c ∨ ∃ other, other ≠ c ∧ op = .moveAssign c other

end CellOp

/- What one operation does to the cells. -/
structure Transfers [DecidableEq C] (w : CellWorld C T) (op : CellOp C T) : Prop where
  taken : ∀ this other, op.Moves this other → (w.step op).cells this = w.cells other
  emptied : ∀ this other, op.Moves this other → this ≠ other →
    ((w.step op).cells other).map MoveOnly.hasValue = some false
  own : ∀ this, op = .moveAssign this this → w.step op = w
  others : ∀ c, ¬ op.Uses c → (w.step op).cells c = w.cells c
  vanished : ∀ id, (∃ c, w.Holds c id) → (¬ ∃ c, (w.step op).Holds c id) →
    ∃ c, w.Holds c id ∧ op.Ends c

namespace Cells

variable [DecidableEq C] {cells : Cells C V} {this other : C}

theorem held_set (cells : Cells C V) (c : C) (m : Option (MoveOnly V)) :
    (cells.set c m).held = Function.update cells.held c (m.bind MoveOnly.inner) :=
  Function.comp_update (fun m : Option (MoveOnly V) => m.bind MoveOnly.inner) cells c m

theorem moveConstruct_eq (alive : (cells other).isSome) :
    cells.moveConstruct this other = (cells.set other (some .empty)).set this (cells other) := by
  obtain ⟨source, here⟩ := Option.isSome_iff_exists.mp alive
  simp only [moveConstruct, here]
  rfl

theorem moveAssign_eq (target : (cells this).isSome) (alive : (cells other).isSome) :
    cells.moveAssign this other =
      ((cells.set other (some .empty)).set this (cells other),
        Function.update cells.held other none this) := by
  obtain ⟨source, here⟩ := Option.isSome_iff_exists.mp alive
  have still : ∃ m, cells.set other (some .empty) this = some m := by
    rcases eq_or_ne this other with rfl | apart
    · exact ⟨.empty, Function.update_self _ _ _⟩
    · obtain ⟨m, there⟩ := Option.isSome_iff_exists.mp target
      exact ⟨m, (Function.update_of_ne apart _ _).trans there⟩
  obtain ⟨m, there⟩ := still
  have emptied : source.exchange = (.empty, source.inner) := rfl
  simp only [moveAssign, here, emptied, there, held_set]
  rfl

end Cells

namespace CellWorld

variable {w : CellWorld C T} {op : CellOp C T} {this other c : C} {id : ℕ}

theorem holds_iff : w.Holds c id ↔ w.store.holds c = some id := by
  simp [Holds, store]

theorem held_none (absent : (w.cells c).isNone) : w.held c = none := by
  rw [held, Cells.held, Option.isNone_iff_eq_none.mp absent]
  rfl

/- Only what is there can be changed. -/
theorem held_of_mutate {change : T → T} (admits : w.Admits (.mutate this change)) :
    ∃ old, w.held this = some old := by
  obtain ⟨m, alive, engaged⟩ := admits
  obtain ⟨old, inner⟩ := Option.isSome_iff_exists.mp engaged
  refine ⟨old, ?_⟩
  rw [held, Cells.held, Option.mem_def.mp alive]
  exact inner

theorem store_eq {held : C → Option (Value T)} (h : w.held = held) :
    w.store = ⟨Option.map Value.id ∘ held, w.minted, w.lost⟩ := by
  rw [store, h]

variable [DecidableEq C]

theorem held_constructEmpty (admits : w.Admits (.constructEmpty this)) :
    (w.step (.constructEmpty this)).held = w.held := by
  calc (w.step (.constructEmpty this)).held
      = Function.update w.held this none := Cells.held_set _ _ _
    _ = w.held := Function.update_eq_self_iff.mpr (held_none admits).symm

theorem held_construct (content : T) :
    (w.step (.construct this content)).held =
      Function.update w.held this (some ⟨w.minted, content⟩) :=
  Cells.held_set _ _ _

/- Constructing from another cell and assigning from it leave the same cells. -/
theorem cells_moved (admits : w.Admits op) (moves : op.Moves this other) :
    (w.step op).cells = (w.cells.set other (some .empty)).set this (w.cells other) := by
  rcases moves with rfl | rfl
  · exact Cells.moveConstruct_eq admits.2
  · exact congrArg Prod.fst (Cells.moveAssign_eq admits.1 admits.2)

theorem held_moved (admits : w.Admits op) (moves : op.Moves this other) :
    (w.step op).held =
      Function.update (Function.update w.held other none) this (w.held other) := by
  rw [held, cells_moved admits moves, Cells.held_set, Cells.held_set]
  rfl

theorem held_mutate (change : T → T) :
    (w.step (.mutate this change)).held =
      Function.update w.held this
        ((w.held this).map fun v => { v with content := change v.content }) := by
  simp only [held, step, Cells.held_set, Cells.held]
  cases w.cells this <;> rfl

theorem written_mutate (change : T → T) {old : Value T} (before : w.held this = some old) :
    (w.step (.mutate this change)).written =
      Function.update w.written old.id (some (change old.content)) := by
  simp only [step, before]
  rfl

theorem held_destroy : (w.step (.destroy this)).held = Function.update w.held this none :=
  Cells.held_set _ _ _

theorem store_constructEmpty (admits : w.Admits (.constructEmpty this)) :
    (w.step (.constructEmpty this)).store = w.store := by
  rw [store_eq (held_constructEmpty admits)]
  rfl

theorem store_construct (content : T) :
    (w.step (.construct this content)).store = w.store.mint this := by
  rw [store_eq (held_construct content), Function.comp_update]
  rfl

theorem store_mutate (change : T → T) : (w.step (.mutate this change)).store = w.store := by
  have same_id : (((w.held this).map fun v => { v with content := change v.content }).map
      Value.id) = (w.held this).map Value.id := by
    cases w.held this <;> rfl
  rw [store_eq (held_mutate change), Function.comp_update, same_id]
  exact congrArg (fun holds => (⟨holds, w.minted, w.lost⟩ : Custody.Store C))
    (Function.update_eq_self this (Option.map Value.id ∘ w.held))

theorem store_destroy : (w.step (.destroy this)).store = w.store.discard this := by
  rw [store_eq held_destroy, Function.comp_update]
  rfl

/- The value that a move overwrites: none in a cell that is only now constructed, nor in one
that is assigned to itself. -/
theorem lost_moved (admits : w.Admits op) (moves : op.Moves this other) :
    (w.step op).lost = w.lost ++ (Function.update w.store.holds other none this).toList := by
  rcases moves with rfl | rfl
  · have free : w.store.holds this = none := congrArg (Option.map Value.id) (held_none admits.1)
    rw [Function.update_apply, free, ite_self, Option.toList_none, List.append_nil]
    rfl
  · have ids := congrFun (Function.comp_update (Option.map Value.id) w.held other none) this
    have overwritten : (w.step (.moveAssign this other)).lost =
        w.lost ++ ((Function.update w.held other none this).map Value.id).toList := by
      simp only [step, Cells.moveAssign_eq admits.1 admits.2]
      rfl
    rw [overwritten]
    exact congrArg (w.lost ++ ·.toList) ids

theorem store_moved (admits : w.Admits op) (moves : op.Moves this other) :
    (w.step op).store = w.store.carry other this := by
  have minted : (w.step op).minted = w.minted := by
    rcases moves with rfl | rfl <;> rfl
  rw [store_eq (held_moved admits moves), Function.comp_update, Function.comp_update,
    lost_moved admits moves, minted]
  rfl

theorem conserved_step (con : Custody.Conserved w.store) (admits : w.Admits op) :
    Custody.Conserved (w.step op).store := by
  cases op with
  | constructEmpty this =>
    rw [store_constructEmpty admits]
    exact con
  | construct this content =>
    rw [store_construct]
    exact con.mint (congrArg (Option.map Value.id) (held_none admits))
  | moveConstruct this other =>
    rw [store_moved admits (.inl rfl)]
    exact con.carry other this
  | moveAssign this other =>
    rw [store_moved admits (.inr rfl)]
    exact con.carry other this
  | mutate this change =>
    rw [store_mutate]
    exact con
  | destroy this =>
    rw [store_destroy]
    exact con.discard this

end CellWorld

/- What holds of every world that the operations lead to. -/
structure InCustody (w : CellWorld C T) : Prop where
  conserved : Custody.Conserved w.store
  current : ∀ c, ∀ v ∈ w.held c, w.written v.id = some v.content

namespace InCustody

variable {w : CellWorld C T} {op : CellOp C T}

theorem start : InCustody (.new : CellWorld C T) where
  conserved := Custody.Conserved.start
  current := by rintro c v ⟨⟩

theorem kept (inv : InCustody w) : Kept w where
  single c d id held held' :=
    inv.conserved.apart c d id (CellWorld.holds_iff.mp held) (CellWorld.holds_iff.mp held')
  minted c id held := inv.conserved.minted c id (CellWorld.holds_iff.mp held)
  accounted id below := by
    simp only [CellWorld.holds_iff]
    exact inv.conserved.kept id below
  lost_once := inv.conserved.lost_once
  current := inv.current

variable [DecidableEq C]

theorem current_moved (inv : InCustody w) {this other c : C} {v : Value T}
    (place : v ∈ Function.update (Function.update w.held other none) this (w.held other) c) :
    w.written v.id = some v.content := by
  simp only [Function.update_apply] at place
  split at place
  · exact inv.current other v place
  · split at place
    · cases place
    · exact inv.current c v place

/- Only here does it matter that no other cell has the value. -/
theorem current_mutate (inv : InCustody w) {this c : C} {change : T → T} {old v : Value T}
    (before : w.held this = some old) (here : v ∈ (w.step (.mutate this change)).held c) :
    (w.step (.mutate this change)).written v.id = some v.content := by
  rw [CellWorld.written_mutate change before]
  rw [CellWorld.held_mutate, before, Function.update_apply] at here
  split at here
  · cases here
    exact Function.update_self _ _ _
  · rename_i elsewhere
    have different : v.id ≠ old.id := fun same =>
      elsewhere (inv.kept.single c this v.id ⟨v, here, rfl⟩ ⟨old, before, same.symm⟩)
    exact (Function.update_of_ne different _ _).trans (inv.current c v here)

theorem current_step (inv : InCustody w) (admits : w.Admits op) (c : C) (v : Value T)
    (here : v ∈ (w.step op).held c) : (w.step op).written v.id = some v.content := by
  cases op with
  | constructEmpty this =>
    rw [CellWorld.held_constructEmpty admits] at here
    exact inv.current c v here
  | construct this content =>
    rw [CellWorld.held_construct, Function.update_apply] at here
    split at here
    · cases here
      exact Function.update_self _ _ _
    · have older : v.id < w.minted :=
        inv.kept.minted c v.id ⟨v, here, rfl⟩
      exact (Function.update_of_ne (Nat.ne_of_lt older) _ _).trans (inv.current c v here)
  | moveConstruct this other =>
    rw [CellWorld.held_moved admits (.inl rfl)] at here
    exact inv.current_moved here
  | moveAssign this other =>
    rw [CellWorld.held_moved admits (.inr rfl)] at here
    exact inv.current_moved here
  | mutate this change =>
    obtain ⟨old, before⟩ := CellWorld.held_of_mutate admits
    exact inv.current_mutate before here
  | destroy this =>
    rw [CellWorld.held_destroy, Function.update_apply] at here
    split at here
    · cases here
    · exact inv.current c v here

theorem step (w : CellWorld C T) (op : CellOp C T) (inv : InCustody w) (admits : w.Admits op) :
    InCustody (w.step op) where
  conserved := CellWorld.conserved_step inv.conserved admits
  current := inv.current_step admits

theorem vanished (inv : InCustody w) (admits : w.Admits op) {id : ℕ} (before : ∃ c, w.Holds c id)
    (after : ¬ ∃ c, (w.step op).Holds c id) : ∃ c, w.Holds c id ∧ op.Ends c := by
  have grown : w.minted ≤ (w.step op).minted := by
    cases op <;> first | exact Nat.le_refl _ | exact Nat.le_succ _
  simp only [CellWorld.holds_iff] at before after
  obtain ⟨lost, kept⟩ := inv.conserved.lost_of_vanished (inv.step w op admits).conserved grown
    before after
  cases op with
  | constructEmpty this | construct this content | moveConstruct this other
  | mutate this change =>
    exact absurd lost kept
  | moveAssign this other =>
    rw [CellWorld.store_moved admits (.inr rfl)] at lost
    have overwritten := Option.mem_toList.mp ((List.mem_append.mp lost).resolve_left kept)
    rcases eq_or_ne this other with rfl | apart
    · rw [Function.update_self] at overwritten
      cases overwritten
    · rw [Function.update_of_ne apart] at overwritten
      exact ⟨this, CellWorld.holds_iff.mpr overwritten, .inr ⟨other, apart.symm, rfl⟩⟩
  | destroy this =>
    rw [CellWorld.store_destroy] at lost
    have destroyed := Option.mem_toList.mp ((List.mem_append.mp lost).resolve_left kept)
    exact ⟨this, CellWorld.holds_iff.mpr destroyed, .inl rfl⟩

end InCustody

section Transfers

variable [DecidableEq C] {w : CellWorld C T} {op : CellOp C T} {this other c : C}

theorem cells_others (admits : w.Admits op) (unused : ¬ op.Uses c) :
    (w.step op).cells c = w.cells c := by
  have moved {this other : C} (moves : op.Moves this other) (here : c ≠ this) (there : c ≠ other) :
      (w.step op).cells c = w.cells c := by
    rw [CellWorld.cells_moved admits moves]
    exact (Function.update_of_ne here _ _).trans (Function.update_of_ne there _ _)
  cases op with
  | constructEmpty this | construct this content | mutate this change | destroy this =>
    exact Function.update_of_ne unused _ _
  | moveConstruct this other =>
    obtain ⟨here, there⟩ := not_or.mp unused
    exact moved (.inl rfl) here there
  | moveAssign this other =>
    obtain ⟨here, there⟩ := not_or.mp unused
    exact moved (.inr rfl) here there

theorem self_assign (admits : w.Admits (.moveAssign this this)) :
    w.step (.moveAssign this this) = w := by
  have cells : (w.cells.set this (some .empty)).set this (w.cells this) = w.cells := by
    rw [Cells.set, Cells.set, Function.update_idem, Function.update_eq_self]
  have nothing : Function.update w.cells.held this none this = none := Function.update_self _ _ _
  simp only [CellWorld.step, Cells.moveAssign_eq admits.1 admits.2, cells, nothing]
  simp

theorem transfers (inv : InCustody w) (admits : w.Admits op) : Transfers w op where
  taken this other moves := by
    rw [CellWorld.cells_moved admits moves]
    exact Function.update_self _ _ _
  emptied this other moves apart := by
    have other_cell : (w.step op).cells other = some .empty := by
      rw [CellWorld.cells_moved admits moves]
      exact (Function.update_of_ne apart.symm _ _).trans (Function.update_self _ _ _)
    rw [other_cell]
    rfl
  own this same := by
    subst same
    exact self_assign admits
  others c unused := cells_others admits unused
  vanished id before after := inv.vanished admits before after

/-- Whatever is done to cells, no value is in two of them or lost, and whatever is done next
moves a value as a whole: nothing else vanishes than what ends with its cell or is assigned
over from another. -/
theorem moves_keep_values (run : List (CellOp C T))
    (admitted : Runs.Each CellWorld.step CellWorld.Admits .new run) :
    Kept (Runs.run CellWorld.step .new run) ∧
      ∀ op, (Runs.run CellWorld.step .new run).Admits op →
        Transfers (Runs.run CellWorld.step .new run) op := by
  have inv := Runs.invariant InCustody.step InCustody.start admitted
  exact ⟨inv.kept, fun op admits => transfers inv admits⟩

/- A value made in one cell, moved to a second, written to, assigned to itself and moved to
a third that held another, before what is left of it is moved on. -/
def chainOfMoves : List (CellOp ℕ ℕ) :=
  [.construct 0 1, .moveConstruct 1 0, .mutate 1 (· + 1), .moveAssign 1 1, .construct 2 7,
    .moveAssign 2 1, .moveConstruct 3 1, .destroy 0]

theorem chain_of_moves_kept :
    Kept (Runs.run CellWorld.step .new chainOfMoves) ∧
      Transfers (Runs.run CellWorld.step .new chainOfMoves) (.moveAssign 3 2) :=
  have kept := moves_keep_values chainOfMoves (by decide)
  ⟨kept.1, kept.2 (.moveAssign 3 2) (by decide)⟩

end Transfers

end LibN3
