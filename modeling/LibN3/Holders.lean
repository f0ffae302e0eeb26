import Mathlib.Data.List.Basic

/-! Holders of resources that are to be released once, by the last that holds them. A
holder that ends releases what it holds, so more than one holder is one too many. -/
namespace Holders

universe u v
variable {ρ : Type u}

structure Holder (ρ : Type u) where
  resource : ρ
  alive : Bool
deriving DecidableEq

structure Ledger (ρ : Type u) where
  holders : List (Holder ρ)
  released : List ρ

/-- Replacing an element by one that reads the same leaves the reading of the list. -/
theorem map_set_same {A : Type u} {B : Type v} {f : A → B} {as : List A} {i : ℕ} {a b : A}
    (here : as[i]? = some a) (same : f b = f a) : (as.set i b).map f = as.map f := by
  induction as generalizing i with
  | nil => rfl
  | cons head tail ih =>
    cases i with
    | zero =>
      cases here
      exact congrArg (· :: tail.map f) same
    | succ i => exact congrArg (f head :: ·) (ih here)

theorem forall_mem_snoc {A : Type u} {P : A → Prop} {as : List A} {b : A} (old : ∀ a ∈ as, P a)
    (new : P b) : ∀ a ∈ as ++ [b], P a :=
  List.forall_mem_append.mpr ⟨old, List.forall_mem_singleton.mpr new⟩

theorem forall_mem_set {A : Type u} {P : A → Prop} {as : List A} {b : A} (old : ∀ a ∈ as, P a)
    (new : P b) (i : ℕ) : ∀ a ∈ as.set i b, P a := by
  intro a member
  rcases List.mem_or_eq_of_mem_set member with present | rfl
  · exact old a present
  · exact new

namespace Ledger

def acquire (l : Ledger ρ) (r : ρ) : Ledger ρ := { l with holders := l.holders ++ [⟨r, true⟩] }

def drop (l : Ledger ρ) (i : ℕ) (r : ρ) : Ledger ρ :=
  ⟨l.holders.set i ⟨r, false⟩, l.released ++ [r]⟩

theorem resources_drop {l : Ledger ρ} {i : ℕ} {r : ρ} (here : l.holders[i]? = some ⟨r, true⟩) :
    (l.drop i r).holders.map Holder.resource = l.holders.map Holder.resource :=
  map_set_same here rfl

variable [DecidableEq ρ]

def holding (l : Ledger ρ) (r : ρ) : ℕ := l.holders.count ⟨r, true⟩

/-- Every resource that was ever held is released once, when nothing holds it. -/
def Balanced (l : Ledger ρ) : Prop :=
  ∀ r, l.released.count r =
    if l.holding r = 0 ∧ r ∈ l.holders.map Holder.resource then 1 else 0

theorem balanced_empty : Balanced (⟨[], []⟩ : Ledger ρ) := by
  intro r
  simp

theorem holding_acquire (l : Ledger ρ) (r s : ρ) :
    (l.acquire r).holding s = l.holding s + if r = s then 1 else 0 := by
  simp [holding, acquire, List.count_append, List.count_singleton]

theorem holding_drop {l : Ledger ρ} {i : ℕ} {r : ρ} (here : l.holders[i]? = some ⟨r, true⟩)
    (s : ρ) : (l.drop i r).holding s = l.holding s - if r = s then 1 else 0 := by
  obtain ⟨inside, holder⟩ := List.getElem?_eq_some_iff.mp here
  simp [holding, drop, List.count_set inside, holder]

theorem holding_pos {l : Ledger ρ} {i : ℕ} {r : ρ} (here : l.holders[i]? = some ⟨r, true⟩) :
    0 < l.holding r :=
  List.count_pos_iff.mpr (List.mem_of_getElem? here)

/-- A resource may be given to a new holder if it was never held, or still is. -/
theorem balanced_acquire {l : Ledger ρ} (balanced : l.Balanced) {r : ρ}
    (available : r ∈ l.holders.map Holder.resource → 0 < l.holding r) :
    (l.acquire r).Balanced := by
  intro s
  have before := balanced s
  rw [holding_acquire]
  simp only [acquire, List.map_append, List.mem_append, List.map_cons, List.map_nil,
    List.mem_singleton]
  by_cases same : r = s
  · subst same
    have released : l.released.count r = 0 := by
      rw [before, if_neg]
      rintro ⟨none, known⟩
      exact absurd (available known) (by omega)
    simpa using released
  · simpa [same, Ne.symm same] using before

theorem held_of_unreleased {l : Ledger ρ} (balanced : l.Balanced) {r : ρ}
    (unreleased : r ∉ l.released) (known : r ∈ l.holders.map Holder.resource) :
    0 < l.holding r := by
  by_contra none
  have counted := balanced r
  rw [if_pos ⟨Nat.eq_zero_of_not_pos none, known⟩, List.count_eq_zero.mpr unreleased] at counted
  cases counted

theorem balanced_drop_iff {l : Ledger ρ} (balanced : l.Balanced) {i : ℕ} {r : ρ}
    (here : l.holders[i]? = some ⟨r, true⟩) : (l.drop i r).Balanced ↔ l.holding r = 1 := by
  have some_hold := holding_pos here
  have known := resources_drop here
  have mem : r ∈ l.holders.map Holder.resource :=
    List.mem_map.mpr ⟨_, List.mem_of_getElem? here, rfl⟩
  have unreleased : l.released.count r = 0 := by
    rw [balanced r, if_neg]
    rintro ⟨none, _⟩
    omega
  constructor
  · intro after
    have counted := after r
    rw [holding_drop here, known] at counted
    simp [drop, unreleased, mem] at counted
    omega
  · intro alone s
    rw [holding_drop here, known]
    by_cases same : r = s
    · subst same
      simp [drop, unreleased, mem, alone]
    · simpa [drop, same, List.count_singleton] using balanced s

end Ledger

end Holders
