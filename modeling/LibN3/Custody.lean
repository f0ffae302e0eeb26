import Mathlib.Data.List.Nodup
import Mathlib.Logic.Equiv.Basic
import Mathlib.Logic.Function.Basic

/-! Tokens kept in cells: minted into one, carried from one to another, or given up. None
is ever in two cells, and each one minted is in a cell or has been given up. -/
namespace Custody

universe u
variable {C : Type u}

structure Store (C : Type u) where
  holds : C → Option ℕ
  minted : ℕ
  lost : List ℕ

namespace Store

variable [DecidableEq C]

def mint (s : Store C) (c : C) : Store C :=
  { s with holds := Function.update s.holds c (some s.minted), minted := s.minted + 1 }

def discard (s : Store C) (c : C) : Store C :=
  { s with holds := Function.update s.holds c none, lost := s.lost ++ (s.holds c).toList }

/-- The token is taken out before the target is looked at, so the two cells may be one:
what is given up is what the target holds then. -/
def carry (s : Store C) (source target : C) : Store C :=
  let emptied := Function.update s.holds source none
  { s with
    holds := Function.update emptied target (s.holds source)
    lost := s.lost ++ (emptied target).toList }

end Store

structure Conserved (s : Store C) : Prop where
  apart : ∀ c d token, s.holds c = some token → s.holds d = some token → c = d
  minted : ∀ c token, s.holds c = some token → token < s.minted
  lost_minted : ∀ token ∈ s.lost, token < s.minted
  kept : ∀ token < s.minted, (∃ c, s.holds c = some token) ↔ token ∉ s.lost
  lost_once : s.lost.Nodup

namespace Conserved

variable {s : Store C}

theorem start : Conserved (⟨fun _ : C => none, 0, []⟩ : Store C) where
  apart := by rintro c d token ⟨⟩
  minted := by rintro c token ⟨⟩
  lost_minted := by rintro token ⟨⟩
  kept := by rintro token ⟨⟩
  lost_once := List.nodup_nil

theorem not_lost (con : Conserved s) {c : C} {token : ℕ} (held : s.holds c = some token) :
    token ∉ s.lost :=
  (con.kept token (con.minted c token held)).mp ⟨c, held⟩

/- A token that is nowhere any more was given up in between. -/
theorem lost_of_vanished {s' : Store C} (con : Conserved s) (con' : Conserved s')
    (grown : s.minted ≤ s'.minted) {token : ℕ} (held : ∃ c, s.holds c = some token)
    (vanished : ¬ ∃ c, s'.holds c = some token) : token ∈ s'.lost ∧ token ∉ s.lost := by
  obtain ⟨c, here⟩ := held
  have below := con.minted c token here
  have given_up := mt (con'.kept token (Nat.lt_of_lt_of_le below grown)).mpr vanished
  exact ⟨not_not.mp given_up, con.not_lost here⟩

/- Which cell is which does not matter. -/
theorem renamed (con : Conserved s) (e : Equiv.Perm C) :
    Conserved { s with holds := s.holds ∘ e } := by
  refine ⟨?_, fun c => con.minted (e c), con.lost_minted, ?_, con.lost_once⟩
  · intro c d token held held'
    exact e.injective (con.apart (e c) (e d) token held held')
  · intro token below
    rw [← con.kept token below]
    exact (e.surjective.exists (p := fun c => s.holds c = some token)).symm

variable [DecidableEq C]

theorem mint (con : Conserved s) {c : C} (free : s.holds c = none) : Conserved (s.mint c) := by
  have fresh (d : C) : s.holds d ≠ some s.minted := fun held =>
    Nat.lt_irrefl _ (con.minted d s.minted held)
  refine ⟨?_, ?_, ?_, ?_, con.lost_once⟩
  · intro d e token held held'
    simp only [Store.mint, Function.update_apply] at held held'
    split at held <;> split at held'
    · rename_i left right
      rw [left, right]
    · cases held
      exact absurd held' (fresh e)
    · cases held'
      exact absurd held (fresh d)
    · exact con.apart d e token held held'
  · intro d token held
    simp only [Store.mint, Function.update_apply] at held ⊢
    split at held
    · cases held
      exact Nat.lt_succ_self _
    · exact Nat.lt_succ_of_lt (con.minted d token held)
  · intro token lost
    exact Nat.lt_succ_of_lt (con.lost_minted token lost)
  · intro token below
    have unlost : s.minted ∉ s.lost := fun lost => Nat.lt_irrefl _ (con.lost_minted _ lost)
    rcases Nat.lt_succ_iff_lt_or_eq.mp below with old | rfl
    · rw [show (s.mint c).lost = s.lost from rfl, ← con.kept token old]
      constructor
      · rintro ⟨d, held⟩
        simp only [Store.mint, Function.update_apply] at held
        split at held
        · cases held
          exact absurd old (Nat.lt_irrefl _)
        · exact ⟨d, held⟩
      · rintro ⟨d, held⟩
        have other : d ≠ c := by
          rintro rfl
          rw [free] at held
          cases held
        exact ⟨d, (Function.update_of_ne other _ _).trans held⟩
    · exact iff_of_true ⟨c, Function.update_self _ _ _⟩ unlost

theorem discard (con : Conserved s) (c : C) : Conserved (s.discard c) := by
  have still {d : C} {token : ℕ} (held : (s.discard c).holds d = some token) :
      d ≠ c ∧ s.holds d = some token := by
    simp only [Store.discard, Function.update_apply] at held
    split at held
    · cases held
    · rename_i other
      exact ⟨other, held⟩
  refine ⟨?_, ?_, ?_, ?_, ?_⟩
  · intro d e token held held'
    exact con.apart d e token (still held).2 (still held').2
  · intro d token held
    exact con.minted d token (still held).2
  · intro token lost
    rcases List.mem_append.mp lost with old | new
    · exact con.lost_minted token old
    · exact con.minted c token (Option.mem_toList.mp new)
  · intro token below
    simp only [Store.discard, List.mem_append, Option.mem_toList, not_or]
    rw [← con.kept token below]
    constructor
    · rintro ⟨d, held⟩
      obtain ⟨other, before⟩ := still held
      exact ⟨⟨d, before⟩, fun here => other (con.apart d c token before here)⟩
    · rintro ⟨⟨d, held⟩, elsewhere⟩
      have other : d ≠ c := by
        rintro rfl
        exact elsewhere held
      exact ⟨d, (Function.update_of_ne other _ _).trans held⟩
  · apply con.lost_once.append
    · cases s.holds c <;> simp
    · intro token lost here
      exact con.not_lost (Option.mem_toList.mp here) lost

/- Carrying to another cell is giving up what that cell holds and exchanging the two. -/
theorem carry_eq {source target : C} (apart : target ≠ source) :
    s.carry source target =
      { s.discard target with
        holds := (s.discard target).holds ∘ Equiv.swap source target } := by
  have emptied : Function.update s.holds source none target = s.holds target :=
    Function.update_of_ne apart _ _
  have places : Function.update (Function.update s.holds source none) target (s.holds source) =
      Function.update s.holds target none ∘ Equiv.swap source target := by
    funext c
    rcases eq_or_ne c target with rfl | outside
    · simp [apart.symm]
    · rcases eq_or_ne c source with rfl | elsewhere
      · simp [outside]
      · simp [Equiv.swap_apply_of_ne_of_ne elsewhere outside, outside, elsewhere]
  simp only [Store.carry, Store.discard, emptied, places]

theorem carry (con : Conserved s) (source target : C) : Conserved (s.carry source target) := by
  rcases eq_or_ne target source with rfl | apart
  · have unchanged : s.carry target target = s := by
      simp [Store.carry]
    rw [unchanged]
    exact con
  · rw [carry_eq apart]
    exact (con.discard target).renamed (Equiv.swap source target)

end Conserved

end Custody
