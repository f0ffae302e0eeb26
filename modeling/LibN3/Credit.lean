import Mathlib.Algebra.Order.BigOperators.Group.List
import Mathlib.Algebra.Order.Ring.Nat
import Mathlib.Data.List.Basic

/-! Amounts queued in order and paid off from the front.
An erase pass drops whole items while a budget lasts; spending settles entries in
order and leaves the first open one reduced. Both are read over the naturals. -/
namespace Credit

universe u v
variable {α κ : Type u}

def weight (size : α → ℕ) (l : List α) : ℕ := (l.map size).sum

@[simp] theorem weight_nil (size : α → ℕ) : weight size [] = 0 := rfl

@[simp] theorem weight_cons (size : α → ℕ) (x : α) (l : List α) :
    weight size (x :: l) = size x + weight size l := by
  simp [weight]

@[simp] theorem weight_append (size : α → ℕ) (l m : List α) :
    weight size (l ++ m) = weight size l + weight size m := by
  simp [weight]

theorem weight_sublist (size : α → ℕ) {l m : List α} (h : l.Sublist m) :
    weight size l ≤ weight size m :=
  (h.map size).sum_le_sum fun _ _ => Nat.zero_le _

/-- What an erase pass leaves: items go while the budget covers them whole, and the
first one it does not cover uses up the rest of it. Empty items always go. -/
def survivors (size : α → ℕ) : ℕ → List α → List α
  | _, [] => []
  | budget, x :: rest =>
    if size x ≤ budget then survivors size (budget - size x) rest
    else x :: survivors size 0 rest

theorem survivors_sublist (size : α → ℕ) (budget : ℕ) (l : List α) :
    (survivors size budget l).Sublist l := by
  induction l generalizing budget with
  | nil => exact List.Sublist.refl _
  | cons x rest ih =>
    unfold survivors
    split
    · exact (ih _).cons x
    · exact (ih 0).cons_cons x

theorem survivors_eq_nil (size : α → ℕ) (budget : ℕ) (l : List α) :
    survivors size budget l = [] ↔ weight size l ≤ budget := by
  induction l generalizing budget with
  | nil => simp [survivors]
  | cons x rest ih =>
    unfold survivors
    split
    · rename_i fits
      rw [ih, weight_cons]
      omega
    · rename_i exceeds
      simp only [reduceCtorEq, weight_cons, false_iff]
      omega

theorem weight_survivors (size : α → ℕ) (budget : ℕ) (l : List α) :
    weight size l ≤ weight size (survivors size budget l) + budget := by
  induction l generalizing budget with
  | nil => simp
  | cons x rest ih =>
    unfold survivors
    split
    · have tail := ih (budget - size x)
      rw [weight_cons]
      omega
    · have tail := ih 0
      simp only [weight_cons]
      omega

/-- A smaller budget leaves at least what a larger one does, and more items at least what
some of them do. -/
theorem survivors_mono (size : α → ℕ) {a b : ℕ} (le : a ≤ b) {l m : List α}
    (part : l.Sublist m) : (survivors size b l).Sublist (survivors size a m) := by
  induction part generalizing a b with
  | slnil => exact List.Sublist.refl _
  | cons x _ ih =>
    rw [survivors]
    split
    · exact ih (by omega)
    · exact (ih (Nat.zero_le b)).cons x
  | cons_cons x _ ih =>
    rw [survivors, survivors]
    split
    · split
      · exact ih (by omega)
      · exact (ih (Nat.zero_le _)).cons x
    · rw [if_neg (by omega)]
      exact (ih (Nat.le_refl 0)).cons_cons x

/-- Two passes leave at least what one pass with both budgets does. -/
theorem survivors_add (size : α → ℕ) (a b : ℕ) (l : List α) :
    (survivors size (a + b) l).Sublist (survivors size b (survivors size a l)) := by
  induction l generalizing a b with
  | nil => exact List.Sublist.refl _
  | cons x rest ih =>
    have later (c d : ℕ) (le : d ≤ c) :
        (survivors size c rest).Sublist (survivors size d (survivors size 0 rest)) := by
      have once := ih 0 d
      rw [Nat.zero_add] at once
      exact (survivors_mono size le (List.Sublist.refl rest)).trans once
    rw [survivors, survivors]
    by_cases first : size x ≤ a
    · have both : a + b - size x = a - size x + b := by omega
      rw [if_pos (by omega), if_pos first, both]
      exact ih _ _
    · rw [if_neg first, survivors]
      split
      · split
        · exact later _ _ (by omega)
        · exact (later _ 0 (Nat.zero_le _)).cons x
      · rw [if_neg (by omega)]
        exact (later 0 0 (Nat.le_refl 0)).cons_cons x

/-- No item larger than the budget goes. -/
theorem filter_survivors (size : α → ℕ) {least budget : ℕ} (less : budget < least) (l : List α) :
    (survivors size budget l).filter (fun x => decide (least ≤ size x)) =
      l.filter (fun x => decide (least ≤ size x)) := by
  induction l generalizing budget with
  | nil => rfl
  | cons x rest ih =>
    rw [survivors]
    split
    · have small : ¬ least ≤ size x := by omega
      simp only [List.filter_cons, decide_eq_true_eq, small, if_false]
      exact ih (by omega)
    · rw [List.filter_cons, List.filter_cons, ih (Nat.lt_of_le_of_lt (Nat.zero_le _) less)]

/-- The item at this position is not empty and ends past the budget, when some of it was spent
on items before these. -/
def past (size : α → ℕ) (spent budget : ℕ) (l : List α) (i : Fin l.length) : Bool :=
  decide (0 < size l[i] ∧ budget < spent + weight size (l.take (i + 1)))

theorem past_zero (size : α → ℕ) (spent budget : ℕ) (x : α) (rest : List α) :
    past size spent budget (x :: rest) 0 = decide (0 < size x ∧ budget < spent + size x) := by
  simp [past]

theorem past_succ (size : α → ℕ) (spent budget : ℕ) (x : α) (rest : List α)
    (i : Fin rest.length) :
    past size spent budget (x :: rest) i.succ = past size (spent + size x) budget rest i := by
  simp [past, Nat.add_assoc]

theorem survivors_eq_past (size : α → ℕ) (spent budget : ℕ) (l : List α) :
    survivors size (budget - spent) l =
      ((List.finRange l.length).filter (past size spent budget l)).map l.get := by
  induction l generalizing spent with
  | nil => rfl
  | cons x rest ih =>
    have positions : List.finRange (x :: rest).length =
        0 :: (List.finRange rest.length).map Fin.succ := List.finRange_succ
    have tail : (((List.finRange rest.length).map Fin.succ).filter
        (past size spent budget (x :: rest))).map (x :: rest).get =
        survivors size (budget - (spent + size x)) rest := by
      have shifted : past size spent budget (x :: rest) ∘ Fin.succ =
          past size (spent + size x) budget rest :=
        funext (past_succ size spent budget x rest)
      rw [ih, List.filter_map, shifted, List.map_map]
      rfl
    unfold survivors
    rw [positions, List.filter_cons, past_zero]
    split
    · rename_i fits
      have gone : ¬ (0 < size x ∧ budget < spent + size x) := by
        omega
      rw [decide_eq_false gone, if_neg Bool.false_ne_true, tail, Nat.sub_sub]
    · rename_i exceeds
      have left : 0 < size x ∧ budget < spent + size x := by
        omega
      have none_spare : budget - (spent + size x) = 0 := by
        omega
      rw [decide_eq_true left, if_pos rfl, List.map_cons, tail, none_spare]
      rfl

/-- The budget is what some of the first items come to, so it covers none in part. -/
def Boundary (size : α → ℕ) (budget : ℕ) (l : List α) : Prop :=
  ∃ k, weight size (l.take k) = budget

theorem boundary_zero (size : α → ℕ) (l : List α) : Boundary size 0 l := ⟨0, rfl⟩

theorem boundary_cons (size : α → ℕ) (budget : ℕ) (x : α) (rest : List α) :
    Boundary size budget (x :: rest) ↔
      budget = 0 ∨ size x ≤ budget ∧ Boundary size (budget - size x) rest := by
  constructor
  · rintro ⟨k, sum⟩
    cases k with
    | zero => exact .inl sum.symm
    | succ k =>
      rw [List.take_succ_cons, weight_cons] at sum
      exact .inr ⟨by omega, k, by omega⟩
  · rintro (rfl | ⟨fits, k, sum⟩)
    · exact boundary_zero size _
    · refine ⟨k + 1, ?_⟩
      rw [List.take_succ_cons, weight_cons]
      omega

section cells

variable {β : Type v} {size : α → ℕ} {cells : α → List β}

theorem length_flatMap (sized : ∀ x, (cells x).length = size x) (l : List α) :
    (l.flatMap cells).length = weight size l := by
  induction l with
  | nil => rfl
  | cons x rest ih => rw [List.flatMap_cons, List.length_append, ih, sized, weight_cons]

/-- Read as the sequence of their cells, the items an erase pass leaves are what
dropping the budget leaves just when the budget ends where an item does. -/
theorem flatMap_survivors_iff (sized : ∀ x, (cells x).length = size x) {budget : ℕ} {l : List α}
    (covered : budget ≤ weight size l) :
    (survivors size budget l).flatMap cells = (l.flatMap cells).drop budget ↔
      Boundary size budget l := by
  induction l generalizing budget with
  | nil =>
    have zero : budget = 0 := Nat.le_zero.mp covered
    subst zero
    exact iff_of_true rfl (boundary_zero size [])
  | cons x rest ih =>
    rw [weight_cons] at covered
    rw [boundary_cons, survivors, List.flatMap_cons, List.drop_append, sized]
    by_cases fits : size x ≤ budget
    · have gone : (cells x).drop budget = [] := by
        apply List.drop_eq_nil_of_le
        rw [sized]
        exact fits
      rw [if_pos fits, gone, List.nil_append, ih (by omega)]
      constructor
      · intro inner
        exact .inr ⟨fits, inner⟩
      · rintro (rfl | ⟨_, inner⟩)
        · rw [Nat.zero_sub]
          exact boundary_zero size rest
        · exact inner
    · have untouched := (ih (Nat.zero_le _)).mpr (boundary_zero size rest)
      have inside : budget - size x = 0 := by omega
      rw [if_neg fits, List.flatMap_cons, untouched, inside]
      constructor
      · intro same
        have lengths := congrArg List.length same
        simp only [List.length_append, List.length_drop, sized] at lengths
        exact .inl (by omega)
      · rintro (rfl | ⟨le, _⟩)
        · rfl
        · exact absurd le fits

theorem flatMap_survivors_zero (sized : ∀ x, (cells x).length = size x) (l : List α) :
    (survivors size 0 l).flatMap cells = l.flatMap cells :=
  (flatMap_survivors_iff sized (Nat.zero_le _)).mpr (boundary_zero size l)

/-- Read so, what is left is always an end of what was there. -/
theorem flatMap_survivors_suffix (sized : ∀ x, (cells x).length = size x) (budget : ℕ)
    (l : List α) : (survivors size budget l).flatMap cells <:+ l.flatMap cells := by
  induction l generalizing budget with
  | nil => exact List.suffix_rfl
  | cons x rest ih =>
    rw [survivors]
    split
    · exact (ih _).trans (List.suffix_append _ _)
    · have whole : (x :: survivors size 0 rest).flatMap cells = (x :: rest).flatMap cells := by
        rw [List.flatMap_cons, flatMap_survivors_zero sized, List.flatMap_cons]
      exact ⟨[], whole⟩

/-- And no less than what dropping the budget leaves. -/
theorem drop_suffix_flatMap_survivors (sized : ∀ x, (cells x).length = size x) (budget : ℕ)
    (l : List α) : (l.flatMap cells).drop budget <:+ (survivors size budget l).flatMap cells := by
  induction l generalizing budget with
  | nil => exact List.drop_suffix _ _
  | cons x rest ih =>
    rw [survivors]
    split
    · rename_i fits
      have gone : (cells x).drop budget = [] := by
        apply List.drop_eq_nil_of_le
        rw [sized]
        exact fits
      rw [List.flatMap_cons, List.drop_append, gone, List.nil_append, sized]
      exact ih _
    · rw [List.flatMap_cons, List.flatMap_cons, flatMap_survivors_zero sized]
      exact List.drop_suffix _ _

end cells

def total (l : List (κ × ℕ)) : ℕ := weight Prod.snd l

@[simp] theorem total_nil : total ([] : List (κ × ℕ)) = 0 := rfl

@[simp] theorem total_cons (e : κ × ℕ) (l : List (κ × ℕ)) : total (e :: l) = e.2 + total l :=
  weight_cons Prod.snd e l

@[simp] theorem total_append (l m : List (κ × ℕ)) : total (l ++ m) = total l + total m :=
  weight_append Prod.snd l m

/-- Spend an amount on the entries from the front: the names settled, and the
entries left. Nothing more is settled once the amount is used up. -/
def spend : ℕ → List (κ × ℕ) → List κ × List (κ × ℕ)
  | _, [] => ([], [])
  | n, (c, s) :: rest =>
    if n = 0 then ([], (c, s) :: rest)
    else if s ≤ n then (c :: (spend (n - s) rest).1, (spend (n - s) rest).2)
    else ([], (c, s - n) :: rest)

@[simp] theorem spend_zero (l : List (κ × ℕ)) : spend 0 l = ([], l) := by
  cases l <;> rfl

theorem total_left {n : ℕ} {l : List (κ × ℕ)} (covered : n ≤ total l) :
    total (spend n l).2 + n = total l := by
  induction l generalizing n with
  | nil => simpa [spend] using covered
  | cons e rest ih =>
    obtain ⟨c, s⟩ := e
    simp only [total_cons] at covered ih ⊢
    unfold spend
    split
    · simp_all
    · split
      · have tail := ih (n := n - s) (by omega)
        dsimp only
        omega
      · simp only [total_cons]
        omega

/-- Spending in two parts is spending their sum. -/
theorem spend_add (a b : ℕ) (l : List (κ × ℕ)) :
    spend (a + b) l =
      ((spend a l).1 ++ (spend b (spend a l).2).1, (spend b (spend a l).2).2) := by
  induction l generalizing a b with
  | nil => rfl
  | cons e rest ih =>
    obtain ⟨c, s⟩ := e
    by_cases zero : a = 0
    · subst zero
      rw [spend_zero, Nat.zero_add, List.nil_append]
    · have some_left : ¬ a + b = 0 := by omega
      by_cases settles : s ≤ a
      · have both : a + b - s = a - s + b := by omega
        simp only [spend, zero, some_left, if_false, settles, if_true,
          Nat.le_add_right_of_le settles, both, ih (a - s) b, List.cons_append]
      · by_cases none : b = 0
        · subst none
          simp only [spend, zero, if_false, settles, Nat.add_zero, if_true, List.append_nil]
        · by_cases reaches : s ≤ a + b
          · have left : s - a ≤ b := by omega
            have both : a + b - s = b - (s - a) := by omega
            simp only [spend, zero, none, some_left, if_false, settles, reaches, left, if_true,
              both, List.nil_append]
          · have short : ¬ s - a ≤ b := by omega
            simp only [spend, zero, none, some_left, if_false, settles, reaches, short,
              List.nil_append, Nat.sub_sub]

/-- An empty entry that starts at the amount is the first one, or one of the rest. -/
theorem starts_empty_cons (n : ℕ) (d : κ) (s : ℕ) (rest : List (κ × ℕ)) :
    (∃ before c after, (d, s) :: rest = before ++ (c, 0) :: after ∧ total before = n) ↔
      (s = 0 ∧ n = 0) ∨
        (s ≤ n ∧ ∃ before c after, rest = before ++ (c, 0) :: after ∧ total before = n - s) := by
  constructor
  · rintro ⟨before, c, after, eq, sum⟩
    cases before with
    | nil =>
      have head := (List.cons.inj eq).1
      exact .inl ⟨congrArg Prod.snd head, by simpa using sum.symm⟩
    | cons b before =>
      obtain ⟨rfl, tail⟩ := List.cons.inj eq
      simp only [total_cons] at sum
      exact .inr ⟨by omega, before, c, after, tail, by omega⟩
  · rintro (⟨rfl, rfl⟩ | ⟨le, before, c, after, rfl, sum⟩)
    · exact ⟨[], d, rest, rfl, rfl⟩
    · exact ⟨(d, s) :: before, c, after, rfl, by simp only [total_cons]; omega⟩

/-- Spending stops in front of an empty entry exactly when one starts at the amount. -/
theorem spend_stops_empty (n : ℕ) (l : List (κ × ℕ)) :
    (∃ c rest, (spend n l).2 = (c, 0) :: rest) ↔
      ∃ before c after, l = before ++ (c, 0) :: after ∧ total before = n := by
  induction l generalizing n with
  | nil => simp [spend]
  | cons e rest ih =>
    obtain ⟨d, s⟩ := e
    rw [starts_empty_cons, spend]
    by_cases stop : n = 0
    · subst stop
      simp only [if_true, List.cons.injEq, Prod.mk.injEq, and_true]
      constructor
      · rintro ⟨c, tail, ⟨_, zero⟩, _⟩
        exact .inl zero
      · rintro (zero | ⟨le, _⟩)
        · exact ⟨d, rest, ⟨rfl, zero⟩, rfl⟩
        · exact ⟨d, rest, ⟨rfl, Nat.le_zero.mp le⟩, rfl⟩
    · rw [if_neg stop]
      split
      · rename_i le
        simp only [stop, and_false, false_or, le, true_and]
        exact ih (n - s)
      · rename_i exceeds
        simp only [stop, and_false, false_or, exceeds, false_and, iff_false]
        rintro ⟨c, tail, eq⟩
        have zero : s - n = 0 := congrArg Prod.snd (List.cons.inj eq).1
        omega

/-- Where each entry ends, when the first starts here. -/
def ends (start : ℕ) : List (κ × ℕ) → List (κ × ℕ)
  | [] => []
  | (c, s) :: rest => (c, start + s) :: ends (start + s) rest

theorem ends_append (start : ℕ) (l m : List (κ × ℕ)) :
    ends start (l ++ m) = ends start l ++ ends (start + total l) m := by
  induction l generalizing start with
  | nil => rfl
  | cons e rest ih =>
    obtain ⟨c, s⟩ := e
    simp only [List.cons_append, ends, ih, total_cons, Nat.add_assoc]

/-- With no empty entry, spending settles the entries that end by what is spent, and leaves the
others to end where they did. -/
theorem spend_ends (start n : ℕ) {l : List (κ × ℕ)} (amounts : ∀ e ∈ l, 0 < e.2) :
    (spend n l).1 =
        ((ends start l).takeWhile fun e => decide (e.2 ≤ start + n)).map Prod.fst ∧
      ends (start + n) (spend n l).2 =
        (ends start l).dropWhile fun e => decide (e.2 ≤ start + n) := by
  induction l generalizing start n with
  | nil => exact ⟨rfl, rfl⟩
  | cons e rest ih =>
    obtain ⟨c, s⟩ := e
    obtain ⟨some, others⟩ := List.forall_mem_cons.mp amounts
    have positive : 0 < s := some
    by_cases settles : s ≤ n
    · have going : ¬ n = 0 := by omega
      have reached : start + s ≤ start + n := Nat.add_le_add_left settles start
      obtain ⟨names, left⟩ := ih (start + s) (n - s) others
      have meet : start + s + (n - s) = start + n := by omega
      rw [meet] at names left
      simp only [spend, going, if_false, settles, if_true, ends, List.takeWhile, List.dropWhile,
        reached, decide_true, List.map_cons, names, left, and_self]
    · have ahead : ¬ start + s ≤ start + n := by omega
      have meet : start + n + (s - n) = start + s := by omega
      by_cases stop : n = 0
      · subst stop
        rw [Nat.add_zero] at ahead
        simp only [spend_zero, ends, List.takeWhile, List.dropWhile, Nat.add_zero, ahead,
          decide_false, List.map_nil, and_self]
      · simp only [spend, stop, if_false, settles, ends, List.takeWhile, List.dropWhile, ahead,
          decide_false, List.map_nil, meet, and_self]

theorem spend_positive (n : ℕ) {l : List (κ × ℕ)} (amounts : ∀ e ∈ l, 0 < e.2) :
    ∀ e ∈ (spend n l).2, 0 < e.2 := by
  induction l generalizing n with
  | nil => exact amounts
  | cons e rest ih =>
    obtain ⟨c, s⟩ := e
    obtain ⟨_, others⟩ := List.forall_mem_cons.mp amounts
    rw [spend]
    split
    · exact amounts
    · split
      · exact ih _ others
      · rename_i exceeds
        exact List.forall_mem_cons.mpr ⟨Nat.sub_pos_of_lt (Nat.lt_of_not_le exceeds), others⟩

def charge (part : ℕ) : List (κ × ℕ) → List (κ × ℕ)
  | [] => []
  | (c, s) :: rest => (c, s - part) :: rest

def Open (part : ℕ) : List (κ × ℕ) → Prop
  | [] => part = 0
  | (_, s) :: _ => part = 0 ∨ part < s

@[simp] theorem charge_zero (l : List (κ × ℕ)) : charge 0 l = l := by
  cases l <;> rfl

@[simp] theorem charge_names (part : ℕ) (l : List (κ × ℕ)) :
    (charge part l).map Prod.fst = l.map Prod.fst := by
  cases l <;> rfl

theorem open_zero (l : List (κ × ℕ)) : Open 0 l := by
  cases l with
  | nil => rfl
  | cons e rest => exact .inl rfl

theorem total_charge {part : ℕ} {l : List (κ × ℕ)} (h : Open part l) :
    total (charge part l) + part = total l := by
  cases l with
  | nil => simpa [charge, Open] using h
  | cons e rest =>
    obtain ⟨c, s⟩ := e
    have short : part = 0 ∨ part < s := h
    simp only [charge, total_cons]
    omega

theorem spend_charged {part n : ℕ} {l : List (κ × ℕ)} (h : Open part l)
    (covered : n ≤ total (charge part l)) :
    ∃ done rest part', l = done ++ rest ∧ Open part' rest ∧ part + n = total done + part' ∧
      spend n (charge part l) = (done.map Prod.fst, charge part' rest) := by
  induction l generalizing part n with
  | nil =>
    have none : part = 0 := h
    have zero : n = 0 := by simpa [charge] using covered
    exact ⟨[], [], 0, rfl, rfl, by simp [none, zero], by simp [charge, spend]⟩
  | cons e rest ih =>
    obtain ⟨c, s⟩ := e
    have short : part = 0 ∨ part < s := h
    simp only [charge, total_cons] at covered
    simp only [charge, spend]
    by_cases stop : n = 0
    · exact ⟨[], (c, s) :: rest, part, rfl, h, by simp [stop], by simp [stop]⟩
    · rw [if_neg stop]
      by_cases settles : s - part ≤ n
      · obtain ⟨done, left, part', eq, openLeft, sum, spent⟩ :=
          ih (open_zero rest) (n := n - (s - part)) (by rw [charge_zero]; omega)
        rw [charge_zero] at spent
        refine ⟨(c, s) :: done, left, part', by rw [eq]; rfl, openLeft, ?_, ?_⟩
        · simp only [total_cons]
          omega
        · rw [if_pos settles, spent]
          rfl
      · refine ⟨[], (c, s) :: rest, part + n, rfl, .inr (by omega), by simp, ?_⟩
        rw [if_neg settles]
        simp [Nat.sub_sub]

/-- A ledger part-way: the first entries are settled, and what is left is the
remaining suffix with its first entry reduced by the part already paid on it. -/
inductive Progress : List (κ × ℕ) → ℕ → List κ → List (κ × ℕ) → Prop
  | at_part (done rest : List (κ × ℕ)) (part : ℕ) (short : Open part rest) :
      Progress (done ++ rest) (total done + part) (done.map Prod.fst) (charge part rest)

namespace Progress

variable {entries left : List (κ × ℕ)} {spent : ℕ} {settled : List κ}

theorem start : Progress ([] : List (κ × ℕ)) 0 [] [] := .at_part [] [] 0 rfl

theorem push (h : Progress entries spent settled left) (e : κ × ℕ) :
    Progress (entries ++ [e]) spent settled (left ++ [e]) := by
  cases h with
  | at_part done rest part short =>
    cases rest with
    | nil =>
      have none : part = 0 := short
      subst none
      simpa [charge] using at_part done [e] 0 (open_zero _)
    | cons r rest => simpa [charge] using at_part done (r :: (rest ++ [e])) part short

theorem pay (h : Progress entries spent settled left) {n : ℕ} (covered : n ≤ total left) :
    Progress entries (spent + n) (settled ++ (spend n left).1) (spend n left).2 := by
  cases h with
  | at_part done rest part short =>
    obtain ⟨more, open_, part', rfl, short', sum, spent⟩ := spend_charged short covered
    have books := at_part (done ++ more) open_ part' short'
    rw [spent]
    have amount : total done + part + n = total (done ++ more) + part' := by
      rw [total_append]
      omega
    rw [amount]
    simpa using books

theorem conserved (h : Progress entries spent settled left) :
    total left + spent = total entries := by
  cases h with
  | at_part done rest part short =>
    have reduced := total_charge short
    rw [total_append]
    omega

theorem settled_eq (h : Progress entries spent settled left) :
    settled = (entries.take settled.length).map Prod.fst := by
  cases h with
  | at_part done rest part short => simp

theorem left_eq (h : Progress entries spent settled left) :
    left = charge (spent - total (entries.take settled.length))
      (entries.drop settled.length) := by
  cases h with
  | at_part done rest part short => simp

theorem length_le (h : Progress entries spent settled left) :
    settled.length ≤ entries.length := by
  cases h with
  | at_part done rest part short => simp

theorem not_early (h : Progress entries spent settled left) {i : ℕ} (hi : i < settled.length) :
    total (entries.take (i + 1)) ≤ spent := by
  cases h with
  | at_part done rest part short =>
    have inside : i + 1 ≤ done.length := by simpa [Nat.succ_le_iff] using hi
    rw [List.take_append_of_le_length inside]
    exact (weight_sublist _ (List.take_sublist _ _)).trans (Nat.le_add_right _ _)

theorem not_late (h : Progress entries spent settled left) {i : ℕ} (hi : i < entries.length)
    (amount : (entries[i]).2 ≠ 0) (reached : total (entries.take (i + 1)) ≤ spent) :
    i < settled.length := by
  cases h with
  | at_part done rest part short =>
    rw [List.length_map]
    by_contra outside
    obtain ⟨j, rfl⟩ := Nat.exists_eq_add_of_le (Nat.le_of_not_lt outside)
    have within : j < rest.length := by
      rw [List.length_append] at hi
      omega
    have same : (done ++ rest)[done.length + j] = rest[j] := by simp
    rw [same] at amount
    rw [Nat.add_assoc, List.take_length_add_append, total_append] at reached
    have below : part < total (rest.take (j + 1)) := by
      rw [List.take_succ_eq_append_getElem within, total_append, total_cons, total_nil]
      cases rest with
      | nil => exact absurd within (Nat.not_lt_zero j)
      | cons r rest =>
        have open_ : part = 0 ∨ part < r.2 := short
        cases j with
        | zero =>
          have first : ((r :: rest)[0]).2 = r.2 := rfl
          omega
        | succ j =>
          rw [List.take_succ_cons, total_cons]
          omega
    omega

/-- When entries are named by their place, one that is left has its end reached just
when the first one left is empty. -/
theorem reached_iff {entries left : List (ℕ × ℕ)} {spent : ℕ} {settled : List ℕ}
    (h : Progress entries spent settled left)
    (names : entries.map Prod.fst = List.range entries.length) :
    (∃ e ∈ left, total (entries.take (e.1 + 1)) ≤ spent) ↔
      ∃ c rest, left = (c, 0) :: rest := by
  cases h with
  | at_part done rest part short =>
    have placed : rest.map Prod.fst = (List.range (done ++ rest).length).drop done.length := by
      rw [← names]
      simp
    constructor
    · rintro ⟨e, member, reached⟩
      have named : e.1 ∈ rest.map Prod.fst := by
        rw [← charge_names part rest]
        exact List.mem_map_of_mem member
      rw [placed, List.mem_drop_iff_getElem] at named
      obtain ⟨j, within, place⟩ := named
      rw [List.getElem_range] at place
      cases rest with
      | nil => simp [charge] at member
      | cons r rest =>
        have open_ : part = 0 ∨ part < r.2 := short
        rw [← place, Nat.add_assoc, List.take_length_add_append, List.take_succ_cons, total_append,
          total_cons] at reached
        exact ⟨r.1, rest, by simp only [charge]; congr; omega⟩
    · rintro ⟨c, tail, eq⟩
      cases rest with
      | nil => simp [charge] at eq
      | cons r rest =>
        have open_ : part = 0 ∨ part < r.2 := short
        have zero : r.2 - part = 0 := congrArg Prod.snd (List.cons.inj eq).1
        have place : r.1 = done.length := by
          have first := congrArg List.head? placed
          simpa [List.head?_drop] using first
        refine ⟨(r.1, r.2 - part), List.mem_cons_self, ?_⟩
        rw [place, List.take_length_add_append, total_append]
        simp only [List.take_succ_cons, List.take_zero, total_cons, total_nil]
        omega

theorem length_le_of_amounts {settled' : List κ} {left' : List (κ × ℕ)}
    (h : Progress entries spent settled left) (h' : Progress entries spent settled' left')
    (amounts : ∀ e ∈ entries, e.2 ≠ 0) : settled.length ≤ settled'.length := by
  by_contra longer
  have inside : settled'.length < settled.length := Nat.lt_of_not_le longer
  have bound : settled'.length < entries.length := Nat.lt_of_lt_of_le inside h.length_le
  have late := h'.not_late bound (amounts _ (List.getElem_mem bound)) (h.not_early inside)
  exact Nat.lt_irrefl _ late

theorem settled_unique {settled' : List κ} {left' : List (κ × ℕ)}
    (h : Progress entries spent settled left) (h' : Progress entries spent settled' left')
    (amounts : ∀ e ∈ entries, e.2 ≠ 0) : settled = settled' := by
  have length := Nat.le_antisymm (length_le_of_amounts h h' amounts)
    (length_le_of_amounts h' h amounts)
  rw [h.settled_eq, h'.settled_eq, length]

end Progress

end Credit
