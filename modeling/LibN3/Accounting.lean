import LibN3.QueueRuns

/-! The four representations of one backlog over whole runs, in the Release build with
callbacks that return: the buffers, their count, their bytes, and the sizes recorded
with the callbacks. -/
namespace LibN3
open Credit

/- The books agree: the count, the byte counter, the buffers and the callbacks all
describe the bytes pushed and not yet popped. -/
structure BooksAgree (h : History) : Prop where
  count : h.queue.bufferSize.toNat = h.buffers.length
  bytes : h.queue.bufferBytesSize.toNat = h.held
  held : h.held + h.popped = h.pushed
  recorded : h.recorded + h.popped = h.pushed

def QueueOp.bytes : QueueOp → ℕ
  | .push buf => buf.bytes
  | .pushMulti multi => bytesOf multi.buffers
  | .pop _ => 0

def History.Bounded (h : History) (op : QueueOp) : Prop :=
  h.Roomy op ∧ h.pushed + op.bytes < 2 ^ 64

instance decidableBounded (h : History) (op : QueueOp) : Decidable (h.Bounded op) :=
  inferInstanceAs (Decidable (h.Roomy op ∧ h.pushed + op.bytes < 2 ^ 64))

structure BoundedInv (h : History) : Prop extends QueueInv h where
  bytes_fit : h.pushed < 2 ^ 64
  bounded : h.held ≤ h.pushed

namespace BoundedInv

variable {h : History}

theorem start : BoundedInv History.new where
  toQueueInv := .start
  bytes_fit := by decide
  bounded := Nat.le_refl 0

theorem counter (inv : BoundedInv h) : h.queue.bufferBytesSize.toNat = h.pushed := by
  rw [inv.bytes, UInt64.toNat_ofNat']
  exact Nat.mod_eq_of_lt inv.bytes_fit

theorem pushMulti (inv : BoundedInv h) (multi : RefMultiBuffer)
    (fits : h.Bounded (.pushMulti multi)) :
    BoundedInv (h.step .release quiet (.pushMulti multi)) := by
  obtain ⟨room, below⟩ := fits
  have size : multi.sizeBytes.toNat = bytesOf multi.buffers := by
    rw [sizeBytes_toNat]
    exact Nat.mod_eq_of_lt (Nat.lt_of_le_of_lt (Nat.le_add_left _ _) below)
  have next := inv.toQueueInv.pushMulti .release quiet multi room
  rw [step_pushMulti inv.running] at next ⊢
  refine ⟨next, ?_, ?_⟩
  · rw [pushed_enter, size]
    exact below
  · rw [held_enter, pushed_enter, size]
    exact Nat.add_le_add_right inv.bounded _

theorem step (h : History) (op : QueueOp) (inv : BoundedInv h) (fits : h.Bounded op) :
    BoundedInv (h.step .release quiet op) := by
  cases op with
  | push buf =>
    have single : h.Bounded (.pushMulti ⟨[buf]⟩) := by
      simpa [History.Bounded, History.Roomy, QueueOp.bytes] using fits
    rw [step_push]
    exact inv.pushMulti ⟨[buf]⟩ single
  | pushMulti multi => exact inv.pushMulti multi fits
  | pop bytes =>
    have next := inv.toQueueInv.pop fits.1
    obtain ⟨buffers, _, _⟩ := inv.pop_effect fits.1
    have same : (h.step .release quiet (.pop bytes)).pushed = h.pushed := by
      rcases inv.pop_cases fits.1 with ⟨_, _, returns⟩ | ⟨left, _, returns⟩
      · rw [step_pop inv.running returns]
        rfl
      · rw [step_pop inv.running returns]
        rfl
    have lighter := weight_sublist RefBuffer.bytes
      (survivors_sublist RefBuffer.bytes bytes.toNat h.buffers)
    refine ⟨next, ?_, ?_⟩
    · rw [same]
      exact inv.bytes_fit
    · rw [same, History.held, buffers]
      exact lighter.trans inv.bounded

end BoundedInv

theorem booksAgree_iff {h : History} (inv : BoundedInv h) : BooksAgree h ↔ h.popped = 0 := by
  have books := inv.recorded_add_popped
  have covered := inv.covered
  have bounded := inv.bounded
  constructor
  · intro agree
    have counter := agree.bytes
    have total := agree.held
    rw [inv.counter] at counter
    omega
  · intro untouched
    refine ⟨inv.counted, ?_, ?_, books⟩
    · rw [inv.counter]
      omega
    · omega

theorem booksAgree_step (h : History) (op : QueueOp) (inv : BoundedInv h) (agree : BooksAgree h)
    (fits : h.Bounded op) :
    BooksAgree (h.step .release quiet op) ↔ ∀ bytes, op = .pop bytes → bytes = 0 := by
  have untouched := (booksAgree_iff inv).mp agree
  rw [booksAgree_iff (inv.step h op fits)]
  cases op with
  | push buf =>
    rw [step_push, step_pushMulti inv.running]
    simpa [History.enter] using untouched
  | pushMulti multi =>
    rw [step_pushMulti inv.running]
    simpa [History.enter] using untouched
  | pop bytes =>
    rw [(inv.pop_effect fits.1).2.2, untouched, Nat.zero_add]
    constructor
    · rintro zero _ ⟨⟩
      exact UInt64.toNat_inj.mp zero
    · intro only
      rw [only bytes rfl]
      rfl

abbrev BoundedAdmitted (ops : List QueueOp) : Prop :=
  Runs.Each (History.step .release quiet) History.Bounded .new ops

/-- The books agree throughout a run exactly when every pop in it asks for no byte:
pop lowers the count of buffers but never the counter of their bytes. -/
theorem books_agree_iff_nothing_popped (ops : List QueueOp) (fits : BoundedAdmitted ops) :
    Runs.Always (History.step .release quiet) BooksAgree .new ops ↔
      ∀ bytes, QueueOp.pop bytes ∈ ops → bytes = 0 := by
  have start : BooksAgree .new := (booksAgree_iff .start).mpr rfl
  have preserves := fun h op inv fits (_ : ∀ bytes, op = .pop bytes → bytes = 0) =>
    BoundedInv.step h op inv fits
  rw [Runs.always_iff_each preserves booksAgree_step .start start fits, Runs.each_const]
  constructor
  · intro all bytes member
    exact all _ member bytes rfl
  · rintro none_popped _ member bytes rfl
    exact none_popped bytes member

theorem books_agree_pushes_only :
    Runs.Always (History.step .release quiet) BooksAgree .new
      [.push (.mk 64 2), .pushMulti ⟨[.mk 128 1, .mk 256 3]⟩, .pop 0] :=
  (books_agree_iff_nothing_popped _ (by decide)).mpr (by simp)

theorem books_disagree_after_pop :
    ¬ ∀ ops, BoundedAdmitted ops →
      Runs.Always (History.step .release quiet) BooksAgree .new ops := by
  intro claim
  have agree := claim [.push (.mk 64 1), .pop 1] (by decide)
  have counter := agree.2.2.bytes
  exact absurd counter (by decide)

/- Callbacks fire in push order, once each, and exactly when due. -/
structure FiredInOrder (h : History) : Prop where
  running : h.fault = none
  numbered : h.entries.map Prod.fst = List.range h.entries.length
  in_order : h.fired = List.range h.fired.length
  pushed_first : h.fired.length ≤ h.entries.length
  not_early : ∀ i ∈ h.fired, h.endOf i ≤ h.popped
  not_late : ∀ i (hi : i < h.entries.length),
    (h.entries[i]).2 ≠ 0 → h.endOf i ≤ h.popped → i ∈ h.fired
  pending : amounts h.queue.callbacks =
    charge (h.popped - total (h.entries.take h.fired.length)) (h.entries.drop h.fired.length)
  goes_on : ∀ bytes : SizeT, bytes.toNat ≤ h.outstanding → 0 < bytes.toNat →
    h.queue.empty = false
  only_in_pop : ∀ op, (h.step .release quiet op).fired = h.fired ∨ ∃ bytes, op = .pop bytes

theorem QueueInv.goes_on {h : History} (inv : QueueInv h) {bytes : SizeT}
    (within : bytes.toNat ≤ h.outstanding) (some : 0 < bytes.toNat) : h.queue.empty = false := by
  by_contra stop
  have none_held := inv.empty_iff.mp (by simpa using stop)
  have covered := inv.covered
  have same := inv.recorded_eq
  unfold History.held at covered
  rw [none_held, bytesOf_nil] at covered
  omega

theorem QueueInv.fired_eq {h : History} (inv : QueueInv h) :
    h.fired = List.range h.fired.length := by
  have settled := inv.ledger.settled_eq
  rw [List.map_take, inv.names, List.take_range, min_eq_left inv.ledger.length_le] at settled
  exact settled

theorem QueueInv.mem_fired {h : History} (inv : QueueInv h) (i : ℕ) :
    i ∈ h.fired ↔ i < h.fired.length := by
  rw [inv.fired_eq, List.mem_range, List.length_range]

theorem fired_only_in_pop {h : History} (running : h.fault = none) (build : Build)
    (throws : ℕ → Bool) (op : QueueOp) :
    (h.step build throws op).fired = h.fired ∨ ∃ bytes, op = .pop bytes := by
  cases op with
  | push buf =>
    rw [step_push, step_pushMulti running]
    exact .inl rfl
  | pushMulti multi =>
    rw [step_pushMulti running]
    exact .inl rfl
  | pop bytes => exact .inr ⟨bytes, rfl⟩

theorem QueueInv.fired_in_order {h : History} (inv : QueueInv h) : FiredInOrder h where
  running := inv.running
  numbered := inv.names
  in_order := inv.fired_eq
  pushed_first := inv.ledger.length_le
  not_early := fun i member => inv.ledger.not_early ((inv.mem_fired i).mp member)
  not_late := fun i hi amount reached =>
    (inv.mem_fired i).mpr (inv.ledger.not_late hi amount reached)
  pending := inv.ledger.left_eq
  goes_on := fun _ within some => inv.goes_on within some
  only_in_pop := fired_only_in_pop inv.running .release quiet

/-- Completions fire in order, once, neither early nor late. Without empty pushes the
sequence fired depends on the bytes popped and not on how the pops were split. -/
theorem callbacks_fire_in_order :
    (∀ ops, ReleaseAdmitted ops → FiredInOrder (releaseRun ops)) ∧
    (∀ ops ops', ReleaseAdmitted ops → ReleaseAdmitted ops' →
      (releaseRun ops).entries = (releaseRun ops').entries →
      (∀ e ∈ (releaseRun ops).entries, e.2 ≠ 0) →
      (releaseRun ops).popped = (releaseRun ops').popped →
      (releaseRun ops).fired = (releaseRun ops').fired) := by
  constructor
  · intro ops fits
    exact (QueueInv.run fits).fired_in_order
  · intro ops ops' fits fits' same_pushes amounts same_pops
    have ledger := (QueueInv.run fits).ledger
    have ledger' := (QueueInv.run fits').ledger
    rw [← same_pushes, ← same_pops] at ledger'
    exact ledger.settled_unique ledger' amounts

theorem split_pops_fire_alike :
    FiredInOrder (releaseRun [.push (.mk 64 4), .push (.mk 128 1), .push (.mk 256 2), .pop 5]) ∧
      (releaseRun [.push (.mk 64 4), .push (.mk 128 1), .push (.mk 256 2), .pop 5]).fired =
      (releaseRun [.push (.mk 64 4), .push (.mk 128 1), .pop 2, .push (.mk 256 2), .pop 3]).fired :=
  ⟨callbacks_fire_in_order.1 _ (by decide),
    callbacks_fire_in_order.2 _ _ (by decide) (by decide) (by decide) (by decide) (by decide)⟩

/- Nothing is stranded: empty() tells whether a callback is pending, and no pending
callback has had its last byte popped. The end of a push of no bytes is the end of the
push before it. -/
structure NothingStranded (h : History) : Prop where
  empty_iff : h.queue.empty = true ↔ h.queue.callbacks = []
  none_due : ∀ e ∈ h.queue.callbacks, h.popped < h.endOf e.1

/- What a pop has to find: no completion of no bytes queued just where the popped bytes
end, and, if it takes all that is outstanding, buffers that hold no more than that. -/
structure PopSettles (h : History) (bytes : SizeT) : Prop where
  none_empty : ¬ ∃ before c after, h.queue.callbacks = before ++ (c, 0) :: after ∧
    total (amounts before) = bytes.toNat
  untrimmed : bytes.toNat = h.outstanding → h.held = h.outstanding

theorem amounts_split {κ : Type} (l : List (κ × SizeT)) (n : ℕ) :
    (∃ before c after, amounts l = before ++ (c, 0) :: after ∧ total before = n) ↔
      ∃ before c after, l = before ++ (c, 0) :: after ∧ total (amounts before) = n := by
  constructor
  · rintro ⟨before, c, after, eq, sum⟩
    obtain ⟨l₁, l₂, rfl, rfl, tail⟩ := List.map_eq_append_iff.mp eq
    obtain ⟨⟨c', s⟩, l₃, rfl, head, _⟩ := List.map_eq_cons_iff.mp tail
    have zero : s = 0 := UInt64.toNat_inj.mp (congrArg Prod.snd head)
    subst zero
    exact ⟨l₁, c', l₃, rfl, sum⟩
  · rintro ⟨before, c, after, rfl, sum⟩
    exact ⟨amounts before, c, amounts after, by simp, sum⟩

theorem QueueInv.none_due_iff {h : History} (inv : QueueInv h) :
    (∀ e ∈ h.queue.callbacks, h.popped < h.endOf e.1) ↔
      ¬ ∃ c rest, amounts h.queue.callbacks = (c, 0) :: rest := by
  rw [← inv.ledger.reached_iff inv.names]
  constructor
  · rintro none_due ⟨e, member, reached⟩
    obtain ⟨e', member', rfl⟩ := List.mem_map.mp member
    exact absurd reached (Nat.not_le_of_lt (none_due e' member'))
  · intro none_due e member
    by_contra reached
    exact none_due ⟨(e.1, e.2.toNat), List.mem_map_of_mem member, Nat.le_of_not_lt reached⟩

section after_pop

variable {h : History} {bytes : SizeT}

theorem QueueInv.emptied_iff (inv : QueueInv h) (within : bytes.toNat ≤ h.outstanding) :
    (h.step .release quiet (.pop bytes)).queue.empty = true ↔ h.held ≤ bytes.toNat := by
  rw [(inv.pop within).empty_iff, (inv.pop_effect within).1]
  exact survivors_eq_nil _ _ _

theorem QueueInv.stops_iff (inv : QueueInv h) (within : bytes.toNat ≤ h.outstanding) :
    (∃ c rest, amounts (h.step .release quiet (.pop bytes)).queue.callbacks = (c, 0) :: rest) ↔
      ∃ before c after, h.queue.callbacks = before ++ (c, 0) :: after ∧
        total (amounts before) = bytes.toNat := by
  rw [(inv.pop_effect within).2.1, spend_stops_empty, amounts_split]

/-- With an open entry in front, if any, the deque runs out when all that was outstanding
is popped. -/
theorem QueueInv.drained_iff (inv : QueueInv h) (within : bytes.toNat ≤ h.outstanding)
    (front : ¬ ∃ c rest,
      amounts (h.step .release quiet (.pop bytes)).queue.callbacks = (c, 0) :: rest) :
    (h.step .release quiet (.pop bytes)).queue.callbacks = [] ↔
      bytes.toNat = h.outstanding := by
  have same := inv.recorded_eq
  have reduced := total_left (inv.affordable within)
  rw [← (inv.pop_effect within).2.1] at reduced
  unfold History.recorded at same
  rw [← amounts_eq_nil]
  cases left : amounts (h.step .release quiet (.pop bytes)).queue.callbacks with
  | nil =>
    rw [left, total_nil] at reduced
    exact iff_of_true rfl (by omega)
  | cons e rest =>
    have open_ : e.2 ≠ 0 := fun zero => front ⟨e.1, rest, by rw [left, ← zero]⟩
    rw [left, total_cons] at reduced
    exact iff_of_false (List.cons_ne_nil _ _) (by omega)

theorem nothing_stranded_step (inv : QueueInv h) (within : bytes.toNat ≤ h.outstanding) :
    NothingStranded (h.step .release quiet (.pop bytes)) ↔ PopSettles h bytes := by
  have next := inv.pop within
  have emptied := inv.emptied_iff within
  have stops := inv.stops_iff within
  have same := inv.recorded_eq
  have covered := inv.covered
  constructor
  · rintro ⟨empty_iff, none_due⟩
    have front := next.none_due_iff.mp none_due
    refine ⟨fun stop => front (stops.mpr stop), fun all => ?_⟩
    have gone := emptied.mp (empty_iff.mpr ((inv.drained_iff within front).mpr all))
    omega
  · rintro ⟨none_empty, untrimmed⟩
    have front := fun stop => none_empty (stops.mp stop)
    refine ⟨?_, next.none_due_iff.mpr front⟩
    rw [emptied, inv.drained_iff within front]
    constructor
    · intro gone
      omega
    · intro all
      have level := untrimmed all
      omega

end after_pop

/-- Every pop of every run strands nothing exactly when it finds what PopSettles says. -/
theorem nothing_stranded_iff (ops : List QueueOp) (bytes : SizeT)
    (fits : ReleaseAdmitted (ops ++ [.pop bytes])) :
    NothingStranded (releaseRun (ops ++ [.pop bytes])) ↔ PopSettles (releaseRun ops) bytes := by
  obtain ⟨before, within⟩ := (Runs.each_snoc _ _ _ _ _).mp fits
  rw [releaseRun, Runs.run_snoc]
  exact nothing_stranded_step (QueueInv.run before) within

theorem nothing_stranded_on_boundaries :
    NothingStranded (releaseRun ([.push (.mk 64 4), .push (.mk 128 1), .pop 4] ++ [.pop 1])) := by
  refine (nothing_stranded_iff _ _ (by decide)).mpr ⟨?_, by decide⟩
  rintro ⟨before, c, after, eq, sum⟩
  have queue : (releaseRun [.push (.mk 64 4), .push (.mk 128 1), .pop 4]).queue.callbacks =
      [(1, 1)] := by decide
  rw [queue] at eq
  rcases before with _ | ⟨e, _ | ⟨e', before⟩⟩
  · exact absurd (congrArg (fun l => l.map Prod.snd) eq) (by simp)
  · simp at eq
  · simp at eq

theorem buffer_outlives_its_callback :
    ¬ ∀ ops bytes, ReleaseAdmitted (ops ++ [.pop bytes]) →
      NothingStranded (releaseRun (ops ++ [.pop bytes])) := by
  intro claim
  have settled := claim [.push (.mk 64 2), .pop 1] 1 (by decide)
  exact absurd settled.empty_iff (by decide)

end LibN3
