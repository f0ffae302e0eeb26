import LibN3.Epoll
import LibN3.Runs

/-! Runs of epoll_executor: descriptors are added and removed, and events are delivered
about registered ones. The kernel gives back with an event the data it was given when the
descriptor was added. Which errno a failing call sets is arbitrary. -/
namespace LibN3

/-- What epoll_wait does: it fails, or it stores a batch of events, each the descriptor
that it is about and its mask. An empty batch is a timeout. -/
inductive Delivery
  | failed (errno : Int32)
  | ready (batch : List (Handle × UInt32))
deriving DecidableEq

inductive EpollOp
  | add (fd : Handle) (answer : Option Int32)
  | remove (fd : Handle) (answer : Option Int32)
  | runOnce (delivery : Delivery)
deriving DecidableEq

/-- The executor and the interest set, and beside them a clock that counts operations,
when each descriptor was last added, and where the flags under each key come from: the
descriptor that the event was about, and when it was delivered. -/
structure EpollWorld where
  executor : EpollExecutor
  interest : Interest
  clock : ℕ
  addedAt : Handle → ℕ
  writer : Handle → Option (Handle × ℕ)

namespace EpollWorld

def new (this : UInt64) : EpollWorld :=
  ⟨.new this, fun _ => none, 0, fun _ => 0, fun _ => none⟩

def dataOf (w : EpollWorld) (fd : Handle) : UInt64 := ((w.interest fd).map EpollEvent.data).getD 0

def stored (w : EpollWorld) (batch : List (Handle × UInt32)) : List EpollEvent :=
  batch.map fun e => ⟨e.2, w.dataOf e.1⟩

def step (w : EpollWorld) : EpollOp → EpollWorld
  | .add fd answer =>
    { w with interest := (w.executor.add fd answer w.interest).2
             clock := w.clock + 1
             addedAt := if answer.isNone then Function.update w.addedAt fd w.clock else w.addedAt }
  | .remove fd answer =>
    { w with interest := (w.executor.remove fd answer w.interest).2, clock := w.clock + 1 }
  | .runOnce (.failed errno) =>
    { w with executor := w.executor.runOnce (.error errno), clock := w.clock + 1 }
  | .runOnce (.ready batch) =>
    { w with executor := w.executor.runOnce (.ok (w.stored batch))
             clock := w.clock + 1
             writer := Table.putAll (fun e => dataFd (w.dataOf e.1))
               (fun e _ => some (e.1, w.clock)) w.writer batch }

/-- The kernel's side: a descriptor is added when it is not registered and removed when
it is, and a batch has at most one event about a descriptor, which is registered. -/
def Admits (w : EpollWorld) : EpollOp → Prop
  | .add fd none => (w.interest fd).isNone
  | .remove fd none => (w.interest fd).isSome
  | .runOnce (.ready batch) =>
    batch.length ≤ EpollCtx.eventBufferSize ∧ (batch.map Prod.fst).Nodup ∧
      ∀ e ∈ batch, (w.interest e.1).isSome
  | _ => True

instance decidableAdmits (w : EpollWorld) (op : EpollOp) : Decidable (w.Admits op) :=
  match op with
  | .add _ none => inferInstanceAs (Decidable (_ = true))
  | .add _ (some _) => .isTrue trivial
  | .remove _ none => inferInstanceAs (Decidable (_ = true))
  | .remove _ (some _) => .isTrue trivial
  | .runOnce (.failed _) => .isTrue trivial
  | .runOnce (.ready batch) => @instDecidableAnd _ _ (Nat.decLe _ _)
      (@instDecidableAnd _ _ (List.nodupDecidable _) (List.decidableBAll _ batch))

end EpollWorld

theorem interest_add (w : EpollWorld) (fd : Handle) :
    (w.step (.add fd none)).interest =
      Function.update w.interest fd (some ⟨EpollCtx.eventMask, w.executor.epoll.this⟩) := rfl

theorem interest_remove (w : EpollWorld) (fd : Handle) :
    (w.step (.remove fd none)).interest = Function.update w.interest fd none := rfl

theorem addedAt_add (w : EpollWorld) (fd : Handle) :
    (w.step (.add fd none)).addedAt = Function.update w.addedAt fd w.clock := rfl

/- Runs of an executor whose epoll_ctx is at this address. -/
abbrev epollRun (this : UInt64) (ops : List EpollOp) : EpollWorld :=
  Runs.run EpollWorld.step (.new this) ops

abbrev EpollAdmitted (this : UInt64) (ops : List EpollOp) : Prop :=
  Runs.Each EpollWorld.step EpollWorld.Admits (.new this) ops

/-- What every run keeps: all descriptors carry the one address that add gives to each of
them, so the map has at most one key, which no step ever names. -/
structure SharedKey (this : UInt64) (w : EpollWorld) : Prop where
  address : w.executor.epoll.this = this
  data : ∀ fd event, w.interest fd = some event → event.data = this
  only_key : ∀ key state, w.executor.handleMap key = some state →
    key = dataFd this ∧ state.fd = 0
  past : ∀ fd, w.addedAt fd ≤ w.clock

namespace SharedKey

variable {this : UInt64} {w : EpollWorld}

theorem start : SharedKey this (.new this) where
  address := rfl
  data := by rintro fd event ⟨⟩
  only_key := by rintro key state ⟨⟩
  past := fun _ => Nat.le_refl 0

theorem dataOf_eq (inv : SharedKey this w) {fd : Handle} (registered : (w.interest fd).isSome) :
    w.dataOf fd = this := by
  obtain ⟨event, found⟩ := Option.isSome_iff_exists.mp registered
  rw [EpollWorld.dataOf, found, Option.map_some, Option.getD_some]
  exact inv.data fd event found

theorem batch_elsewhere (inv : SharedKey this w) {batch : List (Handle × UInt32)}
    (registered : ∀ e ∈ batch, (w.interest e.1).isSome) {key : Handle} (other : key ≠ dataFd this) :
    (w.step (.runOnce (.ready batch))).executor.handleMap key = w.executor.handleMap key := by
  rw [EpollWorld.step, runOnce_putAll]
  apply Table.putAll_untouched
  intro event member
  obtain ⟨e, present, rfl⟩ := List.mem_map.mp member
  dsimp only
  rw [inv.dataOf_eq (registered e present)]
  exact other.symm

theorem batch_at_key (inv : SharedKey this w) {batch : List (Handle × UInt32)}
    (registered : ∀ e ∈ batch, (w.interest e.1).isSome) {e : Handle × UInt32}
    (last : batch.getLast? = some e) :
    (w.step (.runOnce (.ready batch))).executor.handleMap (dataFd this) =
        EpollExecutor.setEventCache (w.executor.handleMap (dataFd this)) (.ofMask e.2) ∧
      (w.step (.runOnce (.ready batch))).writer (dataFd this) = some (e.1, w.clock) := by
  have same (e : Handle × UInt32) (present : e ∈ batch) : dataFd (w.dataOf e.1) = dataFd this := by
    rw [inv.dataOf_eq (registered e present)]
  constructor
  · have stored_last : (w.stored batch).getLast? = some ⟨e.2, w.dataOf e.1⟩ := by
      simp [EpollWorld.stored, last]
    have all_same : ∀ event ∈ w.stored batch, dataFd event.data = dataFd this := by
      intro event member
      obtain ⟨e', present, rfl⟩ := List.mem_map.mp member
      exact same e' present
    rw [EpollWorld.step, runOnce_putAll]
    exact Table.putAll_last (by intro _ _ _; rfl) all_same stored_last
  · exact Table.putAll_last (by intro _ _ _; rfl) same last

theorem batch (inv : SharedKey this w) {batch : List (Handle × UInt32)}
    (registered : ∀ e ∈ batch, (w.interest e.1).isSome) :
    SharedKey this (w.step (.runOnce (.ready batch))) := by
  have later (fd : Handle) : w.addedAt fd ≤ w.clock + 1 := Nat.le_succ_of_le (inv.past fd)
  have address : (w.step (.runOnce (.ready batch))).executor.epoll = w.executor.epoll := by
    cases batch <;> rfl
  refine ⟨by rw [address, inv.address], inv.data, ?_, later⟩
  intro key state found
  by_cases here : key = dataFd this
  · subst here
    refine ⟨rfl, ?_⟩
    cases last : batch.getLast? with
    | none =>
      rw [List.getLast?_eq_none_iff.mp last] at found
      exact (inv.only_key _ state found).2
    | some e =>
      rw [(inv.batch_at_key registered last).1] at found
      rw [← Option.some.inj found]
      cases old : w.executor.handleMap (dataFd this) with
      | none => rfl
      | some state' => exact (inv.only_key _ state' old).2
  · rw [inv.batch_elsewhere registered here] at found
    exact inv.only_key key state found

theorem step (w : EpollWorld) (op : EpollOp) (inv : SharedKey this w) (admits : w.Admits op) :
    SharedKey this (w.step op) := by
  have later (fd : Handle) : w.addedAt fd ≤ w.clock + 1 := Nat.le_succ_of_le (inv.past fd)
  rcases op with ⟨fd, _ | errno⟩ | ⟨fd, _ | errno⟩ | errno | batch
  · refine ⟨inv.address, ?_, inv.only_key, ?_⟩
    · intro fd' event found
      rw [interest_add, Function.update_apply] at found
      split at found
      · rw [← Option.some.inj found]
        exact inv.address
      · exact inv.data fd' event found
    · intro fd'
      rw [addedAt_add, Function.update_apply]
      split
      · exact Nat.le_succ w.clock
      · exact later fd'
  · exact ⟨inv.address, inv.data, inv.only_key, later⟩
  · refine ⟨inv.address, ?_, inv.only_key, later⟩
    intro fd' event found
    rw [interest_remove, Function.update_apply] at found
    split at found
    · cases found
    · exact inv.data fd' event found
  · exact ⟨inv.address, inv.data, inv.only_key, later⟩
  · simp only [EpollWorld.step, runOnce_error]
    exact ⟨inv.address, inv.data, inv.only_key, later⟩
  · exact inv.batch admits.2.2

end SharedKey

/- What a batch delivered in this state should do: the flags of the descriptors that its
events are about are overwritten, and no other entry changes. -/
structure DispatchLaw (w : EpollWorld) (batch : List (Handle × UInt32)) : Prop where
  overwritten : ∀ e ∈ batch, (w.step (.runOnce (.ready batch))).executor.handleMap e.1 =
    EpollExecutor.setEventCache (w.executor.handleMap e.1) (.ofMask e.2)
  unchanged : ∀ fd, (∀ e ∈ batch, e.1 ≠ fd) →
    (w.step (.runOnce (.ready batch))).executor.handleMap fd = w.executor.handleMap fd

theorem only_event {batch : List (Handle × UInt32)} {e : Handle × UInt32}
    (distinct : ((e :: batch).map Prod.fst).Nodup) {key : Handle}
    (about_key : ∀ e' ∈ e :: batch, e'.1 = key) : batch = [] := by
  rw [List.eq_nil_iff_forall_not_mem]
  intro e' present
  have same : e'.1 = e.1 := by
    rw [about_key e' (List.mem_cons_of_mem e present), about_key e List.mem_cons_self]
  exact (List.nodup_cons.mp distinct).1 (same ▸ List.mem_map_of_mem present)

/-- add files every descriptor under the address of the epoll_ctx. So from any state of
any run, a batch reaches its handles exactly when all of it is about the descriptor that
the low half of that address happens to spell. -/
theorem dispatch_reaches_iff_address (this : UInt64) (ops : List EpollOp)
    (admitted : EpollAdmitted this ops) (batch : List (Handle × UInt32))
    (delivered : (epollRun this ops).Admits (.runOnce (.ready batch))) :
    DispatchLaw (epollRun this ops) batch ↔ ∀ e ∈ batch, e.1 = dataFd this := by
  have inv := Runs.invariant SharedKey.step .start admitted
  change SharedKey this (epollRun this ops) at inv
  generalize epollRun this ops = w at delivered inv ⊢
  obtain ⟨_, distinct, registered⟩ := delivered
  constructor
  · intro law e present
    by_contra other
    have written := law.overwritten e present
    rw [inv.batch_elsewhere registered other] at written
    -- An entry under another key than the shared one was never made.
    exact other (inv.only_key e.1 _ written).1
  · intro about_key
    cases batch with
    | nil => exact ⟨by simp, fun _ _ => rfl⟩
    | cons e rest =>
      have alone := only_event distinct about_key
      subst alone
      have key := about_key e List.mem_cons_self
      constructor
      · intro e' present
        rw [List.mem_singleton.mp present, key]
        exact (inv.batch_at_key registered rfl).1
      · intro fd none_about
        have other : fd ≠ dataFd this := by
          rw [← key]
          exact (none_about e List.mem_cons_self).symm
        exact inv.batch_elsewhere registered other

theorem dispatch_reaches_eight :
    DispatchLaw (epollRun 0x7FFD00000008 [.add 8 none, .add 6 none]) [(8, EPOLLIN)] :=
  (dispatch_reaches_iff_address 0x7FFD00000008 _ (by decide) _ (by decide)).mpr
    (List.forall_mem_singleton.mpr rfl)

theorem dispatch_misses_five :
    ¬ ∀ this ops, EpollAdmitted this ops →
      ∀ batch, (epollRun this ops).Admits (.runOnce (.ready batch)) →
        DispatchLaw (epollRun this ops) batch := by
  intro claim
  have law := claim 0x7FFD00001000 [.add 5 none] (by decide) [(5, EPOLLIN)] (by decide)
  exact absurd (law.overwritten (5, EPOLLIN) List.mem_cons_self) (by decide)

/- Every key of the map is a registered descriptor, its state is that descriptor's, and
its flags come from an event about it since it was last added. -/
def Tracked (w : EpollWorld) : Prop :=
  ∀ key state, w.executor.handleMap key = some state →
    (w.interest key).isSome ∧ state.fd = key ∧
      ∃ time, w.writer key = some (key, time) ∧ w.addedAt key ≤ time

/- The steps that keep track: a batch whose last event is about descriptor 0, under an
address that spells 0, and the removal of a descriptor the map has no entry for. -/
def KeepsTrack (w : EpollWorld) : EpollOp → Prop
  | .runOnce (.ready batch) =>
    ∀ e ∈ batch.getLast?, dataFd w.executor.epoll.this = 0 ∧ e.1 = 0
  | .remove fd none => (w.executor.handleMap fd).isNone
  | _ => True

instance decidableKeepsTrack (w : EpollWorld) (op : EpollOp) : Decidable (KeepsTrack w op) :=
  match op with
  | .add _ _ => .isTrue trivial
  | .remove _ none => inferInstanceAs (Decidable (_ = true))
  | .remove _ (some _) => .isTrue trivial
  | .runOnce (.failed _) => .isTrue trivial
  | .runOnce (.ready batch) => Option.decidableForallMem batch.getLast?

section tracking

variable {this : UInt64} {w : EpollWorld}

theorem tracked_add (tracked : Tracked w) {fd : Handle} {answer : Option Int32}
    (admits : w.Admits (.add fd answer)) : Tracked (w.step (.add fd answer)) := by
  cases answer with
  | some errno => exact tracked
  | none =>
    intro key state found
    obtain ⟨registered, same, time, written, since⟩ := tracked key state found
    -- The kernel refuses to add a descriptor that is registered.
    have other : key ≠ fd := by
      rintro rfl
      rw [Option.isNone_iff_eq_none.mp admits] at registered
      cases registered
    refine ⟨?_, same, time, written, ?_⟩
    · rw [interest_add, Function.update_of_ne other]
      exact registered
    · rw [addedAt_add, Function.update_of_ne other]
      exact since

theorem tracked_remove_iff (tracked : Tracked w) (fd : Handle) :
    Tracked (w.step (.remove fd none)) ↔ (w.executor.handleMap fd).isNone := by
  constructor
  · intro after
    by_contra entry
    obtain ⟨state, found⟩ := Option.ne_none_iff_exists'.mp (by simpa using entry)
    have registered := (after fd state found).1
    rw [interest_remove, Function.update_self] at registered
    cases registered
  · intro none_here key state found
    obtain ⟨registered, rest⟩ := tracked key state found
    have other : key ≠ fd := by
      rintro rfl
      have entry : w.executor.handleMap key = some state := found
      rw [entry] at none_here
      cases none_here
    refine ⟨?_, rest⟩
    rw [interest_remove, Function.update_of_ne other]
    exact registered

theorem tracked_batch_iff (inv : SharedKey this w) {batch : List (Handle × UInt32)}
    {e : Handle × UInt32} (last : batch.getLast? = some e)
    (registered : ∀ e ∈ batch, (w.interest e.1).isSome) :
    Tracked (w.step (.runOnce (.ready batch))) ↔ dataFd this = 0 ∧ e.1 = 0 := by
  obtain ⟨entry, written⟩ := inv.batch_at_key registered last
  have next := inv.batch registered
  constructor
  · intro after
    obtain ⟨_, same, time, about, _⟩ := after _ _ entry
    have zero : dataFd this = 0 := by
      rw [← same]
      exact (next.only_key _ _ entry).2
    rw [written, zero] at about
    exact ⟨zero, congrArg Prod.fst (Option.some.inj about)⟩
  · rintro ⟨zero, about_zero⟩ key state found
    obtain ⟨rfl, fd_zero⟩ := next.only_key key state found
    have present : e ∈ batch := List.mem_of_getLast? last
    refine ⟨?_, fd_zero.trans zero.symm, w.clock, ?_, inv.past _⟩
    · rw [zero, ← about_zero]
      exact registered e present
    · rw [written, zero, about_zero]

theorem tracked_step (w : EpollWorld) (op : EpollOp) (inv : SharedKey this w)
    (tracked : Tracked w) (admits : w.Admits op) : Tracked (w.step op) ↔ KeepsTrack w op := by
  rcases op with ⟨fd, answer⟩ | ⟨fd, _ | errno⟩ | errno | batch
  · exact iff_of_true (tracked_add tracked admits) trivial
  · exact tracked_remove_iff tracked fd
  · exact iff_of_true tracked trivial
  · have same : Tracked (w.step (.runOnce (.failed errno))) := by
      simp only [EpollWorld.step, runOnce_error]
      exact tracked
    exact iff_of_true same trivial
  · cases last : batch.getLast? with
    | none =>
      rw [List.getLast?_eq_none_iff.mp last]
      exact iff_of_true tracked (by rintro e ⟨⟩)
    | some e =>
      rw [tracked_batch_iff inv last admits.2.2, KeepsTrack, last, inv.address]
      simp

end tracking

/-- The map tracks registration throughout a run exactly when each step of it keeps
track: remove does not touch the map, and no state in it is given a descriptor. -/
theorem map_tracks_iff_steps_keep (this : UInt64) (ops : List EpollOp)
    (admitted : EpollAdmitted this ops) :
    Runs.Always EpollWorld.step Tracked (.new this) ops ↔
      Runs.Each EpollWorld.step KeepsTrack (.new this) ops := by
  have preserves := fun w op inv admits (_ : KeepsTrack w op) =>
    @SharedKey.step this w op inv admits
  have empty : Tracked (.new this) := by rintro key state ⟨⟩
  exact Runs.always_iff_each preserves tracked_step .start empty admitted

theorem map_tracks_zero :
    Runs.Always EpollWorld.step Tracked (.new 0x7FFD00000000)
      [.add 0 none, .add 5 none, .runOnce (.ready [(0, EPOLLIN)]), .remove 5 none] :=
  (map_tracks_iff_steps_keep _ _ (by decide)).mpr (by decide)

/-- Descriptor 0 is removed and added again, under an address that spells it, and the
flags of an event from before are still cached. -/
theorem readded_descriptor_has_old_flags :
    ¬ ∀ this ops, EpollAdmitted this ops →
      Runs.Always EpollWorld.step Tracked (.new this) ops := by
  intro claim
  have always := claim 0x7FFD00000000
    [.add 0 none, .runOnce (.ready [(0, EPOLLIN)]), .remove 0 none, .add 0 none] (by decide)
  obtain ⟨_, _, _, _, readded⟩ := always
  obtain ⟨_, _, time, about, since⟩ := readded 0 _ rfl
  have before : some ((0 : Handle), 1) = some (0, time) := about
  have early : time = 1 := (congrArg Prod.snd (Option.some.inj before)).symm
  rw [early] at since
  exact absurd since (by decide)

end LibN3
