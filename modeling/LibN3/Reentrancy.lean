import LibN3.QueueRuns

/-! Callbacks that use the queue they are run from, in the Release build. The loop in
pop is cut where it leaves the class: a machine step is a call on the queue, made at
the top level or by the callback that is running, or that callback's return. What one
callback does is the stretch of steps between its invocation and its return. -/
namespace LibN3
open Credit

inductive Turn (κ : Type)
  | finished (callbacks : List (κ × SizeT))
  | invoke (cb : κ) (remaining : SizeT)
deriving DecidableEq

/- One turn of the loop, as far as std::invoke. The front stays in the deque. -/
def turn {κ : Type} (callbacks : List (κ × SizeT)) (remaining : SizeT) :
    Except Fault (Turn κ) :=
  if remaining > 0 then
    match callbacks with
    | [] => .error .frontOfEmpty
    | (cb, cbSize) :: rest =>
      if cbSize ≤ remaining then .ok (.invoke cb (remaining - cbSize))
      else .ok (.finished ((cb, cbSize - remaining) :: rest))
  else .ok (.finished callbacks)

/-- The queue with the calls of pop that are under way: each has a callback running and
a local count of bytes that remain, and the innermost comes first. Callbacks are named
by the number of their push; invoked and removed list them as it happens. -/
structure Machine where
  queue : BufferQueue ℕ
  frames : List (ℕ × SizeT)
  pushes : ℕ
  pushed : ℕ
  popped : ℕ
  invoked : List ℕ
  removed : List ℕ
  fault : Option Fault
deriving DecidableEq

inductive Act
  | call (op : QueueOp)
  | ret
deriving DecidableEq

namespace Machine

def new : Machine := ⟨.new, [], 0, 0, 0, [], [], none⟩

def outstanding (m : Machine) : ℕ := m.pushed - m.popped

def enter (m : Machine) (queue : BufferQueue ℕ) (bytes : SizeT) : Machine :=
  { m with queue := queue, pushes := m.pushes + 1, pushed := m.pushed + bytes.toNat }

def setCallbacks (m : Machine) (callbacks : List (ℕ × SizeT)) : Machine :=
  { m with queue := { m.queue with callbacks := callbacks } }

def resume (m : Machine) (remaining : SizeT) : Machine :=
  match turn m.queue.callbacks remaining with
  | .error fault => { m with fault := some fault }
  | .ok (.finished callbacks) => m.setCallbacks callbacks
  | .ok (.invoke cb remaining) =>
    { m with frames := (cb, remaining) :: m.frames, invoked := m.invoked ++ [cb] }

def pop (m : Machine) (bytes : SizeT) : Machine :=
  let m := { m with popped := m.popped + bytes.toNat }
  if m.queue.empty then m
  else
    match m.queue.buffers.consume .release bytes with
    | .error fault => { m with fault := some fault }
    | .ok buffers =>
      resume { m with queue := { m.queue with buffers := buffers, bufferSize := buffers.size } }
        bytes

/-- The running callback returns into its loop: pop_front, and the next turn. -/
def ret (m : Machine) : Machine :=
  match m.frames, m.queue.callbacks with
  | [], _ => m
  | _, [] => { m with fault := some .frontOfEmpty }
  | (_, remaining) :: frames, (cb, _) :: rest =>
    resume { m.setCallbacks rest with frames := frames, removed := m.removed ++ [cb] } remaining

def step (m : Machine) (act : Act) : Machine :=
  match m.fault, act with
  | some _, _ => m
  | none, .call (.push buf) => m.enter (m.queue.push buf m.pushes) buf.size
  | none, .call (.pushMulti multi) => m.enter (m.queue.pushMulti multi m.pushes) multi.sizeBytes
  | none, .call (.pop bytes) => m.pop bytes
  | none, .ret => m.ret

def Admits (m : Machine) : Act → Prop
  | .call (.pop bytes) => bytes.toNat ≤ m.outstanding
  | .call _ => True
  | .ret => m.frames ≠ []

/-- A family of callbacks says what each calls next, knowing all that has happened, or
that it returns. -/
def Obeys (family : ℕ → Machine → Option QueueOp) (m : Machine) (act : Act) : Prop :=
  ∀ frame ∈ m.frames.head?, act = (family frame.1 m).elim .ret .call

instance decidableAdmits (m : Machine) (act : Act) : Decidable (m.Admits act) :=
  match act with
  | .call (.push _) => .isTrue trivial
  | .call (.pushMulti _) => .isTrue trivial
  | .call (.pop bytes) => inferInstanceAs (Decidable (bytes.toNat ≤ m.outstanding))
  | .ret => inferInstanceAs (Decidable (m.frames ≠ []))

instance decidableObeys (family : ℕ → Machine → Option QueueOp) (m : Machine) (act : Act) :
    Decidable (m.Obeys family act) :=
  inferInstanceAs (Decidable (∀ frame ∈ m.frames.head?, _))

end Machine

/- Each callback is invoked at most once, first in push order, and before it is removed. -/
structure OnceInOrder (m : Machine) : Prop where
  at_most_once : m.invoked.Nodup
  in_order : ∀ a ∈ m.invoked, ∀ b ∈ m.invoked, a < b → m.invoked.idxOf a < m.invoked.idxOf b
  none_lost : ∀ c ∈ m.removed, c ∈ m.invoked

/- A call of pop made by a callback does not reach the end of the front entry, which is
still the one of the callback that makes it. -/
def Machine.Harmless (m : Machine) : Act → Prop
  | .call (.pop bytes) => m.frames ≠ [] → m.queue.empty = true ∨ bytes = 0 ∨
      ∀ front ∈ m.queue.callbacks.head?, bytes < front.2
  | _ => True

instance Machine.decidableHarmless (m : Machine) (act : Act) : Decidable (m.Harmless act) :=
  match act with
  | .call (.push _) => .isTrue trivial
  | .call (.pushMulti _) => .isTrue trivial
  | .call (.pop bytes) => inferInstanceAs (Decidable (m.frames ≠ [] → m.queue.empty = true ∨
      bytes = 0 ∨ ∀ front ∈ m.queue.callbacks.head?, bytes < front.2))
  | .ret => .isTrue trivial

section turns

variable {κ : Type} {cb : κ} {cbSize n : SizeT}

theorem turn_stop (l : List (κ × SizeT)) (none_left : n.toNat = 0) :
    turn l n = .ok (.finished l) := by
  have stop := not_gt_zero none_left
  simp only [turn, if_neg stop]

theorem turn_invoke (rest : List (κ × SizeT)) (fits : cbSize.toNat ≤ n.toNat)
    (some_left : 0 < n.toNat) : turn ((cb, cbSize) :: rest) n = .ok (.invoke cb (n - cbSize)) := by
  have go := gt_zero some_left
  simp only [turn, if_pos go, if_pos (UInt64.le_iff_toNat_le.mpr fits)]

theorem turn_short (rest : List (κ × SizeT)) (short : n.toNat < cbSize.toNat)
    (some_left : 0 < n.toNat) :
    turn ((cb, cbSize) :: rest) n = .ok (.finished ((cb, cbSize - n) :: rest)) := by
  have go := gt_zero some_left
  have exceeds := not_le_of_toNat short
  simp only [turn, if_pos go, if_neg exceeds]

end turns

namespace Machine

variable {m : Machine}

theorem pop_go {bytes : SizeT} (go : m.queue.empty = false) :
    m.pop bytes = resume { m with popped := m.popped + bytes.toNat
                                  queue := m.queue.afterPop bytes m.queue.callbacks } bytes := by
  simp only [pop, go, Bool.false_eq_true, if_false, consume_release]
  rfl

theorem pop_stop {bytes : SizeT} (stop : m.queue.empty = true) :
    m.pop bytes = { m with popped := m.popped + bytes.toNat } := by
  simp only [pop, stop, if_true]

theorem ret_running {cb front : ℕ} {remaining cbSize : SizeT} {frames : List (ℕ × SizeT)}
    {rest : List (ℕ × SizeT)} (running : m.frames = (cb, remaining) :: frames)
    (deque : m.queue.callbacks = (front, cbSize) :: rest) :
    m.ret = resume { m.setCallbacks rest with
      frames := frames, removed := m.removed ++ [front] } remaining := by
  simp only [ret, running, deque]

theorem step_pop (fine : m.fault = none) (bytes : SizeT) :
    m.step (.call (.pop bytes)) = m.pop bytes := by
  simp only [step, fine]

theorem step_ret (fine : m.fault = none) : m.step .ret = m.ret := by
  simp only [step, fine]

theorem resume_quiet_stop {m : Machine} {remaining : SizeT} {exit : LoopExit ℕ}
    (zero : remaining.toNat = 0)
    (loop : popLoop .release quiet m.queue.callbacks remaining = .ok exit) :
    Runs.run step (m.resume remaining) (List.replicate exit.invoked.length .ret) =
      { m.setCallbacks exit.callbacks with
        invoked := m.invoked ++ exit.invoked, removed := m.removed ++ exit.invoked } := by
  rw [popLoop_stop .release quiet _ zero] at loop
  cases loop
  simp only [resume, turn_stop _ zero, List.append_nil]
  rfl

theorem resume_quiet {m : Machine} {remaining : SizeT} {exit : LoopExit ℕ} (fine : m.fault = none)
    (idle : m.frames = [])
    (loop : popLoop .release quiet m.queue.callbacks remaining = .ok exit) :
    Runs.run step (m.resume remaining) (List.replicate exit.invoked.length .ret) =
      { m.setCallbacks exit.callbacks with
        invoked := m.invoked ++ exit.invoked, removed := m.removed ++ exit.invoked } := by
  generalize deque : m.queue.callbacks = l at loop
  induction l generalizing m remaining exit with
  | nil =>
    rcases Nat.eq_zero_or_pos remaining.toNat with zero | some_left
    · rw [← deque] at loop
      exact resume_quiet_stop zero loop
    · have go := gt_zero some_left
      simp [popLoop, go] at loop
  | cons front rest ih =>
    obtain ⟨cb, cbSize⟩ := front
    rcases Nat.eq_zero_or_pos remaining.toNat with zero | some_left
    · rw [← deque] at loop
      exact resume_quiet_stop zero loop
    · rcases Nat.lt_or_ge remaining.toNat cbSize.toNat with short | fits
      · rw [popLoop_short .release quiet rest short some_left] at loop
        cases loop
        simp only [resume, deque, turn_short rest short some_left, List.append_nil]
        rfl
      · rw [popLoop_fire .release quiet rest fits some_left rfl] at loop
        cases tail : popLoop .release quiet rest (remaining - cbSize) with
        | error fault =>
          rw [tail] at loop
          cases loop
        | ok exit' =>
          rw [tail] at loop
          cases loop
          let running := { m with
            frames := [(cb, remaining - cbSize)], invoked := m.invoked ++ [cb] }
          have invokes : m.resume remaining = running := by
            simp only [resume, deque, turn_invoke rest fits some_left, idle, running]
          let popped := { running.setCallbacks rest with
            frames := [], removed := m.removed ++ [cb] }
          have returns : running.step .ret = popped.resume (remaining - cbSize) :=
            (step_ret (m := running) fine).trans (ret_running (m := running) rfl deque)
          have later := ih (m := popped) fine rfl rfl tail
          rw [invokes, List.length_cons, List.replicate_succ, Runs.run, returns, later]
          simp [popped, running, setCallbacks, idle]

/-- So the machine is a refinement of the queue's pop: the same queue, and every callback
that pop runs invoked and then removed. -/
theorem pop_quiet {m : Machine} {bytes : SizeT} {exit : PopExit ℕ} (fine : m.fault = none)
    (idle : m.frames = []) (returns : m.queue.pop .release quiet bytes = .ok exit) :
    Runs.run step m (.call (.pop bytes) :: List.replicate exit.invoked.length .ret) =
      { m with queue := exit.queue
               popped := m.popped + bytes.toNat
               invoked := m.invoked ++ exit.invoked
               removed := m.removed ++ exit.invoked } := by
  rw [Runs.run, step_pop fine]
  cases stop : m.queue.empty with
  | true =>
    rw [LibN3.pop_stop .release quiet bytes stop] at returns
    cases returns
    simp [pop_stop stop, Runs.run]
  | false =>
    cases loop : popLoop .release quiet m.queue.callbacks bytes with
    | error fault =>
      simp [BufferQueue.pop, stop, consume_release, loop] at returns
    | ok turns =>
      rw [LibN3.pop_go stop loop] at returns
      cases returns
      rw [pop_go stop]
      exact resume_quiet fine idle loop

/-- No callback runs, and the loop still has this many bytes to go through: the deque
has the sizes for them and for all that is outstanding. -/
structure Owes (m : Machine) (remaining : SizeT) : Prop where
  fine : m.fault = none
  idle : m.frames = []
  names : m.removed ++ m.queue.callbacks.map Prod.fst = List.range m.pushes
  invoked : m.invoked = m.removed
  popped_le : m.popped ≤ m.pushed
  covered : m.outstanding + remaining.toNat ≤ total (amounts m.queue.callbacks)

/-- One callback runs, that of the front entry, and the rest of the deque has the sizes
for what its loop has left and for all that is outstanding. -/
structure Suspended (m : Machine) (cb : ℕ) (cbSize remaining : SizeT)
    (rest : List (ℕ × SizeT)) : Prop where
  fine : m.fault = none
  frames : m.frames = [(cb, remaining)]
  deque : m.queue.callbacks = (cb, cbSize) :: rest
  names : m.removed ++ cb :: rest.map Prod.fst = List.range m.pushes
  invoked : m.invoked = m.removed ++ [cb]
  popped_le : m.popped ≤ m.pushed
  covered : m.outstanding + remaining.toNat ≤ total (amounts rest)

inductive Sound (m : Machine) : Prop
  | idle (owes : Owes m 0)
  | suspended (cb : ℕ) (cbSize remaining : SizeT) (rest : List (ℕ × SizeT))
      (suspended : Suspended m cb cbSize remaining rest)

theorem new_sound : Sound new :=
  .idle ⟨rfl, rfl, rfl, rfl, Nat.le_refl 0, Nat.le_refl 0⟩

theorem Sound.invoked_prefix (sound : Sound m) :
    m.invoked <+: List.range m.pushes ∧ m.removed <+: m.invoked := by
  cases sound with
  | idle owes =>
    rw [owes.invoked]
    exact ⟨⟨_, owes.names⟩, List.prefix_refl _⟩
  | suspended cb cbSize remaining rest suspended =>
    rw [suspended.invoked]
    exact ⟨⟨rest.map Prod.fst, by rw [← suspended.names]; simp⟩, List.prefix_append _ _⟩

theorem Sound.onceInOrder (sound : Sound m) : OnceInOrder m := by
  obtain ⟨first, removed⟩ := sound.invoked_prefix
  have initial : m.invoked = List.range m.invoked.length := by
    have shorter := first.length_le
    rw [List.length_range] at shorter
    have taken := List.prefix_iff_eq_take.mp first
    rw [List.take_range, Nat.min_eq_left shorter] at taken
    exact taken
  have place (c : ℕ) (member : c ∈ m.invoked) : m.invoked.idxOf c = c := by
    rw [initial] at member ⊢
    obtain ⟨i, inside, rfl⟩ := List.mem_iff_getElem.mp member
    rw [List.nodup_range.idxOf_getElem i inside, List.getElem_range]
  refine ⟨first.sublist.nodup List.nodup_range, ?_, fun c member => removed.subset member⟩
  intro a ha b hb less
  rw [place a ha, place b hb]
  exact less

theorem resume_sound {remaining : SizeT} (owes : Owes m remaining) :
    Sound (m.resume remaining) := by
  have covered := owes.covered
  rcases Nat.eq_zero_or_pos remaining.toNat with zero | some_left
  · simp only [resume, turn_stop m.queue.callbacks zero]
    have none_left : remaining = 0 := UInt64.toNat_inj.mp zero
    subst none_left
    exact .idle owes
  · cases deque : m.queue.callbacks with
    | nil =>
      rw [deque, amounts_nil, total_nil] at covered
      omega
    | cons front rest =>
      obtain ⟨cb, cbSize⟩ := front
      have names := owes.names
      rw [deque, amounts_cons, total_cons] at covered
      rw [deque, List.map_cons] at names
      rcases Nat.lt_or_ge remaining.toNat cbSize.toNat with short | fits
      · have gap := sub_toNat (Nat.le_of_lt short)
        simp only [resume, deque, turn_short rest short some_left]
        refine .idle ⟨owes.fine, owes.idle, names, owes.invoked, owes.popped_le, ?_⟩
        simp only [setCallbacks, outstanding, amounts_cons, total_cons, gap] at covered ⊢
        change _ + 0 ≤ _
        omega
      · have gap := sub_toNat fits
        simp only [resume, deque, turn_invoke rest fits some_left]
        refine .suspended cb cbSize (remaining - cbSize) rest
          ⟨owes.fine, ?_, deque, names, ?_, owes.popped_le, ?_⟩
        · simp only [owes.idle]
        · simp only [owes.invoked]
        · rw [gap]
          simp only [outstanding] at covered ⊢
          omega

theorem pushMulti_sound (sound : Sound m) (multi : RefMultiBuffer) :
    Sound (m.enter (m.queue.pushMulti multi m.pushes) multi.sizeBytes) := by
  have last (l : List (ℕ × SizeT)) : total (amounts (l ++ [(m.pushes, multi.sizeBytes)])) =
      total (amounts l) + multi.sizeBytes.toNat := by simp
  cases sound with
  | idle owes =>
    have popped_le := owes.popped_le
    have covered := owes.covered
    refine .idle ⟨owes.fine, owes.idle, ?_, owes.invoked, ?_, ?_⟩
    · simp only [enter, BufferQueue.pushMulti, List.map_append, ← List.append_assoc, owes.names,
        List.range_succ, List.map_cons, List.map_nil]
    · exact Nat.le_add_right_of_le popped_le
    · simp only [outstanding, enter, BufferQueue.pushMulti, last] at covered ⊢
      omega
  | suspended cb cbSize remaining rest suspended =>
    have popped_le := suspended.popped_le
    have covered := suspended.covered
    refine .suspended cb cbSize remaining (rest ++ [(m.pushes, multi.sizeBytes)])
      ⟨suspended.fine, suspended.frames, ?_, ?_, suspended.invoked, ?_, ?_⟩
    · simp only [enter, BufferQueue.pushMulti, suspended.deque, List.cons_append]
    · have names := suspended.names
      simp only [enter, List.map_append, ← List.cons_append, ← List.append_assoc, names,
        List.range_succ, List.map_cons, List.map_nil]
    · exact Nat.le_add_right_of_le popped_le
    · simp only [outstanding, enter, last] at covered ⊢
      omega

theorem top_pop_sound (owes : Owes m 0) {bytes : SizeT}
    (within : bytes.toNat ≤ m.outstanding) : Sound (m.pop bytes) := by
  have popped_le := owes.popped_le
  have covered : m.outstanding + 0 ≤ _ := owes.covered
  simp only [outstanding] at within covered
  cases stop : m.queue.empty with
  | true =>
    rw [pop_stop stop]
    refine .idle ⟨owes.fine, owes.idle, owes.names, owes.invoked, ?_, ?_⟩
    · dsimp only
      omega
    · change m.pushed - (m.popped + bytes.toNat) + 0 ≤ total (amounts m.queue.callbacks)
      omega
  | false =>
    rw [pop_go stop]
    refine resume_sound ⟨owes.fine, owes.idle, owes.names, owes.invoked, ?_, ?_⟩
    · dsimp only
      omega
    · simp only [outstanding, afterPop_callbacks]
      omega

/-- A call of pop that ends inside the running callback's entry takes the bytes off that
entry, which is removed whole when the callback returns. -/
theorem nested_pop_sound {cb : ℕ} {cbSize remaining : SizeT} {rest : List (ℕ × SizeT)}
    (suspended : Suspended m cb cbSize remaining rest) {bytes : SizeT}
    (within : bytes.toNat ≤ m.outstanding) (harmless : m.Harmless (.call (.pop bytes))) :
    Sound (m.pop bytes) := by
  have covered := suspended.covered
  have spent : m.popped + bytes.toNat ≤ m.pushed := by
    have popped_le := suspended.popped_le
    unfold outstanding at within
    omega
  have lower : m.pushed - (m.popped + bytes.toNat) + remaining.toNat ≤ total (amounts rest) := by
    unfold outstanding at covered
    omega
  cases stop : m.queue.empty with
  | true =>
    rw [pop_stop stop]
    exact .suspended cb cbSize remaining rest ⟨suspended.fine, suspended.frames, suspended.deque,
      suspended.names, suspended.invoked, spent, lower⟩
  | false =>
    rw [pop_go stop]
    rcases Nat.eq_zero_or_pos bytes.toNat with zero | some_left
    · simp only [resume, afterPop_callbacks, turn_stop m.queue.callbacks zero]
      exact .suspended cb cbSize remaining rest ⟨suspended.fine, suspended.frames,
        suspended.deque, suspended.names, suspended.invoked, spent, lower⟩
    · have short : bytes.toNat < cbSize.toNat := by
        have running : m.frames ≠ [] := by simp [suspended.frames]
        rcases harmless running with empty | zero | short
        · simp [stop] at empty
        · simp [zero] at some_left
        · exact UInt64.lt_iff_toNat_lt.mp (short (cb, cbSize) (by simp [suspended.deque]))
      simp only [resume, afterPop_callbacks, suspended.deque, turn_short rest short some_left]
      exact .suspended cb (cbSize - bytes) remaining rest ⟨suspended.fine, suspended.frames, rfl,
        suspended.names, suspended.invoked, spent, lower⟩

theorem ret_sound {cb : ℕ} {cbSize remaining : SizeT} {rest : List (ℕ × SizeT)}
    (suspended : Suspended m cb cbSize remaining rest) : Sound m.ret := by
  rw [ret_running suspended.frames suspended.deque]
  refine resume_sound ⟨suspended.fine, rfl, ?_, suspended.invoked, suspended.popped_le,
    suspended.covered⟩
  simpa [setCallbacks] using suspended.names

theorem step_push_eq (m : Machine) (buf : RefBuffer) :
    m.step (.call (.push buf)) = m.step (.call (.pushMulti ⟨[buf]⟩)) := by
  unfold step
  cases m.fault with
  | some _ => rfl
  | none =>
    dsimp only
    rw [push_eq_pushMulti, sizeBytes_singleton]

theorem Sound.fine (sound : Sound m) : m.fault = none := by
  cases sound with
  | idle owes => exact owes.fine
  | suspended _ _ _ _ suspended => exact suspended.fine

theorem step_sound (m : Machine) (act : Act) (sound : Sound m) (admits : m.Admits act)
    (harmless : m.Harmless act) : Sound (m.step act) := by
  have fine := sound.fine
  rcases act with (buf | multi | bytes) | _
  · rw [step_push_eq]
    simp only [step, fine]
    exact pushMulti_sound sound ⟨[buf]⟩
  · simp only [step, fine]
    exact pushMulti_sound sound multi
  · rw [step_pop fine]
    cases sound with
    | idle owes => exact top_pop_sound owes admits
    | suspended cb cbSize remaining rest suspended =>
      exact nested_pop_sound suspended admits harmless
  · rw [step_ret fine]
    cases sound with
    | idle owes => exact absurd owes.idle admits
    | suspended cb cbSize remaining rest suspended => exact ret_sound suspended

/-- Any other call of pop from a callback finds that callback's own entry in front and
runs it again. -/
theorem harmful_runs_again (m : Machine) (act : Act) (sound : Sound m)
    (harmful : ¬ m.Harmless act) : ¬ OnceInOrder (m.step act) := by
  rcases act with (buf | multi | bytes) | _
  · exact absurd trivial harmful
  · exact absurd trivial harmful
  · simp only [Harmless, Classical.not_imp, not_or] at harmful
    obtain ⟨running, go, some_left, long⟩ := harmful
    cases sound with
    | idle owes => exact absurd owes.idle running
    | suspended cb cbSize remaining rest suspended =>
      have fits : cbSize.toNat ≤ bytes.toNat := by
        simpa [suspended.deque, UInt64.le_iff_toNat_le] using long
      have positive : 0 < bytes.toNat := Nat.pos_of_ne_zero fun zero =>
        some_left (UInt64.toNat_inj.mp zero)
      have again : (m.step (.call (.pop bytes))).invoked = m.removed ++ [cb] ++ [cb] := by
        rw [step_pop suspended.fine, pop_go (Bool.eq_false_iff.mpr go)]
        simp only [resume, afterPop_callbacks, suspended.deque, turn_invoke rest fits positive,
          suspended.invoked]
      intro once
      have distinct := once.at_most_once
      rw [again] at distinct
      simp [List.nodup_append] at distinct
  · exact absurd trivial harmful

theorem onceInOrder_step (m : Machine) (act : Act) (sound : Sound m) (_ : OnceInOrder m)
    (admits : m.Admits act) : OnceInOrder (m.step act) ↔ m.Harmless act := by
  constructor
  · intro once
    by_contra harmful
    exact harmful_runs_again m act sound harmful once
  · intro harmless
    exact (step_sound m act sound admits harmless).onceInOrder

end Machine

/-- Callbacks are invoked once each and in order throughout a run exactly when no call of
pop made by a callback reaches the end of that callback's own entry: the entry is in the
deque until the callback has returned. The steps of a run are those of any family. -/
theorem once_in_order_iff_harmless (acts : List Act)
    (admitted : Runs.Each Machine.step Machine.Admits .new acts) :
    Runs.Always Machine.step OnceInOrder .new acts ↔
      Runs.Each Machine.step Machine.Harmless .new acts :=
  Runs.always_iff_each Machine.step_sound Machine.onceInOrder_step Machine.new_sound
    Machine.new_sound.onceInOrder admitted

theorem once_in_order_within_own_bytes :
    Runs.Always Machine.step OnceInOrder .new
      [.call (.push (.mk 64 2)), .call (.push (.mk 128 4)), .call (.pop 3), .call (.push (.mk 256 1)),
        .call (.pop 1), .ret, .call (.pop 3), .ret] :=
  (once_in_order_iff_harmless _ (by decide)).mpr (by decide)

/-- Two buffers of one byte, and a callback that pops what is outstanding: the first one
runs twice, and the second one is removed without having run. -/
theorem callback_runs_twice :
    ¬ ∀ (family : ℕ → Machine → Option QueueOp) (acts : List Act),
      Runs.Each Machine.step (fun m act => m.Admits act ∧ m.Obeys family act) .new acts →
      Runs.Always Machine.step OnceInOrder .new acts := by
  intro claim
  let family (_ : ℕ) (m : Machine) : Option QueueOp :=
    if m.outstanding = 0 then none else some (.pop 1)
  let acts : List Act :=
    [.call (.push (.mk 64 1)), .call (.push (.mk 128 1)), .call (.pop 1), .call (.pop 1), .ret, .ret]
  have always := claim family acts (by decide)
  obtain ⟨_, _, _, _, twice, _⟩ := always
  exact absurd twice.at_most_once (by decide)

end LibN3
