import LibN3.QueueRuns

/-! One pop against several of the same bytes, as when a kernel takes a write in parts.
The callbacks cannot tell them apart; the buffers can, and keep the more for more parts. -/
namespace LibN3
open Credit

def bytesOfParts (parts : List SizeT) : ℕ := weight UInt64.toNat parts

def popAll (parts : List SizeT) : List QueueOp := parts.map .pop

/- The second list of calls is the first with each pop made in parts. -/
inductive Splits : List QueueOp → List QueueOp → Prop
  | done : Splits [] []
  | push {ops ops' : List QueueOp} (buf : RefBuffer) (rest : Splits ops ops') :
      Splits (.push buf :: ops) (.push buf :: ops')
  | pushMulti {ops ops' : List QueueOp} (multi : RefMultiBuffer) (rest : Splits ops ops') :
      Splits (.pushMulti multi :: ops) (.pushMulti multi :: ops')
  | pop {ops ops' : List QueueOp} (bytes : SizeT) (parts : List SizeT)
      (same : bytesOfParts parts = bytes.toNat) (rest : Splits ops ops') :
      Splits (.pop bytes :: ops) (popAll parts ++ ops')

/- The callbacks have run alike and are left alike, and the second history holds every buffer
the first does, in order. -/
structure KeepsMore (h h' : History) : Prop where
  entries : h.entries = h'.entries
  popped : h.popped = h'.popped
  fired : h.fired = h'.fired
  callbacks : h.queue.callbacks = h'.queue.callbacks
  buffers : h.buffers.Sublist h'.buffers

theorem amounts_injective {κ : Type} {l m : List (κ × SizeT)} (same : amounts l = amounts m) :
    l = m := by
  have injective : Function.Injective fun e : κ × SizeT => (e.1, e.2.toNat) := by
    rintro ⟨c, s⟩ ⟨d, t⟩ eq
    obtain ⟨name, size⟩ := Prod.mk.inj eq
    exact Prod.ext name (UInt64.toNat_inj.mp size)
  exact injective.list_map same

namespace QueueInv

variable {h : History}

/-- What an admitted pop does, field by field. -/
theorem pop_fields (inv : QueueInv h) {bytes : SizeT} (within : bytes.toNat ≤ h.outstanding) :
    (h.step .release quiet (.pop bytes)).fired =
        h.fired ++ (spend bytes.toNat (amounts h.queue.callbacks)).1 ∧
      (h.step .release quiet (.pop bytes)).entries = h.entries := by
  rcases inv.pop_cases within with ⟨_, zero, returns⟩ | ⟨left, _, returns⟩
  · rw [step_pop inv.running returns, zero, spend_zero]
    exact ⟨rfl, rfl⟩
  · rw [step_pop inv.running returns]
    exact ⟨rfl, rfl⟩

/-- Pops one after another spend their sum, and keep at least what one pop of it would. -/
theorem popAll_effect (inv : QueueInv h) (parts : List SizeT)
    (admitted : Runs.Each (History.step .release quiet) History.Roomy h (popAll parts)) :
    (Runs.run (History.step .release quiet) h (popAll parts)).entries = h.entries ∧
      (Runs.run (History.step .release quiet) h (popAll parts)).popped =
        h.popped + bytesOfParts parts ∧
      (Runs.run (History.step .release quiet) h (popAll parts)).fired =
        h.fired ++ (spend (bytesOfParts parts) (amounts h.queue.callbacks)).1 ∧
      amounts (Runs.run (History.step .release quiet) h (popAll parts)).queue.callbacks =
        (spend (bytesOfParts parts) (amounts h.queue.callbacks)).2 ∧
      (survivors RefBuffer.bytes (bytesOfParts parts) h.buffers).Sublist
        (Runs.run (History.step .release quiet) h (popAll parts)).buffers := by
  induction parts generalizing h with
  | nil =>
    have none : bytesOfParts [] = 0 := rfl
    rw [none, spend_zero, List.append_nil]
    exact ⟨rfl, rfl, rfl, rfl, survivors_sublist _ _ _⟩
  | cons part rest ih =>
    obtain ⟨within, later⟩ := admitted
    have sum : bytesOfParts (part :: rest) = part.toNat + bytesOfParts rest :=
      weight_cons UInt64.toNat part rest
    obtain ⟨fired, entries⟩ := inv.pop_fields within
    obtain ⟨buffers, callbacks, popped⟩ := inv.pop_effect within
    obtain ⟨entries', popped', fired', callbacks', buffers'⟩ := ih (inv.pop within) later
    rw [callbacks] at fired' callbacks'
    rw [buffers] at buffers'
    refine ⟨entries'.trans entries, ?_, ?_, ?_, ?_⟩
    · rw [sum, ← Nat.add_assoc, ← popped]
      exact popped'
    · rw [sum, spend_add, ← List.append_assoc, ← fired]
      exact fired'
    · rw [sum, spend_add]
      exact callbacks'
    · rw [sum]
      exact (survivors_add _ _ _ _).trans buffers'

end QueueInv

namespace KeepsMore

variable {h h' : History}

theorem start : KeepsMore .new .new := ⟨rfl, rfl, rfl, rfl, List.Sublist.refl _⟩

theorem pushMulti (rel : KeepsMore h h') (running : h.fault = none) (running' : h'.fault = none)
    (multi : RefMultiBuffer) :
    KeepsMore (h.step .release quiet (.pushMulti multi))
      (h'.step .release quiet (.pushMulti multi)) := by
  rw [step_pushMulti running, step_pushMulti running']
  refine ⟨?_, rel.popped, rel.fired, ?_, ?_⟩
  · simp only [History.enter, rel.entries]
  · simp only [History.enter, BufferQueue.pushMulti, rel.entries, rel.callbacks]
  · exact rel.buffers.append (List.Sublist.refl _)

theorem pop (rel : KeepsMore h h') (inv : QueueInv h) (inv' : QueueInv h') {bytes : SizeT}
    {parts : List SizeT} (same : bytesOfParts parts = bytes.toNat)
    (within : bytes.toNat ≤ h.outstanding)
    (admitted : Runs.Each (History.step .release quiet) History.Roomy h' (popAll parts)) :
    KeepsMore (h.step .release quiet (.pop bytes))
      (Runs.run (History.step .release quiet) h' (popAll parts)) := by
  obtain ⟨fired, entries⟩ := inv.pop_fields within
  obtain ⟨buffers, callbacks, popped⟩ := inv.pop_effect within
  obtain ⟨entries', popped', fired', callbacks', buffers'⟩ := inv'.popAll_effect parts admitted
  rw [same, ← rel.callbacks] at fired' callbacks'
  rw [same] at popped' buffers'
  refine ⟨?_, ?_, ?_, ?_, ?_⟩
  · rw [entries, entries', rel.entries]
  · rw [popped, popped', rel.popped]
  · rw [fired, fired', rel.fired]
  · exact amounts_injective (callbacks.trans callbacks'.symm)
  · rw [buffers]
    exact (survivors_mono _ (Nat.le_refl _) rel.buffers).trans buffers'

theorem run {ops ops' : List QueueOp} (splits : Splits ops ops') (rel : KeepsMore h h')
    (inv : QueueInv h) (inv' : QueueInv h')
    (admitted : Runs.Each (History.step .release quiet) History.Roomy h ops)
    (admitted' : Runs.Each (History.step .release quiet) History.Roomy h' ops') :
    KeepsMore (Runs.run (History.step .release quiet) h ops)
      (Runs.run (History.step .release quiet) h' ops') := by
  induction splits generalizing h h' with
  | done => exact rel
  | push buf _ ih =>
    have next := rel.pushMulti inv.running inv'.running ⟨[buf]⟩
    rw [← step_push, ← step_push] at next
    exact ih next (QueueInv.step h _ inv admitted.1) (QueueInv.step h' _ inv' admitted'.1)
      admitted.2 admitted'.2
  | pushMulti multi _ ih =>
    exact ih (rel.pushMulti inv.running inv'.running multi) (QueueInv.step h _ inv admitted.1)
      (QueueInv.step h' _ inv' admitted'.1) admitted.2 admitted'.2
  | pop bytes parts same _ ih =>
    rw [Runs.each_append] at admitted'
    rw [Runs.run_append]
    exact ih (rel.pop inv inv' same admitted.1 admitted'.1) (inv.pop admitted.1)
      (Runs.invariant QueueInv.step inv' admitted'.1) admitted.2 admitted'.2

end KeepsMore

/-- Pops made in parts run the same callbacks as whole ones and leave them with the same bytes
to wait for, and the buffers they leave include all that whole pops leave. -/
theorem split_pops_keep_more {ops ops' : List QueueOp} (splits : Splits ops ops')
    (admitted : ReleaseAdmitted ops) (admitted' : ReleaseAdmitted ops') :
    KeepsMore (releaseRun ops) (releaseRun ops') :=
  KeepsMore.run splits .start .start .start admitted admitted'

theorem three_bytes_in_parts :
    KeepsMore (releaseRun [.push (.mk 64 2), .push (.mk 128 4), .pop 3, .pop 3])
      (releaseRun [.push (.mk 64 2), .push (.mk 128 4), .pop 1, .pop 2, .pop 3]) :=
  split_pops_keep_more
    (.push _ (.push _ (.pop 3 [1, 2] rfl (.pop 3 [3] rfl .done)))) (by decide) (by decide)

end LibN3
