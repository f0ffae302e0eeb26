import LibN3.Answers
import LibN3.Completion
import Mathlib.Data.List.Induction

/-! Any number of calls of socket::send, on objects of any classes, and which of the functions
that are passed to them are invoked. As send is noexcept, whatever throws in one ends the
program. -/
namespace LibN3.Linux
open Error

/-- A call of send on an object of a class, with the kernel as it is then and with what throws of
the things that send can end in. -/
structure SendCall (F T : Type) where
  own : OwnSend
  kernel : Kernel
  sock : Handle
  buf : RefBuffer
  flags : Int32
  cbFunc : F
  cbArgs : List (Arg T)
  throws : Sent F T → Bool

/-- What was passed on to a send of the class itself, what was invoked, and the callbacks that
were built. A callback is a local variable of send, and is destroyed where that returns. -/
structure SendLog (F T : Type) where
  passed : List (Handle × RefBuffer × Int32)
  invoked : List (Invocation F T)
  destroyed : List (Callback F T)

section sends

variable {F T : Type}

namespace SendCall

variable (c : SendCall F T)

def overrides : Bool := isMemberFunctionPointer (.own c.own)

def answer : Except Int32 SizeT := c.kernel (.send c.sock c.buf c.flags)

def blocks : Bool :=
  match c.answer with
  | .error errno => errno = EAGAIN
  | .ok _ => false

def send : Except Halt (Sent F T) :=
  Socket.send c.own c.kernel c.sock c.buf c.flags c.cbFunc c.cbArgs

/-- The function is told what the kernel answered, and then its arguments. -/
def Told (i : Invocation F T) : Prop :=
  ∃ ret, i = invokeNow c.cbFunc ret c.cbArgs ∧ Makes (.ok ret) (.ofAnswer c.answer (· = ·))

/-- What a call is for. -/
inductive Does : Sent F T → Prop
  | own (overrides : c.overrides = true) : Does (.own (c.sock, c.buf, c.flags))
  | invoked (falls : c.overrides = false) (ready : c.blocks = false) {i : Invocation F T}
      (told : c.Told i) : Does (.invoked i)
  | wouldBlock (falls : c.overrides = false) (blocks : c.blocks = true) :
      Does (.wouldBlock (.new c.cbFunc c.cbArgs))

def Returns : Prop := ∃ sent, c.Does sent ∧ c.throws sent = false

end SendCall

namespace SendLog

def record (w : SendLog F T) : Sent F T → SendLog F T
  | .own args => { w with passed := w.passed ++ [args] }
  | .invoked i => { w with invoked := w.invoked ++ [i] }
  | .wouldBlock cb => { w with destroyed := w.destroyed ++ [cb] }

def step (w : SendLog F T) (c : SendCall F T) : Except Halt (SendLog F T) := do
  let sent ← c.send
  if c.throws sent then .error .terminate else return w.record sent

def run (calls : List (SendCall F T)) : Except Halt (SendLog F T) :=
  calls.foldlM step ⟨[], [], []⟩

end SendLog

/-- The function of a call is invoked where the class overrides nothing and the kernel does not
put it off, once and in the order of the calls, and otherwise never. -/
structure Completed (calls : List (SendCall F T)) (w : SendLog F T) : Prop where
  passed : w.passed = (calls.filter SendCall.overrides).map fun c => (c.sock, c.buf, c.flags)
  told : List.Forall₂ SendCall.Told (calls.filter fun c => !c.overrides && !c.blocks) w.invoked
  untold : w.destroyed = (calls.filter fun c => !c.overrides && c.blocks).map
    fun c => .new c.cbFunc c.cbArgs

section steps

variable {w : SendLog F T} {c : SendCall F T}

theorem answer_of_blocks (blocks : c.blocks = true) : c.answer = .error EAGAIN := by
  unfold SendCall.blocks at blocks
  split at blocks
  · rename_i errno answered
    rw [answered, of_decide_eq_true blocks]
  · cases blocks

/-- The answer decides what n3::linux::send returns. -/
theorem send_returns {ret : Expected SizeT}
    (told : Makes (.ok ret) (.ofAnswer c.answer (· = ·))) :
    Linux.send c.kernel c.sock c.buf c.flags = .ok ret := by
  change checked c.answer returned = .ok ret
  cases answered : c.answer with
  | ok n =>
    rw [answered] at told
    obtain ⟨value, returns, same⟩ := told
    cases returns
    rw [← same]
    rfl
  | error errno =>
    rw [answered] at told
    obtain ⟨error, returns, carries⟩ := told
    cases returns
    rw [← carries, checked, unexpected, getErrorCodeFromErrno_toUnderlying]
    rfl

theorem ended_of_told {ret : Expected SizeT} (ready : c.blocks = false)
    (told : Makes (.ok ret) (.ofAnswer c.answer (· = ·))) : ret ≠ .error (.posix .eagain) := by
  rintro rfl
  unfold SendCall.blocks at ready
  cases answered : c.answer with
  | ok n =>
    rw [answered] at told
    obtain ⟨value, returns, _⟩ := told
    cases returns
  | error errno =>
    rw [answered] at told ready
    obtain ⟨error, returns, carries⟩ := told
    cases returns
    rw [← carries] at ready
    cases ready

theorem send_does {sent : Sent F T} (does : c.Does sent) : c.send = .ok sent := by
  cases does with
  | own overrides => exact send_own c.cbFunc c.cbArgs overrides
  | invoked falls ready told =>
    obtain ⟨ret, rfl, makes⟩ := told
    exact send_invokes_now c.cbFunc c.cbArgs falls (send_returns makes) (ended_of_told ready makes)
  | wouldBlock falls blocks =>
    exact send_would_block c.cbFunc c.cbArgs falls (answer_of_blocks blocks)

theorem send_halts (falls : c.overrides = false) (untold : ¬ ∃ i, c.Told i) :
    ∃ halt, c.send = .error halt := by
  have fallen : isMemberFunctionPointer (.own c.own) = false := falls
  cases outcome : Linux.send c.kernel c.sock c.buf c.flags with
  | ok ret =>
    have makes := (settles_checked_returned c.answer).makes_of_returns outcome
    exact absurd ⟨_, ret, rfl, makes⟩ untold
  | error halt =>
    refine ⟨halt, ?_⟩
    rw [SendCall.send, Socket.send, fallen, if_neg Bool.false_ne_true, outcome]
    rfl

theorem does_or_halts (c : SendCall F T) :
    (∃ sent, c.Does sent) ∨ ∃ halt, c.send = .error halt := by
  cases overrides : c.overrides with
  | true => exact .inl ⟨_, .own overrides⟩
  | false =>
    cases ready : c.blocks with
    | true => exact .inl ⟨_, .wouldBlock overrides ready⟩
    | false =>
      by_cases told : ∃ i, c.Told i
      · obtain ⟨i, told⟩ := told
        exact .inl ⟨_, .invoked overrides ready told⟩
      · exact .inr (send_halts overrides told)

theorem step_does {sent : Sent F T} (does : c.Does sent) :
    w.step c = if c.throws sent then .error .terminate else .ok (w.record sent) := by
  rw [SendLog.step, send_does does]
  rfl

theorem step_halts (stops : ¬ c.Returns) : ∃ halt, w.step c = .error halt := by
  obtain ⟨sent, does⟩ | ⟨halt, halts⟩ := does_or_halts c
  · have throws : c.throws sent = true := by
      by_contra quiet
      exact stops ⟨sent, does, Bool.eq_false_of_not_eq_true quiet⟩
    exact ⟨.terminate, by rw [step_does does, if_pos throws]⟩
  · refine ⟨halt, ?_⟩
    rw [SendLog.step, halts]
    rfl

theorem completed_record {calls : List (SendCall F T)} (completed : Completed calls w)
    {sent : Sent F T} (does : c.Does sent) : Completed (calls ++ [c]) (w.record sent) := by
  obtain ⟨passed, told, untold⟩ := completed
  cases does with
  | own overrides =>
    refine ⟨?_, ?_, ?_⟩
    · simp [SendLog.record, overrides, passed]
    · simpa [SendLog.record, overrides] using told
    · simp [SendLog.record, overrides, untold]
  | wouldBlock falls blocks =>
    refine ⟨?_, ?_, ?_⟩
    · simp [SendLog.record, falls, passed]
    · simpa [SendLog.record, falls, blocks] using told
    · simp [SendLog.record, falls, blocks, untold]
  | invoked falls ready tells =>
    refine ⟨?_, ?_, ?_⟩
    · simp [SendLog.record, falls, passed]
    · rw [List.filter_append]
      refine List.rel_append told ?_
      simpa [falls, ready] using tells
    · simp [SendLog.record, falls, ready, untold]

theorem completed_step {calls : List (SendCall F T)} (completed : Completed calls w)
    (returns : c.Returns) : ∃ w', w.step c = .ok w' ∧ Completed (calls ++ [c]) w' := by
  obtain ⟨sent, does, quiet⟩ := returns
  refine ⟨_, ?_, completed_record completed does⟩
  rw [step_does does, if_neg (Bool.eq_false_iff.mp quiet)]

end steps

/-- Every function is told about its send, unless the class sends by itself or the kernel puts
the send off. Only an errno that the switch has no case for ends a run early, and what throws. -/
theorem sends_told_in_order (calls : List (SendCall F T)) :
    ((∀ c ∈ calls, c.Returns) → ∃ w, SendLog.run calls = .ok w ∧ Completed calls w) ∧
      ((¬ ∀ c ∈ calls, c.Returns) → ∃ halt, SendLog.run calls = .error halt) := by
  induction calls using List.reverseRecOn with
  | nil =>
    constructor
    · exact fun _ => ⟨_, rfl, rfl, .nil, rfl⟩
    · exact fun stops => absurd (fun c member => absurd member List.not_mem_nil) stops
  | append_singleton calls c ih =>
    rw [List.forall_mem_append, List.forall_mem_singleton]
    by_cases before : ∀ d ∈ calls, d.Returns
    · obtain ⟨w, runs, completed⟩ := ih.1 before
      have last : SendLog.run (calls ++ [c]) = w.step c := by
        rw [SendLog.run] at runs ⊢
        rw [List.foldlM_append, runs, halt_ok_bind, List.foldlM_cons]
        cases w.step c <;> rfl
      rw [and_iff_right before, last]
      exact ⟨completed_step completed, step_halts⟩
    · obtain ⟨halt, halts⟩ := ih.2 before
      refine ⟨fun returns => absurd returns.1 before, fun _ => ⟨halt, ?_⟩⟩
      rw [SendLog.run] at halts ⊢
      rw [List.foldlM_append, halts]
      rfl

end sends

end LibN3.Linux
