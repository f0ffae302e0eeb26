import LibN3.Ownership
import LibN3.Runs

/-! TcpSocket of tcp.h, and runs that build handle owners over descriptors and destroy
them. A descriptor comes from the caller or from socket(), whose result is given. -/
namespace LibN3

def shutRdwr : Int32 := 2

structure TcpSocket where
  sock : OwnedHandle
deriving DecidableEq

namespace TcpSocket

/-- TcpSocket(), given what socket() returned: the socket, or when it throws the calls
made as its member is destroyed. errno decides which error is thrown, not whether. -/
def new (result : Handle) : Except (List Syscall) TcpSocket :=
  let sock := OwnedHandle.new result
  if sock.toHandle == -1 then .error sock.destroy else .ok ⟨sock⟩

def ofHandle (sockArg : Handle) : TcpSocket := ⟨.new sockArg⟩

def destroy (s : TcpSocket) : List Syscall := .shutdown s.sock.toHandle shutRdwr :: s.sock.destroy

end TcpSocket

inductive Source
  | handle (f : Handle)
  | tcpHandle (f : Handle)
  | tcpSocket (result : Handle)
deriving DecidableEq

def Source.descriptor : Source → Handle
  | .handle f => f
  | .tcpHandle f => f
  | .tcpSocket result => result

inductive Object
  | handle (o : OwnedHandle)
  | tcp (s : TcpSocket)
deriving DecidableEq

namespace Object

def construct : Source → Option Object
  | .handle f => some (.handle (.new f))
  | .tcpHandle f => some (.tcp (.ofHandle f))
  | .tcpSocket result => (TcpSocket.new result).toOption.map .tcp

def owner : Object → OwnedHandle
  | .handle o => o
  | .tcp s => s.sock

def destroy : Object → List Syscall
  | .handle o => o.destroy
  | .tcp s => s.destroy

end Object

/-- An object from its construction on: none if the constructor threw, and once it is
destroyed the calls that made. -/
structure Life where
  source : Source
  object : Option Object
  destroyed : Option (List Syscall)
deriving DecidableEq

namespace Life

def born (source : Source) : Life := ⟨source, Object.construct source, none⟩

def Alive (l : Life) : Prop := l.object.isSome ∧ l.destroyed = none

instance (l : Life) : Decidable l.Alive := inferInstanceAs (Decidable (_ ∧ _))

def destroy (l : Life) : Life :=
  if l.Alive then { l with destroyed := l.object.map Object.destroy } else l

end Life

inductive ObjectOp
  | construct (source : Source)
  | destroy (i : ℕ)
deriving DecidableEq

namespace ObjectOp

def step (lives : List Life) : ObjectOp → List Life
  | .construct source => lives ++ [.born source]
  | .destroy i => lives.modify i Life.destroy

/-- Descriptors are distinct, only socket() gives a -1, and only a live object is
destroyed. -/
def Admits (lives : List Life) : ObjectOp → Prop
  | .construct source =>
    (source = .tcpSocket (-1)) ∨
      (0 ≤ source.descriptor ∧ ∀ l ∈ lives, l.source.descriptor ≠ source.descriptor)
  | .destroy i => ∃ l ∈ lives[i]?, l.Alive

instance decidableAdmits (lives : List Life) (op : ObjectOp) : Decidable (Admits lives op) :=
  match op with
  | .construct source => inferInstanceAs (Decidable
      ((source = .tcpSocket (-1)) ∨
        (0 ≤ source.descriptor ∧ ∀ l ∈ lives, l.source.descriptor ≠ source.descriptor)))
  | .destroy i => inferInstanceAs (Decidable (∃ l ∈ lives[i]?, l.Alive))

end ObjectOp

def isClose : Syscall → Bool
  | .close _ => true
  | .shutdown _ _ => false

/- What ownership of a descriptor promises of one object: its handle converts to the
descriptor, its end closes that and nothing else, a socket is shut down first, and the
constructor that asks for a socket throws just when there is none. -/
structure OwnsDescriptor (l : Life) : Prop where
  converts : ∀ o ∈ l.object, o.owner.toHandle = l.source.descriptor
  closes : ∀ calls ∈ l.destroyed, calls.filter isClose = [.close l.source.descriptor]
  shuts_down : ∀ s, l.object = some (.tcp s) → ∀ calls ∈ l.destroyed,
    calls = [.shutdown l.source.descriptor shutRdwr, .close l.source.descriptor]
  throws : ∀ result, l.source = .tcpSocket result → (l.object = none ↔ result = -1)

def Life.Lived (l : Life) : Prop :=
  l.object = Object.construct l.source ∧
    (l.destroyed = none ∨ l.destroyed = l.object.map Object.destroy)

/-- Every object is constructed, over a descriptor that is 1 wherever it is used. -/
theorem construct_uses_one (source : Source) :
    ∃ o, Object.construct source = some o ∧ o.owner.toHandle = 1 ∧
      o.destroy.filter isClose = [.close 1] ∧
      ∀ s, o = .tcp s → o.destroy = [.shutdown 1 shutRdwr, .close 1] := by
  cases source with
  | handle f => exact ⟨_, rfl, rfl, rfl, by rintro s ⟨⟩⟩
  | tcpHandle f => exact ⟨_, rfl, rfl, rfl, by rintro s ⟨⟩; rfl⟩
  | tcpSocket result =>
    -- The check compares 1 with -1, so no result of socket() makes it throw.
    exact ⟨.tcp ⟨.new result⟩, rfl, rfl, rfl, by rintro s ⟨⟩; rfl⟩

theorem ownsDescriptor_iff {l : Life} (lived : l.Lived) :
    OwnsDescriptor l ↔ l.source.descriptor = 1 := by
  obtain ⟨made, ended⟩ := lived
  obtain ⟨o, constructed, uses, closes, shuts⟩ := construct_uses_one l.source
  rw [constructed] at made
  constructor
  · intro owns
    rw [← owns.converts o made]
    exact uses
  · intro one
    rw [made, Option.map_some] at ended
    refine ⟨?_, ?_, ?_, ?_⟩
    · intro o' member
      rw [made] at member
      cases member
      rw [uses, one]
    · intro calls member
      rcases ended with none_yet | some_calls
      · simp [none_yet] at member
      · rw [some_calls] at member
        cases member
        rw [closes, one]
    · intro s tcp calls member
      rcases ended with none_yet | some_calls
      · simp [none_yet] at member
      · rw [some_calls] at member
        cases member
        rw [made] at tcp
        rw [shuts s (Option.some.inj tcp), one]
    · intro result asked
      rw [asked] at one
      rw [made, show result = 1 from one]
      simp only [reduceCtorEq, false_iff]
      decide

@[simp] theorem source_destroy (l : Life) : l.destroy.source = l.source := by
  unfold Life.destroy
  split <;> rfl

theorem lived_destroy {l : Life} (lived : l.Lived) : l.destroy.Lived := by
  unfold Life.destroy
  split
  · exact ⟨lived.1, .inr rfl⟩
  · exact lived

theorem lived_step {lives : List Life} (op : ObjectOp) (lived : ∀ l ∈ lives, l.Lived) :
    ∀ l ∈ ObjectOp.step lives op, l.Lived := by
  cases op with
  | construct source =>
    intro l member
    rcases List.mem_append.mp member with old | fresh
    · exact lived l old
    · rw [List.mem_singleton.mp fresh]
      exact ⟨rfl, .inl rfl⟩
  | destroy i =>
    intro l member
    obtain ⟨j, inside, rfl⟩ := List.mem_iff_getElem.mp member
    rw [ObjectOp.step, List.length_modify] at inside
    have before := lived _ (List.getElem_mem inside)
    simp only [ObjectOp.step, List.getElem_modify]
    split
    · exact lived_destroy before
    · exact before

theorem sources_destroy (lives : List Life) (i : ℕ) :
    (lives.modify i Life.destroy).map Life.source = lives.map Life.source := by
  induction lives generalizing i with
  | nil => simp
  | cons l lives ih => cases i <;> simp [ih]

theorem run_lives (lives : List Life) (ops : List ObjectOp) (lived : ∀ l ∈ lives, l.Lived) :
    (∀ l ∈ Runs.run ObjectOp.step lives ops, l.Lived) ∧
      ∀ source, source ∈ (Runs.run ObjectOp.step lives ops).map Life.source ↔
        source ∈ lives.map Life.source ∨ .construct source ∈ ops := by
  induction ops generalizing lives with
  | nil => exact ⟨lived, fun source => by simp [Runs.run]⟩
  | cons op ops ih =>
    obtain ⟨all, sources⟩ := ih _ (lived_step op lived)
    refine ⟨all, fun source => ?_⟩
    rw [Runs.run, sources]
    cases op with
    | construct made => simp [ObjectOp.step, Life.born, or_assoc]
    | destroy i => simp only [ObjectOp.step, sources_destroy, List.mem_cons, reduceCtorEq, false_or]

/-- Every object of a run owns its descriptor exactly when every descriptor given to a
constructor is 1, the value that a held descriptor converts to. -/
theorem descriptors_owned_iff_one (ops : List ObjectOp) :
    (∀ l ∈ Runs.run ObjectOp.step [] ops, OwnsDescriptor l) ↔
      ∀ source, ObjectOp.construct source ∈ ops → source.descriptor = 1 := by
  obtain ⟨lived, sources⟩ := run_lives [] ops (by simp)
  constructor
  · intro owns source made
    have member := (sources source).mpr (.inr made)
    obtain ⟨l, present, rfl⟩ := List.mem_map.mp member
    exact (ownsDescriptor_iff (lived l present)).mp (owns l present)
  · intro one l present
    apply (ownsDescriptor_iff (lived l present)).mpr
    rcases (sources l.source).mp (List.mem_map_of_mem present) with none_before | made
    · simp at none_before
    · exact one l.source made

theorem handle_closes_another_descriptor :
    ¬ ∀ ops, Runs.Each ObjectOp.step ObjectOp.Admits [] ops →
      ∀ l ∈ Runs.run ObjectOp.step [] ops, OwnsDescriptor l := by
  intro claim
  have owns := claim [.construct (.handle 5), .destroy 0] (by decide)
    ⟨.handle 5, some (.handle (.new 5)), some [.close 1]⟩ (by decide)
  exact absurd (owns.closes [.close 1] rfl) (by decide)

end LibN3
