import LibN3.QueueRuns

/-! The two builds of BufferQueue compared. Assertions have no effect but to stop, so the
Debug build does what Release does up to the first one that fails. -/
namespace LibN3

/- The first computation returns what the second does, or is stopped by an assertion. -/
def StopsEarlier {A : Type} (debug release : Except Fault A) : Prop :=
  (∃ a, debug = .ok a ∧ release = .ok a) ∨ ∃ expr, debug = .error (.assertion expr)

namespace StopsEarlier

theorem ok {A : Type} (a : A) : StopsEarlier (.ok a) (.ok a) := .inl ⟨a, rfl, rfl⟩

theorem assert (expr : String) (holds : Bool) :
    StopsEarlier (LibN3.assert .debug expr holds) (LibN3.assert .release expr holds) := by
  cases holds with
  | true => exact ok ()
  | false => exact .inr ⟨expr, rfl⟩

theorem bind {A B : Type} {x y : Except Fault A} {f g : A → Except Fault B}
    (first : StopsEarlier x y) (later : ∀ a, StopsEarlier (f a) (g a)) :
    StopsEarlier (x >>= f) (y >>= g) := by
  rcases first with ⟨a, rfl, rfl⟩ | ⟨expr, rfl⟩
  · exact later a
  · exact .inr ⟨expr, rfl⟩

theorem consume (m : RefMultiBuffer) (bytes : SizeT) :
    StopsEarlier (m.consume .debug bytes) (m.consume .release bytes) := by
  unfold RefMultiBuffer.consume
  apply bind (assert _ _)
  intro _
  apply bind (assert _ _)
  intro _
  split
  · apply bind (assert _ _)
    intro _
    exact ok _
  · apply bind (assert _ _)
    intro _
    apply bind (assert _ _)
    intro _
    exact ok _

variable {κ : Type} (throws : κ → Bool)

/-- Where the Release loop reads the front of an empty deque, Debug stops. -/
theorem popLoop (l : List (κ × SizeT)) (n : SizeT) :
    StopsEarlier (LibN3.popLoop .debug throws l n) (LibN3.popLoop .release throws l n) := by
  induction l generalizing n with
  | nil =>
    unfold LibN3.popLoop
    split
    · exact .inr ⟨_, rfl⟩
    · exact ok _
  | cons e rest ih =>
    obtain ⟨cb, cbSize⟩ := e
    unfold LibN3.popLoop
    split
    · split
      · split
        · exact ok _
        · apply bind (ih _)
          intro _
          exact ok _
      · apply bind (assert _ _)
        intro _
        exact ok _
    · exact ok _

theorem pop (q : BufferQueue κ) (bytes : SizeT) :
    StopsEarlier (q.pop .debug throws bytes) (q.pop .release throws bytes) := by
  unfold BufferQueue.pop
  split
  · exact ok _
  · apply bind (assert _ _)
    intro _
    apply bind (assert _ _)
    intro _
    apply bind (consume _ _)
    intro _
    apply bind (popLoop throws _ _)
    intro _
    exact ok _

theorem release_ok {A : Type} {x y : Except Fault A} {a : A} (refines : StopsEarlier x y)
    (returns : x = .ok a) : y = .ok a := by
  rcases refines with ⟨b, same, release⟩ | ⟨expr, fails⟩
  · rw [returns] at same
    cases same
    exact release
  · rw [returns] at fails
    cases fails

end StopsEarlier

theorem pop_release_cases {κ : Type} {throws : κ → Bool} {q : BufferQueue κ} {bytes : SizeT}
    {exit : PopExit κ} (returns : q.pop .release throws bytes = .ok exit) :
    (q.empty = true ∧ exit.queue = q) ∨
      (q.empty = false ∧ ∃ callbacks, exit.queue = q.afterPop bytes callbacks) := by
  cases stop : q.empty with
  | true =>
    rw [pop_stop .release throws bytes stop] at returns
    cases returns
    exact .inl ⟨rfl, rfl⟩
  | false =>
    cases loop : popLoop .release throws q.callbacks bytes with
    | error fault =>
      unfold BufferQueue.pop at returns
      simp only [stop, Bool.false_eq_true, if_false, assert_release, ok_bind, consume_release,
        loop, error_bind] at returns
      cases returns
    | ok loopExit =>
      rw [pop_go stop loop] at returns
      cases returns
      exact .inr ⟨rfl, loopExit.callbacks, rfl⟩

theorem pop_returns_release {κ : Type} {build : Build} {throws : κ → Bool} {q : BufferQueue κ}
    {bytes : SizeT} {exit : PopExit κ} (returns : q.pop build throws bytes = .ok exit) :
    q.pop .release throws bytes = .ok exit := by
  cases build with
  | debug => exact (StopsEarlier.pop throws q bytes).release_ok returns
  | release => exact returns

namespace History

variable (throws : ℕ → Bool) (h : History)

def Stopped (h : History) : Prop := h.fault ≠ none

theorem step_stopped (build : Build) (op : QueueOp) (stopped : h.Stopped) :
    h.step build throws op = h := by
  cases fault : h.fault with
  | none => exact absurd fault stopped
  | some f => simp only [step, fault]

/-- A step that stops the Debug build is a pop with an assertion that fails. -/
theorem debug_step_cases (op : QueueOp) (running : h.fault = none) :
    ((h.step .debug throws op).fault = none ∧
      h.step .debug throws op = h.step .release throws op) ∨
      ∃ bytes expr, op = .pop bytes ∧
        h.step .debug throws op = { h with fault := some (.assertion expr) } := by
  cases op with
  | push buf => exact .inl (by simp only [step, running, enter, and_self])
  | pushMulti multi => exact .inl (by simp only [step, running, enter, and_self])
  | pop bytes =>
    rcases StopsEarlier.pop throws h.queue bytes with ⟨exit, debug, release⟩ | ⟨expr, fails⟩
    · exact .inl (by simp only [step, running, debug, release, and_self])
    · exact .inr ⟨bytes, expr, rfl, by simp only [step, running, fails]⟩

theorem debug_step_agrees (op : QueueOp) (goes : ¬ (h.step .debug throws op).Stopped) :
    h.step .debug throws op = h.step .release throws op := by
  by_cases stopped : h.Stopped
  · rw [step_stopped throws h .debug op stopped] at goes
    exact absurd stopped goes
  · have running : h.fault = none := not_not.mp stopped
    rcases debug_step_cases throws h op running with ⟨_, same⟩ | ⟨bytes, expr, _, fails⟩
    · exact same
    · rw [fails] at goes
      exact absurd (by simp [Stopped]) goes

end History

/-- A Debug run is the Release run of the same calls, or the Release run of those before
some pop, stopped by an assertion there. -/
theorem debug_run_stops_at_assertion (throws : ℕ → Bool) (ops : List QueueOp) :
    ((Runs.run (History.step .debug throws) .new ops).fault = none ∧
      Runs.run (History.step .debug throws) .new ops =
        Runs.run (History.step .release throws) .new ops) ∨
    ∃ before bytes after expr, ops = before ++ .pop bytes :: after ∧
      (Runs.run (History.step .release throws) .new before).fault = none ∧
      Runs.run (History.step .debug throws) .new ops =
        { Runs.run (History.step .release throws) .new before with
          fault := some (.assertion expr) } := by
  have fresh : ¬ History.new.Stopped := fun stopped => stopped rfl
  rcases Runs.run_until_stop (fun h op => History.step_stopped throws h .debug op)
      (fun h op => History.debug_step_agrees throws h op) .new fresh ops with
    ⟨goes, same⟩ | ⟨before, op, after, rfl, goes, stops, ends⟩
  · exact .inl ⟨not_not.mp goes, same⟩
  · have running := not_not.mp goes
    rcases History.debug_step_cases throws _ op running with ⟨goes, _⟩ | ⟨bytes, expr, rfl, fails⟩
    · exact absurd goes stops
    · exact .inr ⟨before, bytes, after, expr, rfl, running, ends.trans fails⟩

end LibN3
