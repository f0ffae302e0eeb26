import LibN3.Executor
import LibN3.WaitTimeout

/-! The loops of epoll_executor::run and runtime_st::run, round after round, and what the
executor's map holds in every state that its calls can reach. The epoll descriptor is taken to
be valid, so that a wait fails for a signal only. Whether the executor is active is a
parameter, as the source never initialises its member. -/
namespace LibN3
open Error

/-- while (this->active) run_once(), for as many rounds as there are schedules, or none where
a wait never comes back. Nothing in a round writes active. -/
def EpollExecutor.run (active : Bool) (ex : EpollExecutor) : List Schedule → Option EpollExecutor
  | [] => some ex
  | s :: rest =>
    if active then
      (s.epollWait (epollTimeout none)).bind fun returned => (ex.runOnce returned).run active rest
    else some ex

structure RuntimeSt where
  epoll : EpollCtx
  active : Bool

namespace RuntimeSt

def new (this : UInt64) : RuntimeSt := ⟨⟨this⟩, false⟩

def run (rt : RuntimeSt) : List Schedule → Option RuntimeSt
  | [] => some rt
  | s :: rest => if rt.active then (EpollCtx.waitFor none s).bind fun _ => rt.run rest else some rt

end RuntimeSt

def Schedule.readyAtCall (s : Schedule) : List EpollEvent :=
  if s.ready = 0 then s.events.take EpollCtx.eventBufferSize else []

/-- A wait without a timeout comes back at once, with what is ready then. -/
theorem epollWait_at_once (s : Schedule) :
    s.epollWait (epollTimeout none) = some (.ok s.readyAtCall) := by
  have limit : deadline (epollTimeout none) = 0 := rfl
  unfold Schedule.epollWait Schedule.readyAtCall
  rw [limit]
  by_cases ready : s.ready = 0
  · simp [ready]
  · simp [ready]

theorem RuntimeSt.run_unchanged (rt : RuntimeSt) (schedules : List Schedule) :
    rt.run schedules = some rt := by
  induction schedules with
  | nil => rfl
  | cons s rest ih =>
    unfold RuntimeSt.run
    split
    · rw [EpollCtx.waitFor, epollWait_at_once]
      exact ih
    · rfl

def cached (named : List EpollEvent) (state : Option EpollHandleState) :
    Option EpollHandleState :=
  (named.getLast?.map fun e => EpollExecutor.setEventCache state (.ofMask e.events)).getD state

def naming (key : Handle) (events : List EpollEvent) : List EpollEvent :=
  events.filter fun e => dataFd e.data = key

theorem runOnce_epoll (ex : EpollExecutor) (events : List EpollEvent) :
    (ex.runOnce (.ok events)).epoll = ex.epoll := by
  cases events <;> rfl

theorem run_putAll (ex : EpollExecutor) (schedules : List Schedule) :
    ∃ ex', ex.run true schedules = some ex' ∧ ex'.epoll = ex.epoll ∧
      ex'.handleMap = Table.putAll (fun e : EpollEvent => dataFd e.data)
        (fun e state => EpollExecutor.setEventCache state (.ofMask e.events)) ex.handleMap
        (schedules.flatMap Schedule.readyAtCall) := by
  induction schedules generalizing ex with
  | nil => exact ⟨ex, rfl, rfl, rfl⟩
  | cons s rest ih =>
    obtain ⟨ex', runs, epoll, map⟩ := ih (ex.runOnce (.ok s.readyAtCall))
    refine ⟨ex', ?_, ?_, ?_⟩
    · rw [EpollExecutor.run, if_pos rfl, epollWait_at_once]
      exact runs
    · rw [epoll, runOnce_epoll]
    · rw [map, runOnce_putAll, List.flatMap_cons, Table.putAll_append]

/-- However long run goes on, no round of it blocks or fails, and a handle's state is the one it
had with the flags of the last event under its key among those that were ready at the calls. -/
theorem run_caches_last_ready (ex : EpollExecutor) (schedules : List Schedule) :
    ∃ ex', ex.run true schedules = some ex' ∧ ex'.epoll = ex.epoll ∧
      ∀ key, ex'.handleMap key =
        cached (naming key (schedules.flatMap Schedule.readyAtCall)) (ex.handleMap key) := by
  obtain ⟨ex', runs, epoll, map⟩ := run_putAll ex schedules
  refine ⟨ex', runs, epoll, fun key => ?_⟩
  rw [map]
  exact Table.putAll_getLast (by intro _ _ _; rfl) _ _ key

def EpollOp.delivered : EpollOp → List (Handle × UInt32)
  | .runOnce (.ready batch) => batch
  | _ => []

/- The map that holds one state at most, under the key that the address spells: with no
descriptor, empty queues and the flags of this event. -/
def mapOfLast (this : UInt64) (last : Option (Handle × UInt32)) : HandleMap := fun key =>
  if key = dataFd this then
    last.map fun e => { EpollHandleState.zero with eventCache := Events.ofMask e.2 }
  else none

theorem mapOfLast_batch {this : UInt64} {w : EpollWorld} (inv : SharedKey this w)
    {last : Option (Handle × UInt32)} (map : w.executor.handleMap = mapOfLast this last)
    {batch : List (Handle × UInt32)} (registered : ∀ e ∈ batch, (w.interest e.1).isSome) :
    (w.step (.runOnce (.ready batch))).executor.handleMap =
      mapOfLast this (batch.getLast?.or last) := by
  funext key
  by_cases here : key = dataFd this
  · subst here
    cases latest : batch.getLast? with
    | none =>
      rw [List.getLast?_eq_none_iff.mp latest]
      exact congrFun map _
    | some e =>
      rw [(inv.batch_at_key registered latest).1, map, mapOfLast, mapOfLast, if_pos rfl, if_pos rfl,
        Option.some_or, Option.map_some]
      cases last <;> rfl
  · rw [inv.batch_elsewhere registered here, map, mapOfLast, mapOfLast, if_neg here, if_neg here]

theorem mapOfLast_step {this : UInt64} {w : EpollWorld} (inv : SharedKey this w)
    {last : Option (Handle × UInt32)} (map : w.executor.handleMap = mapOfLast this last)
    {op : EpollOp} (admits : w.Admits op) :
    (w.step op).executor.handleMap = mapOfLast this (op.delivered.getLast?.or last) := by
  rcases op with ⟨fd, answer⟩ | ⟨fd, answer⟩ | errno | batch
  · exact map
  · exact map
  · simp only [EpollWorld.step, runOnce_error]
    exact map
  · exact mapOfLast_batch inv map admits.2.2

theorem mapOfLast_run {this : UInt64} {w : EpollWorld} (inv : SharedKey this w)
    {last : Option (Handle × UInt32)} (map : w.executor.handleMap = mapOfLast this last)
    {ops : List EpollOp} (admitted : Runs.Each EpollWorld.step EpollWorld.Admits w ops) :
    (Runs.run EpollWorld.step w ops).executor.handleMap =
      mapOfLast this ((ops.flatMap EpollOp.delivered).getLast?.or last) := by
  induction ops generalizing w last with
  | nil => exact map
  | cons op rest ih =>
    have next := ih (SharedKey.step w op inv admitted.1) (mapOfLast_step inv map admitted.1)
      admitted.2
    rw [Runs.run, next, List.flatMap_cons, List.getLast?_append, Option.or_assoc]

/-- Whatever is added, removed and delivered, the executor's map is known from the last event
delivered: it has no entry before the first, and one entry after it, with that event's flags. -/
theorem map_after_run (this : UInt64) (ops : List EpollOp) (admitted : EpollAdmitted this ops) :
    (epollRun this ops).executor.handleMap =
      mapOfLast this (ops.flatMap EpollOp.delivered).getLast? := by
  have empty : (EpollWorld.new this).executor.handleMap = mapOfLast this none := by
    funext key
    by_cases here : key = dataFd this <;> simp [EpollWorld.new, EpollExecutor.new, mapOfLast, here]
  have after := mapOfLast_run .start empty admitted
  rw [Option.or_none] at after
  exact after

theorem map_after_two_batches :
    (epollRun 0x7FFD00001000 [.add 5 none, .runOnce (.ready [(5, EPOLLIN)]), .add 6 none,
        .runOnce (.failed EINTR), .runOnce (.ready [(6, EPOLLHUP), (5, 0)]), .remove 5 none]
      ).executor.handleMap = mapOfLast 0x7FFD00001000 (some (5, 0)) :=
  map_after_run 0x7FFD00001000 _ (by decide)

end LibN3
