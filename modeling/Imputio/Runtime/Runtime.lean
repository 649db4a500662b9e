import Mathlib.Logic.Function.Basic
import Imputio.Lib.Channel
import Imputio.Lib.Transition

/-! Runtimes that share one global executor slot: their calls and their driver threads. -/

namespace Imputio

open Transition

/-- Names a runtime of the process. -/
abbrev RuntimeId := Nat

/-- Names a coordinator that was ever made in the process. -/
abbrev CoordinatorId := Nat

/-- Names one call of `shutdown` on a runtime. -/
abbrev ShutdownId := Nat

/-- What the runtimes see of a coordinator: its flag, its threads, and which executors are gone. -/
structure Coordinator where
  -- History: the runtime whose `run` has made it; a placeholder has none.
  owner : Option RuntimeId
  handles : Nat
  -- The poller threads that were started beside the executors.
  pollers : Nat
  shutdown : Bool
  -- Which executors have left their loop since they saw the flag.
  exited : Nat → Bool
  -- Which executors have ended with a task that panicked; nobody is told.
  crashed : Nat → Bool

namespace Coordinator

/-- `ExecHandleCoordinator::new`: one handle, and no executor behind it. -/
def new : Coordinator where
  owner := none
  handles := 1
  pollers := 0
  shutdown := false
  exited := fun _ => true
  crashed := fun _ => false

/-- The threads that `ExecHandle::initialize` has started for a runtime, with a new flag. -/
def started (owner : RuntimeId) (execs pollers : Nat) : Coordinator where
  owner := some owner
  handles := execs
  pollers := pollers
  shutdown := false
  exited := fun _ => false
  crashed := fun _ => false

/-- `ExecHandleCoordinator::initialize`: an executor, and its poller, for each configuration. -/
def initialized (owner : RuntimeId) (execs : Nat) : Coordinator := .started owner execs execs

/--
`ExecHandleCoordinator::initialize`, when it panics after some executors were started.

The poller of an executor is started before it, so that there may be one more of them. What was
made is dropped with the panic, and the flag is left to the threads; the handles only count them.
-/
def abandoned (owner : RuntimeId) (execs : Nat) (poller : Bool) : Coordinator :=
  .started owner execs (execs + poller.toNat)

/-- The executor was started and is still in its loop. -/
def InLoop (coordinator : Coordinator) (worker : Nat) : Prop :=
  worker < coordinator.handles ∧ coordinator.exited worker = false ∧
    coordinator.crashed worker = false

instance (coordinator : Coordinator) (worker : Nat) : Decidable (coordinator.InLoop worker) :=
  inferInstanceAs (Decidable (_ ∧ _ ∧ _))

/-- An executor leaves its loop: it has seen the flag, or it unwinds. -/
def leave (coordinator : Coordinator) (worker : Nat) (panics : Bool) : Coordinator :=
  if panics then
    { coordinator with crashed := Function.update coordinator.crashed worker true }
  else { coordinator with exited := Function.update coordinator.exited worker true }

@[simp] theorem leave_owner (coordinator : Coordinator) (worker : Nat) (panics : Bool) :
    (coordinator.leave worker panics).owner = coordinator.owner := by
  cases panics <;> rfl

@[simp] theorem leave_handles (coordinator : Coordinator) (worker : Nat) (panics : Bool) :
    (coordinator.leave worker panics).handles = coordinator.handles := by
  cases panics <;> rfl

@[simp] theorem leave_pollers (coordinator : Coordinator) (worker : Nat) (panics : Bool) :
    (coordinator.leave worker panics).pollers = coordinator.pollers := by
  cases panics <;> rfl

@[simp] theorem leave_shutdown (coordinator : Coordinator) (worker : Nat) (panics : Bool) :
    (coordinator.leave worker panics).shutdown = coordinator.shutdown := by
  cases panics <;> rfl

/-- Who sees the flag is noted in `exited`. -/
theorem leave_exited_iff {coordinator : Coordinator} {worker other : Nat} {panics : Bool} :
    (coordinator.leave worker panics).exited other = true ↔
      coordinator.exited other = true ∨ panics = false ∧ other = worker := by
  cases panics <;> by_cases here : other = worker <;> simp [leave, here]

/-- Who unwinds is noted in `crashed`. -/
theorem leave_crashed_iff {coordinator : Coordinator} {worker other : Nat} {panics : Bool} :
    (coordinator.leave worker panics).crashed other = true ↔
      coordinator.crashed other = true ∨ panics = true ∧ other = worker := by
  cases panics <;> by_cases here : other = worker <;> simp [leave, here]

end Coordinator

/-- Where a call of `run` is, on its own or inside `block_on`. -/
inductive RunCall where
  | idle
  | swapping (blocking : Bool)
  | initializing (blocking : Bool)
  | storing (blocking : Bool) (exec : CoordinatorId)
  | starting (blocking : Bool)
  | returning (blocking : Bool)
  -- `block_on` polls its future on the thread of the caller.
  | blocking
  deriving DecidableEq, Repr

/-- Where a call of `shutdown` is. -/
inductive ShutdownCall where
  | unused
  | sending
  | loading
  | flagging (exec : CoordinatorId)
  | storing
  | returned
  deriving DecidableEq, Repr

/-- Where the driver thread is: in its loop, on its way out, or gone. -/
inductive Driver where
  | unstarted
  | loading
  | polling (exec : CoordinatorId)
  | receiving
  | exitLoading
  | exitFlagging (exec : CoordinatorId)
  | exitStoring
  | exited
  | panicked
  deriving DecidableEq, Repr

/-- The driver is in its loop, so that it still takes a notice. -/
def Driver.listens : Driver → Bool
  | .loading => true
  | .polling _ => true
  | .receiving => true
  | _ => false

/-- How many notices the driver has taken. -/
def Driver.received : Driver → Nat
  | .exitLoading => 1
  | .exitFlagging _ => 1
  | .exitStoring => 1
  | .exited => 1
  | _ => 0

/-- The coordinator that the driver acts on next. -/
def Driver.holds : Driver → Option CoordinatorId
  | .polling exec => some exec
  | .exitFlagging exec => some exec
  | _ => none

/--
The channel of the shutdown notices.

A channel that the user supplies, or that a builder used twice hands to two runtimes, has other
users: whether a notice is there is left open.
-/
inductive Notifier where
  | own (notices : Channel Unit)
  | supplied
  deriving DecidableEq, Repr

/-- A runtime, with the calls that borrow it and its driver thread. -/
structure Runtime where
  -- How many executors the configuration asks for.
  execs : Nat
  notifier : Notifier
  state : Bool
  call : RunCall
  shutdowns : ShutdownId → ShutdownCall
  nextShutdown : ShutdownId
  driver : Driver
  dropping : Bool
  -- The user has a sender that `run` has returned.
  sender : Bool
  -- History: how many notices were sent, and whether a call of `run` has panicked.
  sent : Nat
  failed : Bool

/-- What a thread of a runtime does to a coordinator. -/
inductive Deed where
  | polled
  | shutDown
  -- The coordinator was in the slot and is not any more.
  | removed
  deriving DecidableEq, Repr

/-- The global slot, and everything that it has ever held. -/
structure Shared where
  coordinators : CoordinatorId → Coordinator
  nextCoordinator : CoordinatorId
  executor : CoordinatorId
  -- History: what the drivers and the calls of `shutdown` have done, for which runtime.
  acted : List (RuntimeId × Deed × CoordinatorId)

/-- The steps that concern one runtime. -/
inductive RuntimeStep where
  | replaceShutdownNotifier
  | run (blocking : Bool)
  -- The next step of `run`; the system yields the threads that it asks for.
  | stepRun
  -- A thread cannot be started; while those of the executors are, some are there already.
  | failRun (execs : Nat) (poller : Bool)
  | shutdown
  | drop
  | stepShutdown (call : ShutdownId)
  -- The next step of the driver; the notice matters only where the channel is supplied.
  | stepDriver (notice : Bool)
  -- The user sends on the sender that `run` has returned.
  | notify
  deriving DecidableEq, Repr

namespace Shared

/-- Make a coordinator, whose name is new. -/
def create (shared : Shared) (coordinator : Coordinator) : Shared :=
  { shared with
    coordinators := Function.update shared.coordinators shared.nextCoordinator coordinator
    nextCoordinator := shared.nextCoordinator + 1 }

/-- `EXECUTOR.store`. -/
def store (shared : Shared) (exec : CoordinatorId) : Shared := { shared with executor := exec }

/-- A thread of a runtime acts on a coordinator. -/
def act (shared : Shared) (r : RuntimeId) (deed : Deed) (exec : CoordinatorId) : Shared :=
  { shared with acted := shared.acted ++ [(r, deed, exec)] }

/-- `ExecHandleCoordinator::shutdown`, called for a runtime. -/
def shutdown (shared : Shared) (r : RuntimeId) (exec : CoordinatorId) : Shared :=
  let coordinator := { shared.coordinators exec with shutdown := true }
  { shared.act r .shutDown exec with
    coordinators := Function.update shared.coordinators exec coordinator }

/-- Store a new placeholder for a runtime, which removes whatever the slot holds. -/
def clear (shared : Shared) (r : RuntimeId) : Shared :=
  ((shared.act r .removed shared.executor).create .new).store shared.nextCoordinator

@[simp] theorem create_acted (shared : Shared) (coordinator : Coordinator) :
    (shared.create coordinator).acted = shared.acted := rfl

@[simp] theorem store_acted (shared : Shared) (exec : CoordinatorId) :
    (shared.store exec).acted = shared.acted := rfl

@[simp] theorem act_acted (shared : Shared) (r : RuntimeId) (deed : Deed) (exec : CoordinatorId) :
    (shared.act r deed exec).acted = shared.acted ++ [(r, deed, exec)] := rfl

@[simp] theorem shutdown_acted (shared : Shared) (r : RuntimeId) (exec : CoordinatorId) :
    (shared.shutdown r exec).acted = shared.acted ++ [(r, .shutDown, exec)] := rfl

@[simp] theorem clear_acted (shared : Shared) (r : RuntimeId) :
    (shared.clear r).acted = shared.acted ++ [(r, .removed, shared.executor)] := rfl

end Shared

namespace Runtime

/-- `ImputioRuntimeBuilder::build`. -/
def build (execs : Nat) (notifier : Notifier) : Runtime where
  execs := execs
  notifier := notifier
  state := false
  call := .idle
  shutdowns := fun _ => .unused
  nextShutdown := 0
  driver := .unstarted
  dropping := false
  sender := false
  sent := 0
  failed := false

/-- No call borrows the runtime. -/
def Unused (rt : Runtime) : Prop :=
  rt.call = .idle ∧ rt.dropping = false ∧ ∀ call < rt.nextShutdown, rt.shutdowns call = .returned

instance (rt : Runtime) : Decidable rt.Unused := inferInstanceAs (Decidable (_ ∧ _ ∧ _))

/-- Send a notice, which waits while the channel is full. -/
def send (rt : Runtime) : Option Runtime :=
  match rt.notifier with
  | .supplied => some { rt with sent := rt.sent + 1 }
  | .own notices =>
    match notices.send () with
    | .sent notices => some { rt with notifier := .own notices, sent := rt.sent + 1 }
    | .full => none
    -- The error is ignored.
    | .disconnected => some rt

/-- Sending concerns the channel only. -/
theorem send_rest {rt now : Runtime} (sent : rt.send = some now) :
    now = { rt with notifier := now.notifier, sent := now.sent } := by
  -- A send that waits is no step at all, and a refused one changes nothing.
  unfold send at sent
  split at sent
  · obtain rfl := Option.some.inj sent
    rfl
  · split at sent
    · obtain rfl := Option.some.inj sent
      rfl
    · simp at sent
    · obtain rfl := Option.some.inj sent
      rfl

/-- Look for a notice. -/
def tryRecv (rt : Runtime) (notice : Bool) : Option Runtime :=
  match rt.notifier with
  | .supplied => if notice then some rt else none
  | .own notices => notices.tryRecv.map fun (_, notices) => { rt with notifier := .own notices }

/-- Receiving concerns the channel only. -/
theorem tryRecv_rest {rt now : Runtime} {notice : Bool} (taken : rt.tryRecv notice = some now) :
    now = { rt with notifier := now.notifier } := by
  -- A supplied channel is not part of the model, so that only the own one changes.
  unfold tryRecv at taken
  split at taken
  · obtain rfl := (Option.ite_none_right_eq_some.mp taken).2 |> Option.some.inj
    rfl
  · obtain ⟨_, -, rfl⟩ := Option.map_eq_some_iff.mp taken
    rfl

/-- Move a call of `shutdown` on. -/
def setShutdown (rt : Runtime) (call : ShutdownId) (now : ShutdownCall) : Runtime :=
  { rt with shutdowns := Function.update rt.shutdowns call now }

/-- Start a call of `shutdown`. -/
def callShutdown (rt : Runtime) : Runtime :=
  { rt.setShutdown rt.nextShutdown .sending with nextShutdown := rt.nextShutdown + 1 }

/-- `ImputioRuntime::run` and `ImputioRuntime::block_on`, where every thread can be started. -/
def stepRun (r : RuntimeId) (shared : Shared) (rt : Runtime) : Option (Shared × Runtime) :=
  match rt.call with
  | .idle => none
  -- The flag is swapped, and only the call that has found it unset starts anything.
  | .swapping blocking =>
    let call := if rt.state then .returning blocking else .initializing blocking
    some (shared, { rt with state := true, call := call })
  -- The threads of the executors are spawned before anything is stored.
  | .initializing blocking =>
    some (shared.create (.initialized r rt.execs),
      { rt with call := .storing blocking shared.nextCoordinator })
  | .storing blocking exec => some (shared.store exec, { rt with call := .starting blocking })
  -- The driver thread is detached, and nothing ever joins it.
  | .starting blocking => some (shared, { rt with call := .returning blocking, driver := .loading })
  | .returning blocking =>
    -- `block_on` drops the sender that `run` returns to it.
    if blocking then some (shared, { rt with call := .blocking })
    else some (shared, { rt with call := .idle, sender := true })
  | .blocking => some (shared, { rt with call := .idle })

/-- `ImputioRuntime::run`, where a thread cannot be started and the call panics. -/
def failRun (r : RuntimeId) (execs : Nat) (poller : Bool) (shared : Shared) (rt : Runtime) :
    Option (Shared × Runtime) :=
  match rt.call with
  | .initializing _ =>
    if execs < rt.execs then
      -- The threads that were started go on; where there is none, nothing is left behind.
      let shared := if 0 < execs ∨ poller = true then
          shared.create (.abandoned r execs poller)
        else shared
      some (shared, { rt with call := .idle, failed := true })
    else none
  | .starting _ => some (shared, { rt with call := .idle, failed := true })
  | _ => none

/-- `ImputioRuntime::shutdown`. -/
def stepShutdown (r : RuntimeId) (call : ShutdownId) (shared : Shared) (rt : Runtime) :
    Option (Shared × Runtime) :=
  match rt.shutdowns call with
  | .unused => none
  | .sending => rt.send.map fun rt => (shared, rt.setShutdown call .loading)
  | .loading => some (shared, rt.setShutdown call (.flagging shared.executor))
  -- The coordinator is the one that was loaded, whatever the slot holds by now.
  | .flagging exec => some (shared.shutdown r exec, rt.setShutdown call .storing)
  | .storing => some (shared.clear r, rt.setShutdown call .returned)
  | .returned => none

/-- The driver thread that `run` starts. -/
def stepDriver (r : RuntimeId) (notice : Bool) (shared : Shared) (rt : Runtime) :
    Option (Shared × Runtime) :=
  match rt.driver with
  | .unstarted => none
  | .loading => some (shared, { rt with driver := .polling shared.executor })
  | .polling exec =>
    -- The next index of an empty list of handles panics.
    if (shared.coordinators exec).handles = 0 then some (shared, { rt with driver := .panicked })
    else some (shared.act r .polled exec, { rt with driver := .receiving })
  | .receiving =>
    match rt.tryRecv notice with
    | some rt => some (shared, { rt with driver := .exitLoading })
    | none => some (shared, { rt with driver := .loading })
  -- On its way out the driver loads the slot anew.
  | .exitLoading => some (shared, { rt with driver := .exitFlagging shared.executor })
  | .exitFlagging exec => some (shared.shutdown r exec, { rt with driver := .exitStoring })
  | .exitStoring => some (shared.clear r, { rt with driver := .exited })
  | .exited => none
  | .panicked => none

/-- What each step does, where it is possible. -/
def next (r : RuntimeId) (shared : Shared) (rt : Runtime) :
    RuntimeStep → Option (Shared × Runtime)
  | .replaceShutdownNotifier =>
    -- The method takes the runtime by value.
    if rt.Unused then some (shared, { rt with notifier := .supplied }) else none
  | .run blocking =>
    if rt.Unused then some (shared, { rt with call := .swapping blocking }) else none
  | .stepRun => rt.stepRun r shared
  | .failRun execs poller => rt.failRun r execs poller shared
  | .shutdown =>
    if rt.call = .idle ∧ rt.dropping = false then some (shared, rt.callShutdown) else none
  | .drop =>
    if rt.Unused then some (shared, { rt.callShutdown with dropping := true }) else none
  | .stepShutdown call => rt.stepShutdown r call shared
  | .stepDriver notice => rt.stepDriver r notice shared
  | .notify => if rt.sender then rt.send.map fun rt => (shared, rt) else none

/-- What each kind of step of a runtime does. -/
inductive Effect (r : RuntimeId) (shared : Shared) (rt : Runtime) :
    RuntimeStep → Shared → Runtime → Prop
  | replaced (unused : rt.Unused) :
      Effect r shared rt .replaceShutdownNotifier shared { rt with notifier := .supplied }
  | runCalled {blocking : Bool} (unused : rt.Unused) :
      Effect r shared rt (.run blocking) shared { rt with call := .swapping blocking }
  | swapped {blocking : Bool} (before : rt.call = .swapping blocking) :
      Effect r shared rt .stepRun shared { rt with
        state := true
        call := if rt.state then .returning blocking else .initializing blocking }
  | created {blocking : Bool} (before : rt.call = .initializing blocking) :
      Effect r shared rt .stepRun (shared.create (.initialized r rt.execs))
        { rt with call := .storing blocking shared.nextCoordinator }
  | stored {blocking : Bool} {exec : CoordinatorId} (before : rt.call = .storing blocking exec) :
      Effect r shared rt .stepRun (shared.store exec) { rt with call := .starting blocking }
  | started {blocking : Bool} (before : rt.call = .starting blocking) :
      Effect r shared rt .stepRun shared
        { rt with call := .returning blocking, driver := .loading }
  | failed {execs : Nat} {poller blocking : Bool}
      (before : rt.call = .initializing blocking ∧ execs = 0 ∧ poller = false ∨
        rt.call = .starting blocking) :
      Effect r shared rt (.failRun execs poller) shared { rt with call := .idle, failed := true }
  | abandoned {execs : Nat} {poller blocking : Bool} (before : rt.call = .initializing blocking)
      (fewer : execs < rt.execs) (some : 0 < execs ∨ poller = true) :
      Effect r shared rt (.failRun execs poller) (shared.create (.abandoned r execs poller))
        { rt with call := .idle, failed := true }
  | returned {blocking : Bool} (before : rt.call = .returning blocking) :
      Effect r shared rt .stepRun shared { rt with
        call := if blocking then .blocking else .idle
        sender := rt.sender || !blocking }
  | unblocked (before : rt.call = .blocking) :
      Effect r shared rt .stepRun shared { rt with call := .idle }
  | shutdownCalled (idle : rt.call = .idle) (kept : rt.dropping = false) :
      Effect r shared rt .shutdown shared rt.callShutdown
  | dropped (unused : rt.Unused) :
      Effect r shared rt .drop shared { rt.callShutdown with dropping := true }
  | noticeSent {call : ShutdownId} {now : Runtime} (before : rt.shutdowns call = .sending)
      (sent : rt.send = some now) :
      Effect r shared rt (.stepShutdown call) shared (now.setShutdown call .loading)
  | slotLoaded {call : ShutdownId} (before : rt.shutdowns call = .loading) :
      Effect r shared rt (.stepShutdown call) shared
        (rt.setShutdown call (.flagging shared.executor))
  | flagged {call : ShutdownId} {exec : CoordinatorId}
      (before : rt.shutdowns call = .flagging exec) :
      Effect r shared rt (.stepShutdown call) (shared.shutdown r exec)
        (rt.setShutdown call .storing)
  | cleared {call : ShutdownId} (before : rt.shutdowns call = .storing) :
      Effect r shared rt (.stepShutdown call) (shared.clear r) (rt.setShutdown call .returned)
  | driverLoaded {notice : Bool} (before : rt.driver = .loading) :
      Effect r shared rt (.stepDriver notice) shared { rt with driver := .polling shared.executor }
  | driverPanicked {notice : Bool} {exec : CoordinatorId} (before : rt.driver = .polling exec)
      (empty : (shared.coordinators exec).handles = 0) :
      Effect r shared rt (.stepDriver notice) shared { rt with driver := .panicked }
  | driverPolled {notice : Bool} {exec : CoordinatorId} (before : rt.driver = .polling exec)
      (some : (shared.coordinators exec).handles ≠ 0) :
      Effect r shared rt (.stepDriver notice) (shared.act r .polled exec)
        { rt with driver := .receiving }
  | noticed {notice : Bool} {now : Runtime} (before : rt.driver = .receiving)
      (taken : rt.tryRecv notice = some now) :
      Effect r shared rt (.stepDriver notice) shared { now with driver := .exitLoading }
  | unnoticed {notice : Bool} (before : rt.driver = .receiving)
      (nothing : rt.tryRecv notice = none) :
      Effect r shared rt (.stepDriver notice) shared { rt with driver := .loading }
  | exitLoaded {notice : Bool} (before : rt.driver = .exitLoading) :
      Effect r shared rt (.stepDriver notice) shared
        { rt with driver := .exitFlagging shared.executor }
  | exitFlagged {notice : Bool} {exec : CoordinatorId} (before : rt.driver = .exitFlagging exec) :
      Effect r shared rt (.stepDriver notice) (shared.shutdown r exec)
        { rt with driver := .exitStoring }
  | exitCleared {notice : Bool} (before : rt.driver = .exitStoring) :
      Effect r shared rt (.stepDriver notice) (shared.clear r) { rt with driver := .exited }
  | notified {now : Runtime} (sender : rt.sender = true) (sent : rt.send = some now) :
      Effect r shared rt .notify shared now

/-- The steps of `run` have the effects listed for them. -/
theorem stepRun_effect {r : RuntimeId} {shared shared' : Shared} {rt rt' : Runtime}
    (taken : rt.stepRun r shared = some (shared', rt')) :
    rt.Effect r shared .stepRun shared' rt' := by
  -- One case per place of the call.
  unfold stepRun at taken
  cases before : rt.call with
  | idle => simp [before] at taken
  | swapping blocking =>
    simp only [before, Option.some.injEq, Prod.mk.injEq] at taken
    obtain ⟨rfl, rfl⟩ := taken
    exact .swapped before
  | initializing blocking =>
    simp only [before, Option.some.injEq, Prod.mk.injEq] at taken
    obtain ⟨rfl, rfl⟩ := taken
    exact .created before
  | storing blocking exec =>
    simp only [before, Option.some.injEq, Prod.mk.injEq] at taken
    obtain ⟨rfl, rfl⟩ := taken
    exact .stored before
  | starting blocking =>
    simp only [before, Option.some.injEq, Prod.mk.injEq] at taken
    obtain ⟨rfl, rfl⟩ := taken
    exact .started before
  | returning blocking =>
    have effect : rt.Effect r shared .stepRun shared { rt with
        call := if blocking then .blocking else .idle
        sender := rt.sender || !blocking } := .returned before
    cases blocking with
    | true =>
      simp only [before, if_true, Option.some.injEq, Prod.mk.injEq] at taken
      obtain ⟨rfl, rfl⟩ := taken
      simpa using effect
    | false =>
      simp only [before, Bool.false_eq_true, if_false, Option.some.injEq, Prod.mk.injEq] at taken
      obtain ⟨rfl, rfl⟩ := taken
      simpa using effect
  | blocking =>
    simp only [before, Option.some.injEq, Prod.mk.injEq] at taken
    obtain ⟨rfl, rfl⟩ := taken
    exact .unblocked before

/-- A panic of `run` has the effects listed for it. -/
theorem failRun_effect {r : RuntimeId} {execs : Nat} {poller : Bool} {shared shared' : Shared}
    {rt rt' : Runtime} (taken : rt.failRun r execs poller shared = some (shared', rt')) :
    rt.Effect r shared (.failRun execs poller) shared' rt' := by
  -- Threads are left behind only where those of the executors are being started.
  unfold failRun at taken
  cases before : rt.call with
  | initializing blocking =>
    simp only [before, Option.ite_none_right_eq_some, Option.some.injEq, Prod.mk.injEq] at taken
    obtain ⟨fewer, rfl, rfl⟩ := taken
    split
    · rename_i some
      exact .abandoned before fewer some
    · rename_i none
      obtain ⟨unstarted, unpolled⟩ := not_or.mp none
      exact .failed (.inl ⟨before, Nat.eq_zero_of_not_pos unstarted, by simpa using unpolled⟩)
  | starting blocking =>
    simp only [before, Option.some.injEq, Prod.mk.injEq] at taken
    obtain ⟨rfl, rfl⟩ := taken
    exact .failed (.inr before)
  | _ => simp [before] at taken

/-- The steps of `shutdown` have the effects listed for them. -/
theorem stepShutdown_effect {r : RuntimeId} {call : ShutdownId} {shared shared' : Shared}
    {rt rt' : Runtime} (taken : rt.stepShutdown r call shared = some (shared', rt')) :
    rt.Effect r shared (.stepShutdown call) shared' rt' := by
  -- One case per place of the call; a call that waits or has returned takes no step.
  unfold stepShutdown at taken
  cases before : rt.shutdowns call with
  | unused => simp [before] at taken
  | sending =>
    simp only [before, Option.map_eq_some_iff, Prod.mk.injEq] at taken
    obtain ⟨now, sent, rfl, rfl⟩ := taken
    exact .noticeSent before sent
  | loading =>
    simp only [before, Option.some.injEq, Prod.mk.injEq] at taken
    obtain ⟨rfl, rfl⟩ := taken
    exact .slotLoaded before
  | flagging exec =>
    simp only [before, Option.some.injEq, Prod.mk.injEq] at taken
    obtain ⟨rfl, rfl⟩ := taken
    exact .flagged before
  | storing =>
    simp only [before, Option.some.injEq, Prod.mk.injEq] at taken
    obtain ⟨rfl, rfl⟩ := taken
    exact .cleared before
  | returned => simp [before] at taken

/-- The steps of the driver have the effects listed for them. -/
theorem stepDriver_effect {r : RuntimeId} {notice : Bool} {shared shared' : Shared}
    {rt rt' : Runtime} (taken : rt.stepDriver r notice shared = some (shared', rt')) :
    rt.Effect r shared (.stepDriver notice) shared' rt' := by
  -- One case per place of the driver; it branches on the handles and on the notice.
  unfold stepDriver at taken
  cases before : rt.driver with
  | unstarted => simp [before] at taken
  | loading =>
    simp only [before, Option.some.injEq, Prod.mk.injEq] at taken
    obtain ⟨rfl, rfl⟩ := taken
    exact .driverLoaded before
  | polling exec =>
    simp only [before] at taken
    split at taken
    · rename_i empty
      obtain ⟨rfl, rfl⟩ := Prod.mk.inj (Option.some.inj taken)
      exact .driverPanicked before empty
    · rename_i some
      obtain ⟨rfl, rfl⟩ := Prod.mk.inj (Option.some.inj taken)
      exact .driverPolled before some
  | receiving =>
    simp only [before] at taken
    split at taken
    · rename_i now found
      obtain ⟨rfl, rfl⟩ := Prod.mk.inj (Option.some.inj taken)
      exact .noticed before found
    · rename_i nothing
      obtain ⟨rfl, rfl⟩ := Prod.mk.inj (Option.some.inj taken)
      exact .unnoticed before nothing
  | exitLoading =>
    simp only [before, Option.some.injEq, Prod.mk.injEq] at taken
    obtain ⟨rfl, rfl⟩ := taken
    exact .exitLoaded before
  | exitFlagging exec =>
    simp only [before, Option.some.injEq, Prod.mk.injEq] at taken
    obtain ⟨rfl, rfl⟩ := taken
    exact .exitFlagged before
  | exitStoring =>
    simp only [before, Option.some.injEq, Prod.mk.injEq] at taken
    obtain ⟨rfl, rfl⟩ := taken
    exact .exitCleared before
  | exited => simp [before] at taken
  | panicked => simp [before] at taken

/-- Every step of a runtime has one of the listed effects. -/
theorem next_effect {r : RuntimeId} {shared shared' : Shared} {rt rt' : Runtime}
    {step : RuntimeStep} (taken : rt.next r shared step = some (shared', rt')) :
    rt.Effect r shared step shared' rt' := by
  -- The guards are what the borrows of the calls allow.
  cases step with
  | replaceShutdownNotifier =>
    obtain ⟨unused, same⟩ := enabled_iff.mp taken
    obtain ⟨rfl, rfl⟩ := Prod.mk.inj same
    exact .replaced unused
  | run blocking =>
    obtain ⟨unused, same⟩ := enabled_iff.mp taken
    obtain ⟨rfl, rfl⟩ := Prod.mk.inj same
    exact .runCalled unused
  | stepRun => exact stepRun_effect taken
  | failRun execs poller => exact failRun_effect taken
  | shutdown =>
    obtain ⟨⟨idle, kept⟩, same⟩ := enabled_iff.mp taken
    obtain ⟨rfl, rfl⟩ := Prod.mk.inj same
    exact .shutdownCalled idle kept
  | drop =>
    obtain ⟨unused, same⟩ := enabled_iff.mp taken
    obtain ⟨rfl, rfl⟩ := Prod.mk.inj same
    exact .dropped unused
  | stepShutdown call => exact stepShutdown_effect taken
  | stepDriver notice => exact stepDriver_effect taken
  | notify =>
    obtain ⟨sender, sends⟩ := Option.ite_none_right_eq_some.mp taken
    obtain ⟨now, sent, same⟩ := Option.map_eq_some_iff.mp sends
    obtain ⟨rfl, rfl⟩ := Prod.mk.inj same
    exact .notified sender sent

end Runtime

/-- All runtimes of a process. -/
structure Process where
  shared : Shared
  runtimes : RuntimeId → Option Runtime
  nextRuntime : RuntimeId

/-- One atomic step of a process. -/
inductive ProcessAction where
  | build (execs : Nat) (capacity : Option Nat)
  -- The channel may be the one of a runtime that the same builder has built before.
  | buildSupplied (execs : Nat) (other : RuntimeId)
  | step (r : RuntimeId) (step : RuntimeStep)
  | exitExecutor (exec : CoordinatorId) (worker : Nat)
  -- A task that the executor polls panics, and takes the thread along; the flag is not touched.
  | crashExecutor (exec : CoordinatorId) (worker : Nat)
  deriving DecidableEq, Repr

/-- A whole call of `run` on a runtime that is not running. -/
def callOfRun (r : RuntimeId) : List ProcessAction :=
  .step r (.run false) :: List.replicate 5 (.step r .stepRun)

namespace Process

/-- A process that has not built a runtime yet; the slot holds the first placeholder. -/
def new : Process where
  shared := ⟨fun _ => .new, 1, 0, []⟩
  runtimes := fun _ => none
  nextRuntime := 0

/-- Replace one runtime. -/
def setRuntime (s : Process) (r : RuntimeId) (rt : Runtime) : Process :=
  { s with runtimes := Function.update s.runtimes r (some rt) }

/-- Build a runtime, whose name is new. -/
def addRuntime (s : Process) (rt : Runtime) : Process :=
  { s.setRuntime s.nextRuntime rt with nextRuntime := s.nextRuntime + 1 }

/-- The channel of a runtime gets other users. -/
def share (s : Process) (r : RuntimeId) : Process :=
  match s.runtimes r with
  | some rt => s.setRuntime r { rt with notifier := .supplied }
  | none => s

/-- An executor leaves its loop. -/
def leaveExecutor (s : Process) (exec : CoordinatorId) (worker : Nat) (panics : Bool) : Process :=
  { s with shared := { s.shared with
    coordinators := Function.update s.shared.coordinators exec
      ((s.shared.coordinators exec).leave worker panics) } }

/-- What each action does, where it is possible. -/
def next (s : Process) : ProcessAction → Option Process
  | .build execs capacity =>
    -- A rendezvous channel counts as a supplied one.
    if capacity ≠ some 0 then
      some (s.addRuntime (.build execs (.own ⟨[], capacity, true⟩)))
    else none
  | .buildSupplied execs other => some ((s.share other).addRuntime (.build execs .supplied))
  | .step r step =>
    (s.runtimes r).bind fun rt => (rt.next r s.shared step).map fun (shared, rt) =>
      { s with shared := shared }.setRuntime r rt
  | .exitExecutor exec worker =>
    if (s.shared.coordinators exec).shutdown = true ∧
        (s.shared.coordinators exec).InLoop worker then
      some (s.leaveExecutor exec worker false)
    else none
  | .crashExecutor exec worker =>
    if (s.shared.coordinators exec).InLoop worker then
      some (s.leaveExecutor exec worker true)
    else none

/-- What each kind of step of a process does. -/
inductive Effect (s : Process) : ProcessAction → Process → Prop
  | built {execs : Nat} {capacity : Option Nat} (roomy : capacity ≠ some 0) :
      Effect s (.build execs capacity) (s.addRuntime (.build execs (.own ⟨[], capacity, true⟩)))
  | builtSupplied {execs : Nat} {other : RuntimeId} :
      Effect s (.buildSupplied execs other) ((s.share other).addRuntime (.build execs .supplied))
  | stepped {r : RuntimeId} {step : RuntimeStep} {rt now : Runtime} {shared : Shared}
      (there : s.runtimes r = some rt) (effect : rt.Effect r s.shared step shared now) :
      Effect s (.step r step) ({ s with shared := shared }.setRuntime r now)
  | executorExited {exec : CoordinatorId} {worker : Nat}
      (flag : (s.shared.coordinators exec).shutdown = true)
      (loops : (s.shared.coordinators exec).InLoop worker) :
      Effect s (.exitExecutor exec worker) (s.leaveExecutor exec worker false)
  | executorCrashed {exec : CoordinatorId} {worker : Nat}
      (loops : (s.shared.coordinators exec).InLoop worker) :
      Effect s (.crashExecutor exec worker) (s.leaveExecutor exec worker true)

/-- Every step of a process has one of the listed effects. -/
theorem step_effect {s t : Process} {act : ProcessAction} (step : Steps next s act t) :
    s.Effect act t := by
  -- Building and leaving are tested here, and a step of a runtime has its own lemma.
  cases act with
  | build execs capacity =>
    obtain ⟨roomy, rfl⟩ := enabled_iff.mp step
    exact .built roomy
  | buildSupplied execs other =>
    obtain rfl := Option.some.inj step
    exact .builtSupplied
  | step r step' =>
    obtain ⟨rt, there, moved⟩ := Option.bind_eq_some_iff.mp step
    obtain ⟨⟨shared, now⟩, taken, rfl⟩ := Option.map_eq_some_iff.mp moved
    exact .stepped there (Runtime.next_effect taken)
  | exitExecutor exec worker =>
    obtain ⟨⟨flag, loops⟩, rfl⟩ := enabled_iff.mp step
    exact .executorExited flag loops
  | crashExecutor exec worker =>
    obtain ⟨loops, rfl⟩ := enabled_iff.mp step
    exact .executorCrashed loops

/-- Replacing a runtime leaves the others alone. -/
theorem setRuntime_apply (s : Process) (r : RuntimeId) (rt : Runtime) (other : RuntimeId) :
    (s.setRuntime r rt).runtimes other = if other = r then some rt else s.runtimes other :=
  Function.update_apply ..

/-- A built runtime is the one with the new name or an old one, whose channel may be shared now. -/
theorem addRuntime_cases {s : Process} {fresh rt : Runtime} {r : RuntimeId}
    (there : (s.addRuntime fresh).runtimes r = some rt) :
    r = s.nextRuntime ∧ rt = fresh ∨ s.runtimes r = some rt := by
  -- It is the new name, or one of before.
  rw [addRuntime, setRuntime_apply] at there
  split at there
  · rename_i here
    exact .inl ⟨here, (Option.some.inj there).symm⟩
  · exact .inr there

/-- Sharing a channel concerns the runtimes only. -/
@[simp] theorem share_shared (s : Process) (other : RuntimeId) :
    (s.share other).shared = s.shared := by
  unfold share
  split <;> rfl

/-- Sharing a channel builds no runtime. -/
@[simp] theorem share_nextRuntime (s : Process) (other : RuntimeId) :
    (s.share other).nextRuntime = s.nextRuntime := by
  unfold share
  split <;> rfl

/-- Sharing the channel of a runtime changes nothing else. -/
theorem share_cases {s : Process} {rt : Runtime} {r other : RuntimeId}
    (there : (s.share other).runtimes r = some rt) :
    ∃ before, s.runtimes r = some before ∧
      (rt = before ∨ rt = { before with notifier := .supplied }) := by
  -- Only the runtime whose channel it is can have changed.
  unfold share at there
  split at there
  · rename_i before found
    rw [setRuntime_apply] at there
    split at there
    · rename_i here
      exact ⟨before, here ▸ found, .inr (Option.some.inj there).symm⟩
    · exact ⟨rt, there, .inl rfl⟩
  · exact ⟨rt, there, .inl rfl⟩

/-- Sharing a channel takes no runtime away. -/
theorem share_kept {s : Process} {rt : Runtime} {r other : RuntimeId}
    (there : s.runtimes r = some rt) : ∃ now, (s.share other).runtimes r = some now := by
  -- A name without a runtime shares nothing.
  unfold share
  split
  · rw [setRuntime_apply]
    split
    · exact ⟨_, rfl⟩
    · exact ⟨rt, there⟩
  · exact ⟨rt, there⟩

/-- Of the coordinators, one loses an executor. -/
theorem leaveExecutor_apply (s : Process) (exec : CoordinatorId) (worker : Nat) (panics : Bool)
    (other : CoordinatorId) : (s.leaveExecutor exec worker panics).shared.coordinators other =
      if other = exec then (s.shared.coordinators exec).leave worker panics
      else s.shared.coordinators other :=
  Function.update_apply ..

/-- What stays when an executor leaves is known of every coordinator afterwards. -/
theorem leaveExecutor_kept {α : Type*} {read : Coordinator → α}
    (kept : ∀ (coordinator : Coordinator) worker panics,
      read (coordinator.leave worker panics) = read coordinator)
    (s : Process) (exec : CoordinatorId) (worker : Nat) (panics : Bool) (other : CoordinatorId) :
    read ((s.leaveExecutor exec worker panics).shared.coordinators other) =
      read (s.shared.coordinators other) := by
  -- It is the coordinator of the executor, or another one.
  rw [leaveExecutor_apply]
  split
  · rename_i here
    rw [here, kept]
  · rfl

@[simp] theorem leaveExecutor_owner (s : Process) (exec : CoordinatorId) (worker : Nat)
    (panics : Bool) (other : CoordinatorId) :
    ((s.leaveExecutor exec worker panics).shared.coordinators other).owner =
      (s.shared.coordinators other).owner :=
  leaveExecutor_kept Coordinator.leave_owner s exec worker panics other

@[simp] theorem leaveExecutor_handles (s : Process) (exec : CoordinatorId) (worker : Nat)
    (panics : Bool) (other : CoordinatorId) :
    ((s.leaveExecutor exec worker panics).shared.coordinators other).handles =
      (s.shared.coordinators other).handles :=
  leaveExecutor_kept Coordinator.leave_handles s exec worker panics other

@[simp] theorem leaveExecutor_shutdown (s : Process) (exec : CoordinatorId) (worker : Nat)
    (panics : Bool) (other : CoordinatorId) :
    ((s.leaveExecutor exec worker panics).shared.coordinators other).shutdown =
      (s.shared.coordinators other).shutdown :=
  leaveExecutor_kept Coordinator.leave_shutdown s exec worker panics other

/-- What holds of new runtimes and is kept by their own steps holds of all runtimes of a run. -/
theorem runtimes_invariant {prop : Runtime → Prop} {acts : List ProcessAction} {last : Process}
    (run : Run (Steps next) new acts last)
    (built : ∀ execs capacity, prop (.build execs (.own ⟨[], capacity, true⟩)))
    (supplied : ∀ execs, prop (.build execs .supplied))
    (shared : ∀ rt, prop rt → prop { rt with notifier := .supplied })
    (stepped : ∀ r before rt step after now, prop rt →
      Runtime.Effect r before rt step after now → prop now) :
    ∀ r rt, last.runtimes r = some rt → prop rt := by
  -- By induction on the run, since every runtime was built in it.
  induction run with
  | nil =>
    intro r rt there
    simp [new] at there
  | @snoc acts s t act _ step before =>
    intro r rt there
    -- A step changes one runtime, and perhaps the channel of another one.
    cases step_effect step with
    | built =>
      rcases addRuntime_cases there with ⟨-, rfl⟩ | old
      · exact built _ _
      · exact before r rt old
    | builtSupplied =>
      rcases addRuntime_cases there with ⟨-, rfl⟩ | old
      · exact supplied _
      · obtain ⟨earlier, found, rfl | rfl⟩ := share_cases old
        · exact before r _ found
        · exact shared _ (before r earlier found)
    | @stepped other step earlier now after found effect =>
      rw [setRuntime_apply] at there
      split at there
      · obtain rfl := Option.some.inj there
        exact stepped other s.shared earlier _ after now (before other earlier found) effect
      · exact before r rt there
    | executorExited => exact before r rt there
    | executorCrashed => exact before r rt there

end Process

end Imputio
