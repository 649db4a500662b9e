import Imputio.Executor.Executor
import Imputio.Lib.Transition

/-! A coordinator with its executors: calls from any thread, executor loops, shutdown and drop. -/

namespace Imputio

open Transition

/-- The methods of a coordinator that send a transaction to one of its executors. -/
inductive CoordinatorCall where
  | spawn (priority : Priority)
  | poll
  | submitIoOp (op : Operation)
  deriving DecidableEq, Repr

/-- A call on a coordinator, which reads and writes the index in separate steps. -/
inductive CallProgress where
  | unused
  | loaded (call : CoordinatorCall) (index : Nat)
  | stored (call : CoordinatorCall) (index : Nat)
  | waiting
  -- There is no reply when its only sender was dropped.
  | answered (reply : Option (ExecResult Unit))
  | returned (result : ExecResult Unit)
  | panicked
  deriving DecidableEq, Repr

/-- The call still borrows the coordinator. -/
def CallProgress.active : CallProgress → Bool
  | .loaded _ _ => true
  | .stored _ _ => true
  | .waiting => true
  | .answered _ => true
  | _ => false

/-- The largest `usize`. -/
def usizeMax : Nat := 2 ^ 64 - 1

/-- The next executor in turn; there is no result when the arithmetic panics. -/
def nextIndex (index len : Nat) : Option Nat :=
  -- Adding overflows at the largest index, and the remainder of zero handles is undefined.
  if index < usizeMax ∧ 0 < len then some ((index + 1) % len) else none

/-- A coordinator, its executors, and every task that was spawned on it. -/
structure Pool (n : Nat) (V : Type*) where
  executors : Fin n → Executor
  index : Nat
  shutdown : Bool
  -- The coordinator, and with it every sender of the channels, still exists.
  held : Bool
  calls : CallId → CallProgress
  nextCall : CallId
  cells : TaskId → TaskCell V
  nextTask : TaskId
  -- History: the tasks that were polled to their end, and those that were dropped before.
  finished : List ImputioTask
  discarded : List ImputioTask
  -- Among the dropped ones: those whose poll panicked, and those whose message was refused.
  crashed : List ImputioTask
  failed : List ImputioTask

/-- One atomic step of a caller, of an executor or of a poller thread. -/
inductive PoolAction (n : Nat) (V : Type*) where
  | call (call : CoordinatorCall)
  | store (call : CallId)
  | send (call : CallId)
  | receive (call : CallId)
  -- The executor takes a message; the coin and the outcome matter if it polls a task.
  | recv (worker : Fin n) (coin : Bool) (outcome : FutureStep V)
  | check (worker : Fin n)
  | shutdown
  | dropCoordinator
  | pollerRecv (worker : Fin n)
  | pollerExit (worker : Fin n)

namespace Pool

variable {n : Nat} {V : Type*}

/-- A coordinator whose executors all look the same and which nobody has used yet. -/
def withExecutors (exec : Executor) : Pool n V where
  executors := fun _ => exec
  index := 0
  shutdown := false
  held := true
  calls := fun _ => .unused
  nextCall := 0
  cells := fun _ => .new
  nextTask := 0
  finished := []
  discarded := []
  crashed := []
  failed := []

/-- `ExecHandleCoordinator::new`: the placeholder, with one handle and no executor behind it. -/
def new : Pool 1 V := withExecutors .absent

/-- `ExecHandleCoordinator::initialize`: one started executor for each thread configuration. -/
def initialized (features : Features) : Pool n V := withExecutors (.initialized features)

/-- A coordinator as it is when it is made: a started one or, with one handle, a placeholder. -/
def Fresh (features : Features) (s : Pool n V) : Prop :=
  s = initialized features ∨ s = withExecutors .absent

/-- Replace one executor. -/
def setExecutor (s : Pool n V) (worker : Fin n) (exec : Executor) : Pool n V :=
  { s with executors := Function.update s.executors worker exec }

/-- Only the one executor changes. -/
theorem setExecutor_apply (s : Pool n V) (worker : Fin n) (exec : Executor) (other : Fin n) :
    (s.setExecutor worker exec).executors other =
      if other = worker then exec else s.executors other :=
  Function.update_apply ..

@[simp] theorem setExecutor_finished (s : Pool n V) (worker : Fin n) (exec : Executor) :
    (s.setExecutor worker exec).finished = s.finished := rfl

@[simp] theorem setExecutor_discarded (s : Pool n V) (worker : Fin n) (exec : Executor) :
    (s.setExecutor worker exec).discarded = s.discarded := rfl

/-- Change the state of one call. -/
def setCall (s : Pool n V) (call : CallId) (state : CallProgress) : Pool n V :=
  { s with calls := Function.update s.calls call state }

/-- `ExecHandle::spawn` makes a task, whose pointer is new. -/
def create (s : Pool n V) (call : CallId) : Pool n V :=
  { s.setCall call (.returned (.ok ())) with
    cells := Function.update s.cells s.nextTask .new
    nextTask := s.nextTask + 1 }

/-- The message with a task is in the channel of an executor. -/
def accept (s : Pool n V) (worker : Fin n) (task : ImputioTask) (rx : Channel Transaction) :
    Pool n V :=
  s.setExecutor worker
    { s.executors worker with rx := rx, received := (s.executors worker).received ++ [task] }

/-- The message with a task is handed back and dropped. -/
def refuse (s : Pool n V) (task : ImputioTask) : Pool n V :=
  { s with
    cells := dropTasks s.cells [task]
    discarded := s.discarded ++ [task]
    failed := s.failed ++ [task] }

/-- The last part of a call: make the transaction and send it to the chosen executor. -/
def sendTo (s : Pool n V) (call : CallId) (request : CoordinatorCall) (worker : Fin n) :
    Option (Pool n V) :=
  let rx := (s.executors worker).rx
  match request with
  | .spawn priority =>
    let task : ImputioTask := ⟨s.nextTask, priority⟩
    match rx.send (.spawn task) with
    | .sent rx => some ((s.create call).accept worker task rx)
    | .full => none
    | .disconnected => some ((s.create call).refuse task)
  | .poll =>
    match rx.send .poll with
    | .sent rx =>
      some ((s.setExecutor worker { s.executors worker with rx := rx }).setCall call
        (.returned (.ok ())))
    | .full => none
    | .disconnected => some (s.setCall call (.returned (.ok ())))
  | .submitIoOp op =>
    match rx.send (.submitIoOp op call) with
    | .sent rx =>
      some ((s.setExecutor worker { s.executors worker with rx := rx }).setCall call .waiting)
    | .full => none
    -- The refused message is dropped together with its reply sender.
    | .disconnected => some (s.setCall call (.answered none))

/-- An executor replies, unless nobody waits any more. -/
def answer (s : Pool n V) (call : CallId) (result : ExecResult Unit) : Pool n V :=
  match s.calls call with
  | .waiting => s.setCall call (.answered (some result))
  | _ => s

/-- A caller that waits is answered. -/
theorem answer_waiting {s : Pool n V} {call : CallId} {result : ExecResult Unit}
    (waits : s.calls call = .waiting) :
    s.answer call result = s.setCall call (.answered (some result)) := by
  rw [answer, waits]

/-- Nothing happens if nobody waits. -/
theorem answer_silent {s : Pool n V} {call : CallId} {result : ExecResult Unit}
    (gone : s.calls call ≠ .waiting) : s.answer call result = s := by
  -- The answer looks at the caller first.
  unfold answer
  split
  · contradiction
  · rfl

/-- Drop every message of the channels that have neither a receiver nor a sender. -/
def dropChannels (s : Pool n V) (gone : Fin n → Bool) : Pool n V :=
  let lost := ((List.finRange n).filter gone).flatMap fun worker => (s.executors worker).inChannel
  { s with
    executors := fun worker =>
      let exec := s.executors worker
      if gone worker then { exec with rx := { exec.rx with queue := [] } } else exec
    cells := dropTasks s.cells lost
    discarded := s.discarded ++ lost }

/-- Dropping channels leaves the executors as they are, but for the messages. -/
theorem dropChannels_executors (s : Pool n V) (gone : Fin n → Bool) (worker : Fin n) :
    ((s.dropChannels gone).executors worker).received = (s.executors worker).received ∧
      ((s.dropChannels gone).executors worker).state = (s.executors worker).state ∧
      ((s.dropChannels gone).executors worker).tasks = (s.executors worker).tasks ∧
      ((s.dropChannels gone).executors worker).rx.connected =
        (s.executors worker).rx.connected := by
  -- Only the queue of a channel is emptied.
  by_cases here : gone worker <;> simp [dropChannels, here]

/-- An executor leaves its loop, and its channel goes as well if the senders are gone. -/
def leave (s : Pool n V) (worker : Fin n) : Pool n V :=
  let exec := s.executors worker
  let s :=
    { s.setExecutor worker exec.leave with
      cells := dropTasks s.cells exec.queued
      discarded := s.discarded ++ exec.queued }
  -- With the receiver goes the last end, unless a sender is left.
  s.dropChannels fun other => other == worker && !s.held

/-- The executor that leaves its loop exits and disconnects; nothing is taken off the history. -/
theorem leave_executors (s : Pool n V) (worker other : Fin n) :
    ((s.leave worker).executors other).received = (s.executors other).received ∧
      (((s.leave worker).executors other).state = .exited ↔
        other = worker ∨ (s.executors other).state = .exited) ∧
      (((s.leave worker).executors other).rx.connected = true ↔
        other ≠ worker ∧ (s.executors other).rx.connected = true) := by
  -- The loop is left first, and then the channel may go.
  unfold leave
  obtain ⟨received, state, -, connected⟩ := dropChannels_executors
    { s.setExecutor worker (s.executors worker).leave with
      cells := dropTasks s.cells (s.executors worker).queued
      discarded := s.discarded ++ (s.executors worker).queued }
    (fun other => other == worker && !s.held) other
  by_cases here : other = worker
  · subst here
    simp_all [setExecutor, Executor.leave, Channel.disconnect]
  · simp_all [setExecutor]

/-- Leaving a loop resolves no handle. -/
@[simp] theorem leave_resolved (s : Pool n V) (worker : Fin n) (id : TaskId) :
    ((s.leave worker).cells id).Resolved ↔ (s.cells id).Resolved := by
  -- Dropped tasks keep their futures, and so their senders.
  simp [leave, dropChannels]

/-- An executor has polled a task: what became of the task. -/
def polled (s : Pool n V) (worker : Fin n) (exec : Executor) (task : ImputioTask)
    (outcome : FutureStep V) : Pool n V :=
  let cells :=
    Function.update s.cells task.innerTask ((s.cells task.innerTask).pollTask outcome)
  let s := s.setExecutor worker exec
  match outcome with
  | .ready _ =>
    { s with cells := dropTasks cells [task], finished := s.finished ++ [task] }
  | .pending => { s with cells := cells }
  | .panicked =>
    -- The local task and the executor are dropped while the thread unwinds.
    { s with
      cells := dropTasks cells [task]
      discarded := s.discarded ++ [task]
      crashed := s.crashed ++ [task] }.leave worker

/-- The first half of a turn of the executor's loop: take a message and process it. -/
def recv (features : Features) (s : Pool n V) (worker : Fin n) (coin : Bool)
    (outcome : FutureStep V) : Option (Pool n V) :=
  let exec := s.executors worker
  if exec.state = .receiving then
    match exec.rx.tryRecv with
    -- The thread parks or goes on at once.
    | none => some (s.setExecutor worker { exec with state := .checking })
    | some (message, rx) =>
      let exec := { exec with rx := rx, state := .checking }
      match message with
      | .spawn task => some (s.setExecutor worker (exec.spawn task))
      | .poll =>
        match exec.poll features coin outcome with
        | (exec, none) => some (s.setExecutor worker exec)
        | (exec, some task) => some (s.polled worker exec task outcome)
      | .submitIoOp op reply =>
        let (result, exec) := exec.pushToPoller op
        some ((s.setExecutor worker exec).answer reply result)
  else none

/-- What each action does, where it is possible. -/
def next (features : Features) (s : Pool n V) : PoolAction n V → Option (Pool n V)
  | .call call =>
    if s.held then
      let state := match nextIndex s.index n with
        | some index => .loaded call index
        | none => .panicked
      some { s.setCall s.nextCall state with nextCall := s.nextCall + 1 }
    else none
  | .store call =>
    match s.calls call with
    | .loaded request index => some { s.setCall call (.stored request index) with index := index }
    | _ => none
  | .send call =>
    match s.calls call with
    | .stored request index =>
      if inRange : index < n then s.sendTo call request ⟨index, inRange⟩
      else some (s.setCall call .panicked)
    | _ => none
  | .receive call =>
    match s.calls call with
    | .answered reply => some (s.setCall call (.returned (reply.getD (.error .actorRcv))))
    | _ => none
  | .recv worker coin outcome => s.recv features worker coin outcome
  | .check worker =>
    let exec := s.executors worker
    if exec.state = .checking then
      if s.shutdown then some (s.leave worker)
      else some (s.setExecutor worker { exec with state := .receiving })
    else none
  | .shutdown => if s.held then some { s with shutdown := true } else none
  | .dropCoordinator =>
    -- Every call in progress borrows the coordinator.
    if s.held ∧ ∀ call < s.nextCall, (s.calls call).active = false then
      some ({ s with held := false }.dropChannels fun worker =>
        (s.executors worker).state == LoopState.exited)
    else none
  | .pollerRecv worker =>
    let exec := s.executors worker
    exec.pollHandle.tryRecv.map fun (_, pollHandle) =>
      s.setExecutor worker { exec with pollHandle := pollHandle }
  | .pollerExit worker =>
    let exec := s.executors worker
    some (s.setExecutor worker { exec with pollHandle := exec.pollHandle.disconnect })

/-- The task that a step polls. -/
def polledTask (features : Features) (s : Pool n V) : PoolAction n V → Option ImputioTask
  | .recv worker coin _ =>
    if (s.executors worker).state = .receiving ∧
        (s.executors worker).rx.queue.head? = some .poll then
      (s.executors worker).nextTask features coin
    else none
  | _ => none

/-- An executor leaves its loop in a step: it sees the flag, or the poll of a task panics. -/
def Leaves (features : Features) (s : Pool n V) (act : PoolAction n V) (worker : Fin n) : Prop :=
  match act with
  | .check leaving => leaving = worker ∧ s.shutdown = true
  | .recv leaving _ outcome =>
    leaving = worker ∧ outcome = .panicked ∧ (s.polledTask features act).isSome
  | _ => False

/-- The state of a call that has just read the index. -/
def asked (s : Pool n V) (request : CoordinatorCall) : CallProgress :=
  match nextIndex s.index n with
  | some index => .loaded request index
  | none => .panicked

/-- What each action comes to, and the tests that it has passed. -/
inductive Next (features : Features) (s : Pool n V) : PoolAction n V → Pool n V → Prop
  | called {request : CoordinatorCall} (held : s.held = true) :
      Next features s (.call request)
        { s.setCall s.nextCall (s.asked request) with nextCall := s.nextCall + 1 }
  | stored {call : CallId} {request : CoordinatorCall} {index : Nat}
      (loaded : s.calls call = .loaded request index) :
      Next features s (.store call)
        { s.setCall call (.stored request index) with index := index }
  | spawned {call : CallId} {priority : Priority} {index : Nat}
      (asked : s.calls call = .stored (.spawn priority) index) (inRange : index < n)
      (connected : (s.executors ⟨index, inRange⟩).rx.connected = true) :
      Next features s (.send call) ((s.create call).accept ⟨index, inRange⟩ ⟨s.nextTask, priority⟩
        { (s.executors ⟨index, inRange⟩).rx with
          queue := (s.executors ⟨index, inRange⟩).rx.queue ++ [.spawn ⟨s.nextTask, priority⟩] })
  | refused {call : CallId} {priority : Priority} {index : Nat}
      (asked : s.calls call = .stored (.spawn priority) index) (inRange : index < n)
      (gone : (s.executors ⟨index, inRange⟩).rx.connected = false) :
      Next features s (.send call) ((s.create call).refuse ⟨s.nextTask, priority⟩)
  | pollSent {call : CallId} {index : Nat} (asked : s.calls call = .stored .poll index)
      (inRange : index < n) (connected : (s.executors ⟨index, inRange⟩).rx.connected = true) :
      Next features s (.send call)
        ((s.setExecutor ⟨index, inRange⟩ ((s.executors ⟨index, inRange⟩).push .poll)).setCall call
          (.returned (.ok ())))
  | pollRefused {call : CallId} {index : Nat} (asked : s.calls call = .stored .poll index)
      (inRange : index < n) (gone : (s.executors ⟨index, inRange⟩).rx.connected = false) :
      Next features s (.send call) (s.setCall call (.returned (.ok ())))
  | opSent {call : CallId} {op : Operation} {index : Nat}
      (asked : s.calls call = .stored (.submitIoOp op) index) (inRange : index < n)
      (connected : (s.executors ⟨index, inRange⟩).rx.connected = true) :
      Next features s (.send call)
        ((s.setExecutor ⟨index, inRange⟩
          ((s.executors ⟨index, inRange⟩).push (.submitIoOp op call))).setCall call .waiting)
  | opRefused {call : CallId} {op : Operation} {index : Nat}
      (asked : s.calls call = .stored (.submitIoOp op) index) (inRange : index < n)
      (gone : (s.executors ⟨index, inRange⟩).rx.connected = false) :
      Next features s (.send call) (s.setCall call (.answered none))
  -- The index is in range by the way it is computed, and the model need not rely on it.
  | outOfRange {call : CallId} {request : CoordinatorCall} {index : Nat}
      (asked : s.calls call = .stored request index) (outside : ¬ index < n) :
      Next features s (.send call) (s.setCall call .panicked)
  | received {call : CallId} {reply : Option (ExecResult Unit)}
      (answered : s.calls call = .answered reply) :
      Next features s (.receive call) (s.setCall call (.returned (reply.getD (.error .actorRcv))))
  | idled {worker : Fin n} {coin : Bool} {outcome : FutureStep V}
      (receiving : (s.executors worker).state = .receiving)
      (empty : (s.executors worker).rx.queue = []) :
      Next features s (.recv worker coin outcome)
        (s.setExecutor worker { s.executors worker with state := .checking })
  | enqueued {worker : Fin n} {coin : Bool} {outcome : FutureStep V} {task : ImputioTask}
      {rest : List Transaction} (receiving : (s.executors worker).state = .receiving)
      (front : (s.executors worker).rx.queue = .spawn task :: rest) :
      Next features s (.recv worker coin outcome)
        (s.setExecutor worker (((s.executors worker).take rest).spawn task))
  | unpolled {worker : Fin n} {coin : Bool} {outcome : FutureStep V} {rest : List Transaction}
      (receiving : (s.executors worker).state = .receiving)
      (front : (s.executors worker).rx.queue = .poll :: rest)
      (nothing : (s.executors worker).nextTask features coin = none) :
      Next features s (.recv worker coin outcome)
        (s.setExecutor worker { (s.executors worker).take rest with
          pollHandle := (s.executors worker).askIo features })
  | polled {worker : Fin n} {coin : Bool} {outcome : FutureStep V} {task : ImputioTask}
      {level : Fin 5} {later : List ImputioTask} {rest : List Transaction} {exec : Executor}
      (receiving : (s.executors worker).state = .receiving)
      (front : (s.executors worker).rx.queue = .poll :: rest)
      (picked : (s.executors worker).nextTask features coin = some task)
      (popped : (s.executors worker).tasks level = task :: later)
      (ended : outcome ≠ .pending ∧ exec = { (s.executors worker).take rest with
          pollHandle := (s.executors worker).askIo features
          tasks := Function.update (s.executors worker).tasks level later } ∨
        outcome = .pending ∧ exec = ({ (s.executors worker).take rest with
          pollHandle := (s.executors worker).askIo features
          tasks := Function.update (s.executors worker).tasks level later } : Executor).spawn
            task) :
      Next features s (.recv worker coin outcome) (s.polled worker exec task outcome)
  | served {worker : Fin n} {coin : Bool} {outcome : FutureStep V} {call : CallId}
      {op : Operation} {rest : List Transaction}
      (receiving : (s.executors worker).state = .receiving)
      (front : (s.executors worker).rx.queue = .submitIoOp op call :: rest) :
      Next features s (.recv worker coin outcome)
        ((s.setExecutor worker (((s.executors worker).take rest).pushToPoller op).2).answer call
          (((s.executors worker).take rest).pushToPoller op).1)
  -- The flag is read once in every turn.
  | left {worker : Fin n} (checking : (s.executors worker).state = .checking)
      (flag : s.shutdown = true) : Next features s (.check worker) (s.leave worker)
  | stayed {worker : Fin n} (checking : (s.executors worker).state = .checking)
      (unset : s.shutdown = false) :
      Next features s (.check worker)
        (s.setExecutor worker { s.executors worker with state := .receiving })
  | flagged (held : s.held = true) : Next features s .shutdown { s with shutdown := true }
  | released (held : s.held = true) (calm : ∀ call < s.nextCall, (s.calls call).active = false) :
      Next features s .dropCoordinator ({ s with held := false }.dropChannels fun worker =>
        (s.executors worker).state == LoopState.exited)
  | pollerTook {worker : Fin n} {message : IoOp} {rest : List IoOp}
      (front : (s.executors worker).pollHandle.queue = message :: rest) :
      Next features s (.pollerRecv worker) (s.setExecutor worker
        { s.executors worker with
          pollHandle := { (s.executors worker).pollHandle with queue := rest } })
  | pollerLeft {worker : Fin n} :
      Next features s (.pollerExit worker) (s.setExecutor worker
        { s.executors worker with pollHandle := (s.executors worker).pollHandle.disconnect })

/-- Sending a transaction comes to what its channel decides. -/
theorem sendTo_next {features : Features} {s t : Pool n V} {call : CallId}
    {request : CoordinatorCall} {index : Nat} (inRange : index < n)
    (asked : s.calls call = .stored request index)
    (taken : s.sendTo call request ⟨index, inRange⟩ = some t) :
    s.Next features (.send call) t := by
  -- The channel of an executor has room for any number of messages, or is never waited for.
  unfold sendTo at taken
  cases request with
  | spawn priority =>
    simp only at taken
    split at taken
    · rename_i rx done
      obtain rfl := Option.some.inj taken
      obtain ⟨connected, -, rfl⟩ := Channel.send_eq_sent_iff.mp done
      exact .spawned asked inRange connected
    · simp at taken
    · rename_i refused
      obtain rfl := Option.some.inj taken
      exact .refused asked inRange (Channel.send_eq_disconnected_iff.mp refused)
  | poll =>
    simp only at taken
    split at taken
    · rename_i rx done
      obtain rfl := Option.some.inj taken
      obtain ⟨connected, -, rfl⟩ := Channel.send_eq_sent_iff.mp done
      exact .pollSent asked inRange connected
    · simp at taken
    · rename_i refused
      obtain rfl := Option.some.inj taken
      exact .pollRefused asked inRange (Channel.send_eq_disconnected_iff.mp refused)
  | submitIoOp op =>
    simp only at taken
    split at taken
    · rename_i rx done
      obtain rfl := Option.some.inj taken
      obtain ⟨connected, -, rfl⟩ := Channel.send_eq_sent_iff.mp done
      exact .opSent asked inRange connected
    · simp at taken
    · rename_i refused
      obtain rfl := Option.some.inj taken
      exact .opRefused asked inRange (Channel.send_eq_disconnected_iff.mp refused)

/-- A turn of the loop comes to what the oldest message asks for. -/
theorem recv_next {features : Features} {s t : Pool n V} {worker : Fin n} {coin : Bool}
    {outcome : FutureStep V} (taken : s.recv features worker coin outcome = some t) :
    s.Next features (.recv worker coin outcome) t := by
  -- The oldest message is taken, and each kind of message has its own outcome.
  unfold recv at taken
  simp only at taken
  obtain ⟨receiving, taken⟩ := Option.ite_none_right_eq_some.mp taken
  split at taken
  · rename_i nothing
    obtain rfl := Option.some.inj taken
    exact .idled receiving (Channel.tryRecv_eq_none_iff.mp nothing)
  · rename_i message rx found
    obtain ⟨front, rest⟩ := Channel.tryRecv_eq_some_iff.mp found
    rw [rest] at taken
    cases message with
    | spawn task =>
      obtain rfl := Option.some.inj taken
      exact .enqueued receiving front
    | submitIoOp op reply =>
      obtain rfl := Option.some.inj taken
      exact .served receiving front
    | poll =>
      -- Whether a task is polled, and which, is decided by the queues alone.
      rcases Executor.poll_cases features coin outcome ((s.executors worker).take rx.queue) with
        ⟨nothing, unpolled⟩ |
        ⟨level, task, later, picked, popped, ⟨ready, polled⟩ | ⟨ready, polled⟩⟩
      · rw [Executor.take] at unpolled
        simp only [unpolled] at taken
        obtain rfl := Option.some.inj taken
        exact .unpolled receiving front nothing
      · rw [Executor.take] at polled
        simp only [polled] at taken
        obtain rfl := Option.some.inj taken
        exact .polled receiving front picked popped (.inl ⟨ready, rfl⟩)
      · rw [Executor.take] at polled
        simp only [polled] at taken
        obtain rfl := Option.some.inj taken
        exact .polled receiving front picked popped (.inr ⟨ready, rfl⟩)

/-- Every step is one of these; nothing else is known of a step, and nothing else is needed. -/
theorem step_next {features : Features} {s t : Pool n V} {act : PoolAction n V}
    (step : Steps (next features) s act t) : s.Next features act t := by
  -- One case per action; sending and receiving have their own lemmas.
  cases act with
  | call call =>
    obtain ⟨held, rfl⟩ := enabled_iff.mp step
    exact .called held
  | store call =>
    simp only [Steps, next] at step
    split at step
    · rename_i request index loaded
      obtain rfl := Option.some.inj step
      exact .stored loaded
    · simp at step
  | send call =>
    simp only [Steps, next] at step
    split at step
    · rename_i request index asked
      split at step
      · rename_i inRange
        exact sendTo_next inRange asked step
      · rename_i outside
        obtain rfl := Option.some.inj step
        exact .outOfRange asked outside
    · simp at step
  | receive call =>
    simp only [Steps, next] at step
    split at step
    · rename_i reply answered
      obtain rfl := Option.some.inj step
      exact .received answered
    · simp at step
  | recv worker coin outcome => exact recv_next step
  | check worker =>
    obtain ⟨checking, taken⟩ := Option.ite_none_right_eq_some.mp step
    split at taken
    · rename_i flag
      obtain rfl := Option.some.inj taken
      exact .left checking flag
    · rename_i unset
      obtain rfl := Option.some.inj taken
      exact .stayed checking (by simpa using unset)
  | shutdown =>
    obtain ⟨held, rfl⟩ := enabled_iff.mp step
    exact .flagged held
  | dropCoordinator =>
    obtain ⟨⟨held, calm⟩, rfl⟩ := enabled_iff.mp step
    exact .released held calm
  | pollerRecv worker =>
    obtain ⟨⟨message, pollHandle⟩, took, rfl⟩ := Option.map_eq_some_iff.mp step
    obtain ⟨front, rest⟩ := Channel.tryRecv_eq_some_iff.mp took
    rw [rest]
    exact .pollerTook front
  | pollerExit worker =>
    obtain rfl := Option.some.inj step
    exact .pollerLeft

/-- No task changes its place in a step, and no executor or channel goes away. -/
structure SameTasks (s t : Pool n V) : Prop where
  inChannel : ∀ worker, (t.executors worker).inChannel = (s.executors worker).inChannel
  tasks : ∀ worker, (t.executors worker).tasks = (s.executors worker).tasks
  received : ∀ worker, (t.executors worker).received = (s.executors worker).received
  exited : ∀ worker, (t.executors worker).state = .exited ↔ (s.executors worker).state = .exited
  connected : ∀ worker, (t.executors worker).rx.connected = (s.executors worker).rx.connected
  held : t.held = s.held
  cells : t.cells = s.cells
  nextTask : t.nextTask = s.nextTask
  finished : t.finished = s.finished
  discarded : t.discarded = s.discarded
  crashed : t.crashed = s.crashed
  failed : t.failed = s.failed

/-- What each kind of step does to the tasks. -/
inductive Effect (features : Features) (s : Pool n V) : PoolAction n V → Pool n V → Prop
  | quiet {act : PoolAction n V} {t : Pool n V} (same : SameTasks s t)
      (noSpawn : ∀ call priority index, index < n → act = .send call →
        s.calls call ≠ .stored (.spawn priority) index)
      (stays : ∀ worker, ¬ s.Leaves features act worker) (held : act ≠ .dropCoordinator)
      (unpolled : s.polledTask features act = none) : Effect features s act t
  | spawned {call : CallId} {priority : Priority} {index : Nat}
      (asked : s.calls call = .stored (.spawn priority) index) (inRange : index < n)
      (connected : (s.executors ⟨index, inRange⟩).rx.connected = true) :
      Effect features s (.send call) ((s.create call).accept ⟨index, inRange⟩
        ⟨s.nextTask, priority⟩
        { (s.executors ⟨index, inRange⟩).rx with
          queue := (s.executors ⟨index, inRange⟩).rx.queue ++ [.spawn ⟨s.nextTask, priority⟩] })
  | refused {call : CallId} {priority : Priority} {index : Nat}
      (asked : s.calls call = .stored (.spawn priority) index) (inRange : index < n)
      (gone : (s.executors ⟨index, inRange⟩).rx.connected = false) :
      Effect features s (.send call) ((s.create call).refuse ⟨s.nextTask, priority⟩)
  | enqueued {worker : Fin n} {coin : Bool} {outcome : FutureStep V} {task : ImputioTask}
      {rest : List Transaction} (receiving : (s.executors worker).state = .receiving)
      (front : (s.executors worker).rx.queue = .spawn task :: rest) :
      Effect features s (.recv worker coin outcome) (s.setExecutor worker
        (({ s.executors worker with
          rx := { (s.executors worker).rx with queue := rest }
          state := .checking } : Executor).spawn task))
  | polled {worker : Fin n} {coin : Bool} {outcome : FutureStep V} {task : ImputioTask}
      {level : Fin 5} {later : List ImputioTask} {rest : List Transaction} {exec : Executor}
      (receiving : (s.executors worker).state = .receiving)
      (front : (s.executors worker).rx.queue = .poll :: rest)
      (picked : s.polledTask features (.recv worker coin outcome) = some task)
      (popped : (s.executors worker).tasks level = task :: later)
      (channel : exec.rx = { (s.executors worker).rx with queue := rest })
      (received : exec.received = (s.executors worker).received) (running : exec.state = .checking)
      (tasks : outcome ≠ .pending ∧
          exec.tasks = Function.update (s.executors worker).tasks level later ∨
        outcome = .pending ∧ exec.tasks =
          Function.update (Function.update (s.executors worker).tasks level later)
            task.priority.index
            (Function.update (s.executors worker).tasks level later task.priority.index ++
              [task])) :
      Effect features s (.recv worker coin outcome) (s.polled worker exec task outcome)
  | left {worker : Fin n} (checking : (s.executors worker).state = .checking)
      (flag : s.shutdown = true) : Effect features s (.check worker) (s.leave worker)
  | released (held : s.held = true) :
      Effect features s .dropCoordinator ({ s with held := false }.dropChannels fun worker =>
        (s.executors worker).state == LoopState.exited)

/-- Changes of calls, of the index and of the flag concern no task. -/
theorem SameTasks.of_rest {s : Pool n V} {calls : CallId → CallProgress} {nextCall : CallId}
    {index : Nat} {shutdown : Bool} :
    SameTasks s
      { s with calls := calls, nextCall := nextCall, index := index, shutdown := shutdown } where
  inChannel := fun _ => rfl
  tasks := fun _ => rfl
  received := fun _ => rfl
  exited := fun _ => Iff.rfl
  connected := fun _ => rfl
  held := rfl
  cells := rfl
  nextTask := rfl
  finished := rfl
  discarded := rfl
  crashed := rfl
  failed := rfl

/-- An executor whose tasks stay where they are can be replaced. -/
theorem SameTasks.of_setExecutor {s : Pool n V} {worker : Fin n} {exec : Executor}
    (inChannel : exec.inChannel = (s.executors worker).inChannel)
    (tasks : exec.tasks = (s.executors worker).tasks)
    (received : exec.received = (s.executors worker).received)
    (exited : exec.state = .exited ↔ (s.executors worker).state = .exited)
    (connected : exec.rx.connected = (s.executors worker).rx.connected) :
    SameTasks s (s.setExecutor worker exec) := by
  -- The other executors are the same.
  refine ⟨fun other => ?_, fun other => ?_, fun other => ?_, fun other => ?_, fun other => ?_, rfl,
    rfl, rfl, rfl, rfl, rfl, rfl⟩
  all_goals
    rw [setExecutor_apply]
    split
    · rename_i same
      subst same
      assumption
    · rfl

/-- Changing the state of a call as well concerns no task. -/
theorem SameTasks.setCall {s t : Pool n V} {call : CallId} {state : CallProgress}
    (same : SameTasks s t) : SameTasks s (t.setCall call state) :=
  ⟨same.inChannel, same.tasks, same.received, same.exited, same.connected, same.held, same.cells,
    same.nextTask, same.finished, same.discarded, same.crashed, same.failed⟩

/-- Neither does a reply. -/
theorem SameTasks.answer {s t : Pool n V} {call : CallId} {result : ExecResult Unit}
    (same : SameTasks s t) : SameTasks s (t.answer call result) := by
  -- The reply may find nobody.
  unfold Pool.answer
  split
  · exact same.setCall
  · exact same

/-- A message without a task moves none. -/
theorem SameTasks.of_push {s : Pool n V} {worker : Fin n} {message : Transaction}
    (plain : message.task = none) :
    SameTasks s (s.setExecutor worker ((s.executors worker).push message)) :=
  .of_setExecutor (Executor.push_inChannel plain) rfl rfl Iff.rfl rfl

/-- Every step has one of the listed effects. -/
theorem step_effect {features : Features} {s t : Pool n V} {act : PoolAction n V}
    (step : Steps (next features) s act t) : s.Effect features act t := by
  -- A step that only concerns calls, the index or the poller threads is quiet.
  have quiet : SameTasks s t → (∀ call, act ≠ .send call) →
      (∀ worker, ¬ s.Leaves features act worker) → act ≠ .dropCoordinator →
      s.polledTask features act = none → s.Effect features act t :=
    fun same other stays held unpolled =>
      .quiet same (fun call _ _ _ sending => absurd sending (other call)) stays held unpolled
  -- So is a call that sends no task.
  have sent : ∀ {call request index}, act = .send call → s.calls call = .stored request index →
      (∀ priority, index < n → request ≠ .spawn priority) → SameTasks s t →
      s.Effect features act t := by
    rintro call request index rfl asked plain same
    refine .quiet same (fun _ priority index' inRange sending again => ?_) (fun _ => not_false)
      (by simp) rfl
    obtain rfl := PoolAction.send.inj sending
    obtain ⟨rfl, rfl⟩ := CallProgress.stored.inj (asked.symm.trans again)
    exact plain priority inRange rfl
  -- And so is a turn of the loop in which no task is polled.
  have turned : ∀ {worker coin outcome}, act = .recv worker coin outcome → SameTasks s t →
      s.polledTask features act = none → s.Effect features act t := by
    rintro worker coin outcome rfl same unpolled
    refine quiet same (by simp) (fun other leaves => ?_) (by simp) unpolled
    obtain ⟨-, -, picks⟩ := leaves
    simp [unpolled] at picks
  cases step_next step with
  | called => exact quiet .of_rest (by simp) (fun _ => not_false) (by simp) rfl
  | stored => exact quiet .of_rest (by simp) (fun _ => not_false) (by simp) rfl
  | spawned asked inRange connected => exact .spawned asked inRange connected
  | refused asked inRange gone => exact .refused asked inRange gone
  | pollSent asked => exact sent rfl asked (by simp) (SameTasks.of_push rfl).setCall
  | pollRefused asked => exact sent rfl asked (by simp) .of_rest
  | opSent asked => exact sent rfl asked (by simp) (SameTasks.of_push rfl).setCall
  | opRefused asked => exact sent rfl asked (by simp) .of_rest
  | outOfRange asked outside =>
    exact sent rfl asked (fun _ inRange => absurd inRange outside) .of_rest
  | received => exact quiet .of_rest (by simp) (fun _ => not_false) (by simp) rfl
  | idled receiving empty =>
    exact turned rfl (.of_setExecutor rfl rfl rfl (by simp [receiving]) rfl)
      (by simp [polledTask, empty])
  | enqueued receiving front => exact .enqueued receiving front
  | unpolled receiving front nothing =>
    refine turned rfl (.of_setExecutor (Executor.take_inChannel front rfl) rfl rfl ?_ rfl) ?_
    · simp [Executor.take, receiving]
    · simp [polledTask, receiving, front, nothing]
  | @polled worker coin outcome task level later rest exec receiving front picked popped ended =>
    have polls : s.polledTask features (.recv worker coin outcome) = some task := by
      simp [polledTask, receiving, front, picked]
    rcases ended with ⟨ready, rfl⟩ | ⟨pending, rfl⟩
    · exact .polled receiving front polls popped rfl rfl rfl (.inl ⟨ready, rfl⟩)
    · exact .polled receiving front polls popped rfl rfl rfl (.inr ⟨pending, rfl⟩)
  | served receiving front =>
    refine turned rfl (SameTasks.answer (.of_setExecutor (Executor.take_inChannel front rfl) rfl
      rfl ?_ rfl)) ?_
    · simp [Executor.pushToPoller, Executor.take, receiving]
    · simp [polledTask, front]
  | left checking flag => exact .left checking flag
  | stayed checking unset =>
    exact quiet (.of_setExecutor rfl rfl rfl (by simp [checking]) rfl) (by simp)
      (fun other leaves => absurd leaves.2 (by simp [unset])) (by simp) rfl
  | flagged => exact quiet .of_rest (by simp) (fun _ => not_false) (by simp) rfl
  | released held => exact .released held
  | pollerTook =>
    exact quiet (.of_setExecutor rfl rfl rfl Iff.rfl rfl) (by simp) (fun _ => not_false) (by simp)
      rfl
  | pollerLeft =>
    exact quiet (.of_setExecutor rfl rfl rfl Iff.rfl rfl) (by simp) (fun _ => not_false) (by simp)
      rfl

end Pool

end Imputio
