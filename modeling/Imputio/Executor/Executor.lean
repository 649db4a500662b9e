import Mathlib.Data.List.Basic
import Imputio.Io.Poller
import Imputio.Lib.Channel
import Imputio.Task.Task

/-! The executor actor: its five queues, the choice of the next task, and its transactions. -/

namespace Imputio

/-- The optional parts of the build that the executor depends on. -/
structure Features where
  fairness : Bool
  io : Bool
  deriving DecidableEq, Repr

/-- Names one call on a coordinator, from its start to its end. -/
abbrev CallId := Nat

/-- The messages to the poller thread of an executor. -/
inductive IoOp where
  | submit (op : Operation)
  | poll
  deriving DecidableEq, Repr

/-- The errors of an executor and of its handle. -/
inductive ExecError where
  | actorRcv
  | actorSend
  | stdIo
  | ioPoller (error : PollError)
  deriving DecidableEq, Repr

/-- The results of an executor and of its handle. -/
abbrev ExecResult (α : Type*) := Except ExecError α

/-- The messages to an executor; a reply channel is named by the call that waits on it. -/
inductive Transaction where
  | spawn (task : ImputioTask)
  | poll
  | submitIoOp (op : Operation) (reply : CallId)
  deriving DecidableEq, Repr

/-- The task that a message carries. -/
def Transaction.task : Transaction → Option ImputioTask
  | .spawn task => some task
  | _ => none

/-- Where the thread of an executor is in its loop. -/
inductive LoopState where
  | receiving
  | checking
  -- The loop is left and the executor is dropped.
  | exited
  deriving DecidableEq, Repr

/-- An executor, with the tasks that were ever put into its channel as history. -/
structure Executor where
  tasks : Fin 5 → List ImputioTask
  rx : Channel Transaction
  pollHandle : Channel IoOp
  state : LoopState
  received : List ImputioTask

/-- `PollHandle::submit_op`: send an operation to the poller thread. -/
def submitOp (pollHandle : Channel IoOp) (op : Operation) : PollResult Unit × Channel IoOp :=
  match pollHandle.send (.submit op) with
  | .sent pollHandle => (.ok (), pollHandle)
  | _ => (.error .actorSendError, pollHandle)

/-- `PollHandle::poll`: ask the poller thread to poll. -/
def pollIo (pollHandle : Channel IoOp) : PollResult Unit × Channel IoOp :=
  match pollHandle.send .poll with
  | .sent pollHandle => (.ok (), pollHandle)
  | _ => (.error .actorSendError, pollHandle)

/-- Pop the front of the first nonempty queue among some levels, in their order. -/
def popFront (levels : List (Fin 5)) (tasks : Fin 5 → List ImputioTask) :
    Option (ImputioTask × (Fin 5 → List ImputioTask)) :=
  match levels with
  | [] => none
  | level :: levels =>
    match tasks level with
    | [] => popFront levels tasks
    | task :: rest => some (task, Function.update tasks level rest)

namespace Executor

/-- An executor that has just been started. -/
def initialized (features : Features) : Executor where
  tasks := fun _ => []
  rx := .unbounded
  -- Without the feature the receiver is dropped at once.
  pollHandle := if features.io then .unbounded else (Channel.bounded 1).disconnect
  state := .receiving
  received := []

/-- What the handle of a placeholder coordinator points to: a channel without a receiver. -/
def absent : Executor where
  tasks := fun _ => []
  rx := (Channel.bounded 1).disconnect
  pollHandle := (Channel.bounded 1).disconnect
  state := .exited
  received := []

/-- Put a task at the end of the queue of its priority. -/
def spawn (exec : Executor) (task : ImputioTask) : Executor :=
  { exec with
    tasks := Function.update exec.tasks task.priority.index
      (exec.tasks task.priority.index ++ [task]) }

/-- The levels that are searched for a task; the coin is what the random generator yields. -/
def levels (features : Features) (coin : Bool) : List (Fin 5) :=
  if features.fairness && coin then (List.finRange 5).drop 2 else List.finRange 5

/-- Take the next task out of its queue. -/
def getTask (features : Features) (coin : Bool) (exec : Executor) :
    Option (ImputioTask × Executor) :=
  (popFront (levels features coin) exec.tasks).map fun (task, tasks) =>
    (task, { exec with tasks := tasks })

/--
Poll the next task, if there is one, and put it back when it is pending.

The task is returned as well. A panic leaves it out of the queues and ends the thread.
-/
def poll (features : Features) (coin : Bool) {V : Type*} (outcome : FutureStep V)
    (exec : Executor) : Executor × Option ImputioTask :=
  -- An error of the poller thread is only logged.
  let exec := if features.io then { exec with pollHandle := (pollIo exec.pollHandle).2 } else exec
  match exec.getTask features coin with
  | none => (exec, none)
  | some (task, exec) =>
    match outcome with
    | .ready _ => (exec, some task)
    | .pending => (exec.spawn task, some task)
    | .panicked => (exec, some task)

/-- Hand an operation to the poller thread. -/
def pushToPoller (exec : Executor) (op : Operation) : ExecResult Unit × Executor :=
  let (result, pollHandle) := submitOp exec.pollHandle op
  (result.mapError .ioPoller, { exec with pollHandle := pollHandle })

/-- All tasks in the queues, level by level. -/
def queued (exec : Executor) : List ImputioTask := (List.finRange 5).flatMap exec.tasks

/-- All tasks in the channel, oldest first. -/
def inChannel (exec : Executor) : List ImputioTask :=
  exec.rx.queue.filterMap Transaction.task

/-- The loop is left: the receiver and the queues are dropped. -/
def leave (exec : Executor) : Executor :=
  { exec with tasks := fun _ => [], rx := exec.rx.disconnect, state := .exited }

/-- The executor has taken its oldest message. -/
def take (exec : Executor) (rest : List Transaction) : Executor :=
  { exec with rx := { exec.rx with queue := rest }, state := .checking }

/-- The channel of the executor has accepted a message. -/
def push (exec : Executor) (message : Transaction) : Executor :=
  { exec with rx := { exec.rx with queue := exec.rx.queue ++ [message] } }

/-- A message without a task does not count where it is taken. -/
theorem take_inChannel {exec : Executor} {message : Transaction} {rest : List Transaction}
    (front : exec.rx.queue = message :: rest) (plain : message.task = none) :
    (exec.take rest).inChannel = exec.inChannel := by
  rw [inChannel, inChannel, front, List.filterMap_cons_none plain, take]

/-- A message without a task does not count where it is added. -/
theorem push_inChannel {exec : Executor} {message : Transaction} (plain : message.task = none) :
    (exec.push message).inChannel = exec.inChannel := by
  simp [inChannel, push, plain]

end Executor

/-- The popped task was at the front of the first nonempty level. -/
theorem popFront_eq_some {levels : List (Fin 5)} {tasks after : Fin 5 → List ImputioTask}
    {task : ImputioTask} (popped : popFront levels tasks = some (task, after)) :
    ∃ empty level later rest, levels = empty ++ level :: later ∧ (∀ l ∈ empty, tasks l = []) ∧
      tasks level = task :: rest ∧ after = Function.update tasks level rest := by
  -- The scan passes over the empty levels one by one.
  induction levels with
  | nil => simp [popFront] at popped
  | cons level levels ih =>
    unfold popFront at popped
    split at popped
    · rename_i nothing
      obtain ⟨empty, found, later, rest, same, skipped, front, result⟩ := ih popped
      refine ⟨level :: empty, found, later, rest, by rw [same, List.cons_append], ?_, front, result⟩
      intro l member
      rcases List.mem_cons.mp member with rfl | old
      · exact nothing
      · exact skipped l old
    · rename_i first rest front
      obtain ⟨rfl, rfl⟩ := Prod.mk.inj (Option.some.inj popped)
      exact ⟨[], level, levels, rest, rfl, by simp, front, rfl⟩

/-- Nothing is popped exactly when all levels are empty. -/
theorem popFront_eq_none_iff {levels : List (Fin 5)} {tasks : Fin 5 → List ImputioTask} :
    popFront levels tasks = none ↔ ∀ level ∈ levels, tasks level = [] := by
  -- The scan gives up only at the end of the levels.
  induction levels with
  | nil => simp [popFront]
  | cons level levels ih =>
    unfold popFront
    cases front : tasks level <;> simp [front, ih]

namespace Executor

/-- The next task leaves the front of one queue, and nothing else changes. -/
theorem getTask_eq_some {features : Features} {coin : Bool} {exec after : Executor}
    {task : ImputioTask} (taken : exec.getTask features coin = some (task, after)) :
    ∃ level rest, exec.tasks level = task :: rest ∧
      after = { exec with tasks := Function.update exec.tasks level rest } := by
  -- What the scan has found is written back into the executor.
  obtain ⟨⟨task', tasks⟩, popped, same⟩ := Option.map_eq_some_iff.mp taken
  obtain ⟨rfl, rfl⟩ := Prod.mk.inj same
  obtain ⟨_, level, _, rest, -, -, front, rfl⟩ := popFront_eq_some popped
  exact ⟨level, rest, front, rfl⟩

/-- The task that is taken next, if there is one. -/
def nextTask (features : Features) (coin : Bool) (exec : Executor) : Option ImputioTask :=
  (popFront (levels features coin) exec.tasks).map Prod.fst

/-- The channel to the poller thread after a poll, which asks that thread if there is one. -/
def askIo (features : Features) (exec : Executor) : Channel IoOp :=
  if features.io then (pollIo exec.pollHandle).2 else exec.pollHandle

/-- What polling does to the queues, by whether there was a task and how its poll ended. -/
theorem poll_cases (features : Features) (coin : Bool) {V : Type*} (outcome : FutureStep V)
    (exec : Executor) :
    (exec.nextTask features coin = none ∧ exec.poll features coin outcome =
      ({ exec with pollHandle := exec.askIo features }, none)) ∨
    ∃ level task rest, exec.nextTask features coin = some task ∧
      exec.tasks level = task :: rest ∧
      (outcome ≠ .pending ∧ exec.poll features coin outcome =
        ({ exec with
          pollHandle := exec.askIo features
          tasks := Function.update exec.tasks level rest }, some task) ∨
      outcome = .pending ∧ exec.poll features coin outcome =
        (({ exec with
          pollHandle := exec.askIo features
          tasks := Function.update exec.tasks level rest } : Executor).spawn task,
        some task)) := by
  -- Polling the poller thread changes the channel to it at most.
  have asked : (if features.io then { exec with pollHandle := (pollIo exec.pollHandle).2 }
      else exec) = { exec with pollHandle := exec.askIo features } := by
    unfold askIo
    cases features.io <;> rfl
  unfold poll
  simp only [asked]
  have picked : exec.nextTask features coin =
      (getTask features coin { exec with pollHandle := exec.askIo features }).map Prod.fst := by
    rw [nextTask, getTask, Option.map_map]
    rfl
  rw [picked]
  -- A task is put back only if its poll is pending.
  cases taken : getTask features coin { exec with pollHandle := exec.askIo features } with
  | none => exact .inl ⟨rfl, rfl⟩
  | some found =>
    obtain ⟨task, after⟩ := found
    obtain ⟨level, rest, front, rfl⟩ := getTask_eq_some taken
    refine .inr ⟨level, task, rest, rfl, front, ?_⟩
    cases outcome with
    | ready value => exact .inl ⟨by simp, rfl⟩
    | pending => exact .inr ⟨rfl, rfl⟩
    | panicked => exact .inl ⟨by simp, rfl⟩

end Executor

end Imputio
