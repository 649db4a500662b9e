import Imputio.Lib.Pipeline
import Imputio.Executor.Order
import Imputio.Executor.Stranded

/-! What one executor of a pool does is decided by the messages it is sent, in their order. -/

namespace Imputio

open Transition StableQueue

/-- The call that an executor makes on itself for a message; an operation concerns no task. -/
def Transaction.executorCall {V : Type*} (coin : Bool) (outcome : FutureStep V) :
    Transaction → Option (ExecutorCall V)
  | .spawn task => some (.spawn task)
  | .poll => some (.poll coin outcome)
  | .submitIoOp _ _ => none

namespace Executor

variable {V : Type*} {features : Features} {exec other after : Executor}

/-- What a poll finds, and how its queues are left, depends on the queues only. -/
theorem poll_congr (coin : Bool) (outcome : FutureStep V) (tasks : other.tasks = exec.tasks) :
    (other.poll features coin outcome).2 = (exec.poll features coin outcome).2 ∧
      (other.poll features coin outcome).1.tasks = (exec.poll features coin outcome).1.tasks := by
  -- Asking the poller thread leaves the queues as they are, and the scan looks at nothing else.
  unfold poll getTask
  cases found : popFront (levels features coin) exec.tasks with
  | none => cases features.io <;> simp [tasks, found]
  | some popped => cases features.io <;> cases outcome <;> simp [tasks, found, spawn]

/-- A poll leaves an executor behind unless the task that it polls panics. -/
theorem call_poll_eq (features : Features) (coin : Bool) (outcome : FutureStep V)
    (exec : Executor) : exec.call features (.poll coin outcome) =
      if (exec.poll features coin outcome).2.isSome && outcome.panics then none
      else some (exec.poll features coin outcome).1 := rfl

/-- What a call does to the queues depends on the queues only. -/
theorem call_congr {call : ExecutorCall V} (tasks : other.tasks = exec.tasks)
    (called : exec.call features call = some after) :
    other.turn features call = exec.turn features call ∧
      ∃ after', other.call features call = some after' ∧ after'.tasks = after.tasks := by
  -- A spawn adds to the queues, and a poll finds its task in them.
  cases call with
  | spawn task =>
    obtain rfl := Option.some.inj called
    exact ⟨rfl, _, rfl, by simp [spawn, tasks]⟩
  | poll coin outcome =>
    have next : other.nextTask features coin = exec.nextTask features coin := by
      rw [nextTask, nextTask, tasks]
    have same := @poll_congr V features exec other coin outcome tasks
    rw [call_poll_eq] at called ⊢
    rw [same.1]
    -- The poll finds the same task, so it panics for both executors or for none.
    obtain ⟨survives, left⟩ := Option.ite_none_left_eq_some.mp called
    obtain rfl := Option.some.inj left
    exact ⟨by simp only [turn, next], _, if_neg survives, same.2⟩
end Executor

namespace Pool

variable {n : Nat} {V : Type*}

/-- The transaction that a call sends. -/
def message (s : Pool n V) (call : CallId) : CoordinatorCall → Transaction
  | .spawn priority => .spawn ⟨s.nextTask, priority⟩
  | .poll => .poll
  | .submitIoOp op => .submitIoOp op call

/-- The message that a step puts into the channel of an executor. -/
def puts (s : Pool n V) (worker : Fin n) : PoolAction n V → Option Transaction
  | .send call =>
    match s.calls call with
    | .stored request index =>
      if index = worker.val ∧ (s.executors worker).rx.connected = true then
        some (s.message call request)
      else none
    | _ => none
  | _ => none

/-- The message that an executor takes out of its channel in a step. -/
def takes (s : Pool n V) (worker : Fin n) : PoolAction n V → Option Transaction
  | .recv receiver _ _ =>
    if receiver = worker ∧ (s.executors worker).state = .receiving then
      (s.executors worker).rx.queue.head?
    else none
  | _ => none

/-- The call that an executor makes on itself in a step. -/
def callTo (s : Pool n V) (worker : Fin n) (act : PoolAction n V) : Option (ExecutorCall V) :=
  match act with
  | .recv _ coin outcome => (s.takes worker act).bind (Transaction.executorCall coin outcome)
  | _ => none

/-- The task that an executor polls in a step, and whether it is put back. -/
def turnOf (features : Features) (s : Pool n V) (worker : Fin n) (act : PoolAction n V) :
    Option (ImputioTask × Bool) :=
  match act with
  | .recv receiver _ outcome =>
    if receiver = worker then
      (s.polledTask features act).map fun task => (task, outcome.pends)
    else none
  | _ => none

variable {features : Features} {s t : Pool n V} {act : PoolAction n V} {worker : Fin n}

/-- What a step does to one executor of the pool, its queues and its channel. -/
inductive Local (features : Features) (s : Pool n V) (worker : Fin n) (act : PoolAction n V)
    (t : Pool n V) : Prop
  | kept (unput : s.puts worker act = none) (untaken : s.takes worker act = none)
      (queue : (t.executors worker).rx.queue = (s.executors worker).rx.queue)
      (tasks : (t.executors worker).tasks = (s.executors worker).tasks)
  | put {message : Transaction} (put : s.puts worker act = some message)
      (untaken : s.takes worker act = none)
      (queue : (t.executors worker).rx.queue = (s.executors worker).rx.queue ++ [message])
      (tasks : (t.executors worker).tasks = (s.executors worker).tasks)
  | took {coin : Bool} {outcome : FutureStep V} {message : Transaction} {rest : List Transaction}
      (turn : act = .recv worker coin outcome)
      (receiving : (s.executors worker).state = .receiving)
      (front : (s.executors worker).rx.queue = message :: rest)
      (queue : (t.executors worker).rx.queue = rest)
      (silent : message.executorCall coin outcome = none →
        (t.executors worker).tasks = (s.executors worker).tasks)
      (called : ∀ call, message.executorCall coin outcome = some call → ∃ after,
        (s.executors worker).call features call = some after ∧
          (t.executors worker).tasks = after.tasks)
  -- The executor has left its loop, and perhaps its channel is gone as well.
  | left (unput : s.puts worker act = none) (exited : (t.executors worker).state = .exited)
      (queue : t.Gone worker ∨ (s.executors worker).rx.queue =
        (s.takes worker act).toList ++ (t.executors worker).rx.queue)

/-- Dropping channels empties those that are dropped. -/
theorem dropChannels_queue (s : Pool n V) (gone : Fin n → Bool) (worker : Fin n) :
    ((s.dropChannels gone).executors worker).rx.queue =
      if gone worker then [] else (s.executors worker).rx.queue := by
  -- A dropped channel loses what it holds, and the others are not touched.
  unfold dropChannels
  split_ifs with here <;> simp [here]

/-- Leaving the loop empties the queues of the executor, and its channel if nobody holds it. -/
theorem leave_local (s : Pool n V) (leaving worker : Fin n) :
    ((s.leave leaving).executors worker).rx.queue =
        (if worker = leaving ∧ s.held = false then [] else (s.executors worker).rx.queue) ∧
      (worker ≠ leaving →
        ((s.leave leaving).executors worker).tasks = (s.executors worker).tasks) := by
  -- An executor that leaves drops its tasks, and what it leaves behind is dropped with the rest.
  unfold leave
  rw [dropChannels_queue]
  refine ⟨?_, fun other => ?_⟩
  · by_cases here : worker = leaving
    · subst here
      simp [setExecutor, Executor.leave, Channel.disconnect]
    · simp [setExecutor, here]
  · rw [(dropChannels_executors _ _ worker).2.2.1]
    simp [setExecutor, other]

/-- A call whose message reaches nobody puts nothing into any channel. -/
theorem Local.of_unsent {call : CallId} {request : CoordinatorCall} {index : Nat}
    (asked : s.calls call = .stored request index) (executors : t.executors = s.executors)
    (lost : ∀ inRange : index < n, (s.executors ⟨index, inRange⟩).rx.connected = false) :
    s.Local features worker (.send call) t := by
  -- Nothing is put where nobody receives.
  have unput : s.puts worker (.send call) = none := by
    -- The receiver is gone, or the index belongs to no executor.
    simp only [puts, asked]
    refine if_neg ?_
    rintro ⟨rfl, connected⟩
    simp [lost worker.isLt] at connected
  exact .kept unput rfl (by rw [executors]) (by rw [executors])

/-- A call whose message is sent puts it into the channel of one executor. -/
theorem Local.of_sent {call : CallId} {request : CoordinatorCall} {index : Nat}
    {exec : Executor} (asked : s.calls call = .stored request index) (inRange : index < n)
    (connected : (s.executors ⟨index, inRange⟩).rx.connected = true)
    (executors : t.executors = Function.update s.executors ⟨index, inRange⟩ exec)
    (queue : exec.rx.queue =
      (s.executors ⟨index, inRange⟩).rx.queue ++ [s.message call request])
    (tasks : exec.tasks = (s.executors ⟨index, inRange⟩).tasks) :
    s.Local features worker (.send call) t := by
  -- The index names one executor, which may be this one.
  by_cases here : worker = ⟨index, inRange⟩
  -- The message is the last one in the channel of its executor.
  · subst here
    have put : s.puts ⟨index, inRange⟩ (.send call) = some (s.message call request) := by
      simp [puts, asked, connected]
    exact .put put rfl (by simpa [executors] using queue) (by simpa [executors] using tasks)
  · -- The message goes to another executor.
    have unput : s.puts worker (.send call) = none := by
      simp only [puts, asked]
      refine if_neg ?_
      rintro ⟨rfl, -⟩
      exact here rfl
    exact .kept unput rfl (by simp [executors, here]) (by simp [executors, here])

/-- Whoever does not receive a message is not concerned by a turn of another executor. -/
theorem Local.of_other {receiver : Fin n} {coin : Bool} {outcome : FutureStep V}
    (other : worker ≠ receiver)
    (queue : (t.executors worker).rx.queue = (s.executors worker).rx.queue)
    (tasks : (t.executors worker).tasks = (s.executors worker).tasks) :
    s.Local features worker (.recv receiver coin outcome) t :=
  .kept rfl (if_neg fun here => other here.1.symm) queue tasks

/-- What an executor takes is the oldest message, if there is one. -/
theorem takes_recv {coin : Bool} {outcome : FutureStep V}
    (receiving : (s.executors worker).state = .receiving) :
    s.takes worker (.recv worker coin outcome) = (s.executors worker).rx.queue.head? := by
  simp [takes, receiving]

/-- A turn in which an executor takes a message and stays in its loop. -/
theorem Local.of_taken {receiver : Fin n} {coin : Bool} {outcome : FutureStep V}
    {message : Transaction} {rest : List Transaction} {exec : Executor}
    (receiving : (s.executors receiver).state = .receiving)
    (front : (s.executors receiver).rx.queue = message :: rest)
    (executors : t.executors = Function.update s.executors receiver exec)
    (queue : exec.rx.queue = rest)
    (silent : message.executorCall coin outcome = none →
      exec.tasks = (s.executors receiver).tasks)
    (called : ∀ call, message.executorCall coin outcome = some call → ∃ after,
      (s.executors receiver).call features call = some after ∧ exec.tasks = after.tasks) :
    s.Local features worker (.recv receiver coin outcome) t := by
  -- Either it is this executor's turn or that of another one.
  by_cases here : worker = receiver
  · subst here
    have now : t.executors worker = exec := by rw [executors, Function.update_self]
    -- The receiver is the one that takes the message, and nothing else changes in the pool.
    exact .took rfl receiving front (now ▸ queue) (now ▸ silent) (now ▸ called)
  · have same : t.executors worker = s.executors worker := by
      rw [executors, Function.update_of_ne here]
    exact .of_other here (by rw [same]) (by rw [same])

/-- A task whose poll panics takes its executor out of its loop, and no other one. -/
theorem Local.of_panicked {receiver : Fin n} {coin : Bool} {task : ImputioTask}
    {rest : List Transaction} {exec : Executor}
    (receiving : (s.executors receiver).state = .receiving)
    (front : (s.executors receiver).rx.queue = .poll :: rest) (queue : exec.rx.queue = rest) :
    s.Local features worker (.recv receiver coin .panicked)
      (s.polled receiver exec task .panicked) := by
  -- The executor is replaced by what is left of it, which is then dropped.
  obtain ⟨mid, left, executors⟩ : ∃ mid : Pool n V,
      s.polled receiver exec task .panicked = mid.leave receiver ∧
        mid.executors = Function.update s.executors receiver exec := ⟨_, rfl, rfl⟩
  rw [left]
  obtain ⟨nowQueue, tasks⟩ := leave_local mid receiver worker
  by_cases here : worker = receiver
  · subst here
    have exited := ((leave_executors mid worker worker).2.1).mpr (.inl rfl)
    refine .left rfl exited ?_
    rw [nowQueue, takes_recv receiving, front, executors, Function.update_self, queue]
    by_cases dropped : mid.held = false
    · have gone : (mid.leave worker).held = false := dropped
      exact .inl ⟨exited, gone⟩
    · exact .inr (by simp [dropped])
  · have same : mid.executors worker = s.executors worker := by
      rw [executors, Function.update_of_ne here]
    exact .of_other here (by rw [nowQueue, if_neg fun both => here both.1, same])
      (by rw [tasks here, same])

/-- A turn in which an executor is asked to poll. -/
theorem Local.of_poll {receiver : Fin n} {coin : Bool} {outcome : FutureStep V}
    {rest : List Transaction} (receiving : (s.executors receiver).state = .receiving)
    (front : (s.executors receiver).rx.queue = .poll :: rest)
    (taken : s.recv features receiver coin outcome = some t) :
    s.Local features worker (.recv receiver coin outcome) t := by
  -- What the poll does to the queues does not depend on the message having been taken.
  -- The executor is asked on its own queues, which taking the message leaves alone.
  obtain ⟨found, tasks⟩ := @Executor.poll_congr V features (s.executors receiver)
    ((s.executors receiver).take rest) coin outcome rfl
  have queue : (((s.executors receiver).take rest).poll features coin outcome).1.rx.queue =
      rest := by
    rcases Executor.poll_cases features coin outcome ((s.executors receiver).take rest) with
      ⟨-, same⟩ | ⟨_, _, _, -, -, ⟨-, same⟩ | ⟨-, same⟩⟩ <;> rw [same] <;> rfl
  rw [recv, if_pos receiving, Channel.tryRecv, front] at taken
  replace taken : (((s.executors receiver).take rest).poll features coin outcome).2.elim
      (some (s.setExecutor receiver
        (((s.executors receiver).take rest).poll features coin outcome).1))
      (fun task => some (s.polled receiver
        (((s.executors receiver).take rest).poll features coin outcome).1 task outcome)) =
        some t := by
    rw [← taken]
    cases polls : ((s.executors receiver).take rest).poll features coin outcome with
    | mk exec polled => cases polled <;> simp [Executor.take, polls] at *
  -- From here on it does not matter how the poll came about.
  generalize polls : ((s.executors receiver).take rest).poll features coin outcome = turn at *
  obtain ⟨exec, polled⟩ := turn
  have called : ∀ call, Transaction.executorCall coin outcome .poll = some call →
      (polled.isSome && outcome.panics) = false → ∃ after,
        (s.executors receiver).call features call = some after ∧ exec.tasks = after.tasks := by
    rintro call ⟨⟩ survives
    rw [Executor.call_poll_eq, ← found, survives]
    exact ⟨_, rfl, tasks⟩
  cases polled with
  | none =>
    -- There was nothing to poll, so nothing could panic.
    obtain rfl := Option.some.inj taken
    exact .of_taken receiving front rfl queue (by simp [Transaction.executorCall])
      fun call named => called call named rfl
  | some task =>
    obtain rfl := Option.some.inj taken
    cases outcome with
    -- The panic unwinds the thread; in the other cases the executor stays in its loop.
    | panicked => exact .of_panicked receiving front queue
    | ready value =>
      exact .of_taken receiving front rfl queue (by simp [Transaction.executorCall])
        fun call named => called call named rfl
    | pending =>
      exact .of_taken receiving front rfl queue (by simp [Transaction.executorCall])
        fun call named => called call named rfl

/-- An executor that is replaced by one with the same queues and messages is not concerned. -/
theorem Local.of_replaced {other : Fin n} {exec : Executor} (unput : s.puts worker act = none)
    (untaken : s.takes worker act = none)
    (queue : exec.rx.queue = (s.executors other).rx.queue)
    (tasks : exec.tasks = (s.executors other).tasks) :
    s.Local features worker act (s.setExecutor other exec) := by
  -- If it is the executor itself, what concerns it is the same; else it is left alone.
  by_cases here : worker = other
  · subst here
    exact .kept unput untaken (by simpa [setExecutor] using queue)
      (by simpa [setExecutor] using tasks)
  · exact .kept unput untaken (by simp [setExecutor, here]) (by simp [setExecutor, here])

/-- Every step does one of these to an executor. -/
theorem local_of_step (worker : Fin n) (step : Steps (next features) s act t) :
    s.Local features worker act t := by
  -- One case for each kind of step; most of them do not concern this executor.
  cases step_next step with
  -- Until a call sends its message, only the coordinator is concerned.
  | called => exact .kept rfl rfl rfl rfl
  | stored => exact .kept rfl rfl rfl rfl
  | spawned asked inRange connected => exact .of_sent asked inRange connected rfl rfl rfl
  | pollSent asked inRange connected => exact .of_sent asked inRange connected rfl rfl rfl
  | opSent asked inRange connected => exact .of_sent asked inRange connected rfl rfl rfl
  -- Messages to an executor that is gone are lost, and so are those to none at all.
  | refused asked inRange gone => exact .of_unsent asked rfl fun _ => gone
  | pollRefused asked inRange gone => exact .of_unsent asked rfl fun _ => gone
  | opRefused asked inRange gone => exact .of_unsent asked rfl fun _ => gone
  | outOfRange asked outside =>
    exact .of_unsent asked rfl fun inRange => absurd inRange outside
  | received => exact .kept rfl rfl rfl rfl
  | @idled receiver coin outcome receiving empty =>
    -- There is nothing to take.
    have untaken : s.takes worker (.recv receiver coin outcome) = none := by
      by_cases here : receiver = worker
      · subst here
        rw [takes_recv receiving, empty]
        rfl
      · exact if_neg fun both => here both.1
    exact .of_replaced rfl untaken rfl rfl
  | enqueued receiving front =>
    refine .of_taken receiving front rfl rfl (by simp [Transaction.executorCall]) ?_
    -- Enqueuing the task is the call.
    rintro call ⟨⟩
    exact ⟨_, rfl, rfl⟩
  | unpolled receiving front => exact .of_poll receiving front step
  | polled receiving front => exact .of_poll receiving front step
  -- Handing an operation on to the poller thread touches no queue of tasks.
  | @served receiver coin outcome call op rest receiving front =>
    have executors : ((s.setExecutor receiver
        (((s.executors receiver).take rest).pushToPoller op).2).answer call
          (((s.executors receiver).take rest).pushToPoller op).1).executors =
        Function.update s.executors receiver
          (((s.executors receiver).take rest).pushToPoller op).2 := by
      unfold answer
      split <;> rfl
    exact .of_taken receiving front executors rfl (fun _ => rfl)
      (by simp [Transaction.executorCall])
  | @left leaving checking flag =>
    obtain ⟨queue, tasks⟩ := leave_local s leaving worker
    by_cases here : worker = leaving
    · subst here
      have exited := ((leave_executors s worker worker).2.1).mpr (.inl rfl)
      refine .left rfl exited ?_
      -- The channel stays as long as the coordinator holds its other end.
      by_cases dropped : s.held = false
      · have gone : (s.leave worker).held = false := dropped
        exact .inl ⟨exited, gone⟩
      · exact .inr (by rw [queue, if_neg fun both => dropped both.2]; rfl)
    · exact .kept rfl rfl (by rw [queue, if_neg fun both => here both.1]) (tasks here)
  | @stayed other checking unset => exact .of_replaced rfl rfl rfl rfl
  | flagged => exact .kept rfl rfl rfl rfl
  | released held calm =>
    -- Without the coordinator, the channels of the executors that have left are dropped.
    obtain ⟨-, state, tasks, -⟩ := dropChannels_executors { s with held := false }
      (fun other => (s.executors other).state == LoopState.exited) worker
    by_cases exited : (s.executors worker).state = .exited
    · exact .left rfl (state.trans exited) (.inl ⟨state.trans exited, rfl⟩)
    · refine .kept rfl rfl ?_ tasks
      rw [dropChannels_queue, if_neg (by simpa using exited)]
  | @pollerTook other message rest front => exact .of_replaced rfl rfl rfl rfl
  | @pollerLeft other => exact .of_replaced rfl rfl rfl rfl

/-- The channel of an executor hands over in order what is sent, until it is dropped. -/
theorem channel_relays (features : Features) (worker : Fin n) :
    Relays (next features) (fun s : Pool n V => (s.executors worker).rx.queue)
      (fun s => s.puts worker) (fun s => s.takes worker) (fun s => ¬ s.Gone worker) := by
  -- What goes in goes in at the end, and what comes out is the front.
  intro s act t step there
  refine ⟨fun gone => there (((step_effect step).gone worker).mpr (.inl gone)), ?_⟩
  cases local_of_step worker step with
  | kept unput untaken queue => simp [unput, untaken, queue]
  | put put untaken queue => simp [put, untaken, queue]
  -- What is taken is what was at the front.
  | took turn receiving front queue =>
    subst turn
    simp [puts, takes_recv receiving, front, queue]
  | left unput exited queue =>
    -- As long as the channel is there, what has not been taken is still in it.
    rcases queue with gone | queue
    · exact absurd gone there
    · simpa [unput] using queue

/-- Where an executor takes no message, it is not called. -/
theorem callTo_of_untaken (untaken : s.takes worker act = none) : s.callTo worker act = none := by
  -- Only a message that is taken makes a call.
  cases act with
  | recv receiver coin outcome => simp only [callTo, untaken, Option.bind_none]
  | _ => rfl

/-- Where an executor takes no message, it polls nothing. -/
theorem turnOf_of_untaken (untaken : s.takes worker act = none) :
    s.turnOf features worker act = none := by
  -- A poll is asked for by a message.
  cases act with
  | recv receiver coin outcome =>
    unfold turnOf polledTask
    by_cases here : receiver = worker
    · subst here
      -- Without a message there is none that asks for a poll.
      have nothing : ¬ ((s.executors receiver).state = .receiving ∧
          (s.executors receiver).rx.queue.head? = some .poll) := by
        rintro ⟨receiving, front⟩
        rw [takes_recv receiving, front] at untaken
        cases untaken
      simp [nothing]
    · simp [here]
  | _ => rfl

/-- The tasks that the calls on an executor bring are those of the messages that it takes. -/
theorem spawned_callTo (s : Pool n V) (worker : Fin n) (act : PoolAction n V) :
    (s.takes worker act).bind Transaction.task =
      (s.callTo worker act).bind ExecutorCall.spawned := by
  -- Only a message that brings a task becomes a call that spawns one.
  cases act with
  | recv receiver coin outcome =>
    cases taken : s.takes worker (.recv receiver coin outcome) with
    | none => simp only [callTo, taken, Option.bind_none]
    | some message => cases message <;> simp only [callTo, taken] <;> rfl
  | _ => rfl

/-- What an executor does with a message that it takes is what the call for it shows. -/
theorem turnOf_of_taken {coin : Bool} {outcome : FutureStep V} {message : Transaction}
    {rest : List Transaction} (receiving : (s.executors worker).state = .receiving)
    (front : (s.executors worker).rx.queue = message :: rest) :
    s.turnOf features worker (.recv worker coin outcome) =
      (message.executorCall coin outcome).bind ((s.executors worker).turn features) := by
  -- Only a message that asks for a poll shows anything.
  cases message with
  | spawn task =>
    simp [turnOf, polledTask, front, Transaction.executorCall, Executor.turn]
  | poll =>
    simp [turnOf, polledTask, receiving, front, Transaction.executorCall, Executor.turn]
  | submitIoOp op reply => simp [turnOf, polledTask, front, Transaction.executorCall]

/-- An executor by itself has the queues of an executor of the pool. -/
def SameQueues (worker : Fin n) (s : Pool n V) (exec : Executor) : Prop :=
  exec.tasks = (s.executors worker).tasks

/-- An executor of the pool is in its loop. -/
def InLoop (worker : Fin n) (s : Pool n V) : Prop := (s.executors worker).state ≠ .exited

/-- An executor that is in its loop after a step was in it before. -/
theorem InLoop.before (step : Steps (next features) s act t) (loops : InLoop worker t) :
    InLoop worker s :=
  fun exited => loops (((step_effect step).loops worker).1.mpr (.inl exited))

/-- An executor that is in its loop has been in it since the start. -/
theorem InLoop.start {start last : Pool n V} {acts : List (PoolAction n V)}
    (run : Run (Steps (next features)) start acts last) (loops : InLoop worker last) :
    InLoop worker start := by
  -- By induction on the run, backwards from its end.
  induction run with
  | nil => exact loops
  | snoc _ step ih => exact ih (loops.before step)

/-- A step that calls an executor changes its queues as the call does, and no other one does. -/
theorem SameQueues.step {exec : Executor} (same : SameQueues worker s exec)
    (loops : InLoop worker t) (step : Steps (next features) s act t) :
    (s.callTo worker act = none ∧ s.turnOf features worker act = none ∧
      SameQueues worker t exec) ∨
    ∃ call after, s.callTo worker act = some call ∧ exec.call features call = some after ∧
      s.turnOf features worker act = exec.turn features call ∧ SameQueues worker t after := by
  -- The executor by itself goes along with the calls that its counterpart is told by messages.
  have untouched : s.takes worker act = none →
      (t.executors worker).tasks = (s.executors worker).tasks →
      s.callTo worker act = none ∧ s.turnOf features worker act = none ∧
        SameQueues worker t exec := fun untaken tasks =>
    ⟨callTo_of_untaken untaken, turnOf_of_untaken untaken, same.trans tasks.symm⟩
  cases local_of_step worker step with
  | kept unput untaken queue tasks => exact .inl (untouched untaken tasks)
  | put put untaken queue tasks => exact .inl (untouched untaken tasks)
  | @took coin outcome message rest turn receiving front queue silent called =>
    subst turn
    -- The message that is at the front tells the executor what to do.
    have told : s.callTo worker (.recv worker coin outcome) =
        message.executorCall coin outcome := by
      simp only [callTo, takes_recv receiving, front, List.head?_cons, Option.bind_some]
    have shown : s.turnOf features worker (.recv worker coin outcome) =
        (message.executorCall coin outcome).bind ((s.executors worker).turn features) :=
      turnOf_of_taken receiving front
    cases named : message.executorCall coin outcome with
    | none =>
      -- An operation passes the queues by.
      refine .inl ⟨told.trans named, ?_, same.trans (silent named).symm⟩
      rw [shown, named, Option.bind_none]
    | some call =>
      obtain ⟨after, done, tasks⟩ := called call named
      -- The executor by itself has the same queues, so the call does the same to it.
      obtain ⟨turns, after', done', tasks'⟩ := Executor.call_congr same done
      refine .inr ⟨call, after', told.trans named, done', ?_, tasks'.trans tasks.symm⟩
      rw [shown, named, Option.bind_some, turns]
  | left unput exited => exact absurd exited loops

/-- An executor that is in its loop does what the calls on it tell it to do. -/
theorem executor_projects {start last : Pool n V} {acts : List (PoolAction n V)}
    {exec : Executor} (same : SameQueues worker start exec)
    (run : Run (Steps (next features)) start acts last) (loops : InLoop worker last) :
    ∃ after, Run (Steps (Executor.call features)) exec
        (observed (next features) (fun s => s.callTo worker) start acts) after ∧
      SameQueues worker last after ∧
      observed (next features) (fun s => s.turnOf features worker) start acts =
        observed (Executor.call features) (Executor.turn features) exec
          (observed (next features) (fun s => s.callTo worker) start acts) :=
  run.project (fun _ _ _ step still => still.before step)
    (fun _ _ _ _ still same step => (same.step still step).imp_right
      fun ⟨call, after, told, done, turns, kept⟩ => ⟨call, after, told, done, turns, kept⟩)
    same loops

end Pool

section Sequential

variable {n : Nat} {V : Type*} {features : Features} {start last : Pool n V}
  {acts : List (PoolAction n V)}

/-- In a fresh pool only executors that were started are in their loops. -/
theorem Pool.Fresh.initialized_of_loops {worker : Fin n} (fresh : start.Fresh features)
    (loops : Pool.InLoop worker start) : start.executors worker = .initialized features := by
  -- The other kind of fresh pool is a placeholder, which has no executor in its loop.
  rcases fresh with rfl | rfl
  · rfl
  · exact absurd rfl loops

/-- What an executor of a pool is called for, in the order of the messages that it has taken. -/
def Pool.callsTo (features : Features) (start : Pool n V) (acts : List (PoolAction n V))
    (worker : Fin n) : List (ExecutorCall V) :=
  observed (Pool.next features) (fun s => s.callTo worker) start acts

/--
Each executor of a pool works through what it is sent, in order, as if it were alone.

Whatever the callers and the other executors do, an executor that is in its loop has taken the
messages that were sent to it, oldest first, and its queues and the tasks that it has polled are
those of an executor by itself on which the same calls are made one after the other.
-/
theorem pool_executors_sequential (fresh : start.Fresh features)
    (run : Run (Steps (Pool.next features)) start acts last) (worker : Fin n)
    (loops : (last.executors worker).state ≠ .exited) :
    observed (Pool.next features) (fun s => s.puts worker) start acts =
        observed (Pool.next features) (fun s => s.takes worker) start acts ++
          (last.executors worker).rx.queue ∧
      spawnedTasks (start.callsTo features acts worker) =
        (observed (Pool.next features) (fun s => s.takes worker) start acts).filterMap
          Transaction.task ∧
      (∃ exec, Run (Steps (Executor.call features)) (.initialized features)
          (start.callsTo features acts worker) exec ∧
        exec.tasks = (last.executors worker).tasks) ∧
      observed (Pool.next features) (fun s => s.turnOf features worker) start acts =
        observed (Executor.call features) (Executor.turn features) (.initialized features)
          (start.callsTo features acts worker) := by
  -- An executor that is in its loop now was started with the pool.
  have started := fresh.initialized_of_loops (Pool.InLoop.start run loops)
  have handed := (Pool.channel_relays features worker).run run fun gone => loops gone.1
  have same : Pool.SameQueues worker start (.initialized features) := by
    rw [Pool.SameQueues, started]
  obtain ⟨exec, calls, tasks, turns⟩ := Pool.executor_projects same run loops
  refine ⟨?_, ?_, ⟨exec, calls, tasks⟩, turns⟩
  · -- The channel is empty at first.
    rw [started] at handed
    simpa [Executor.initialized, Channel.unbounded] using handed
  · -- Both sides are what a step brings to the executor, seen along the run.
    calc spawnedTasks (start.callsTo features acts worker)
        = observed (Pool.next features)
            (fun s act => (s.callTo worker act).bind ExecutorCall.spawned) start acts :=
          (observed_filterMap (fun _ _ => rfl) start acts).symm
      _ = (observed (Pool.next features) (fun s => s.takes worker) start acts).filterMap
            Transaction.task :=
          observed_filterMap (fun s act => (Pool.spawned_callTo s worker act).symm) start acts

/--
Without fairness each executor of a pool is a stable priority queue of what it was sent.

The tasks in its queues, and the tasks that it has polled, are those of the queue that is asked, in
the order of the messages, to enter each spawned task and to serve at each poll.
-/
theorem pool_executors_stable_queues {io : Bool} (fresh : start.Fresh ⟨false, io⟩)
    (run : Run (Steps (Pool.next ⟨false, io⟩)) start acts last) (worker : Fin n)
    (loops : (last.executors worker).state ≠ .exited) :
    ∃ queue : Queue ImputioTask.level,
      Run (Steps Queue.next) .empty
        ((start.callsTo ⟨false, io⟩ acts worker).map ExecutorCall.request) queue ∧
      (last.executors worker).queued = queue.items ∧
      observed (Pool.next ⟨false, io⟩) (fun s => s.turnOf ⟨false, io⟩ worker) start acts =
        observed Queue.next Queue.served (.empty : Queue ImputioTask.level)
          ((start.callsTo ⟨false, io⟩ acts worker).map ExecutorCall.request) := by
  -- The executor's part of the run is a run of its own, which refines the queue.
  have started := fresh.initialized_of_loops (Pool.InLoop.start run loops)
  have same : Pool.SameQueues worker start (.initialized ⟨false, io⟩) := by
    rw [Pool.SameQueues, started]
  obtain ⟨exec, calls, tasks, turns⟩ := Pool.executor_projects same run loops
  -- Alone, an executor is the stable queue that its calls are requests to.
  obtain ⟨queue, served, represents, shown⟩ :=
    represented (Executor.initialized_represents ⟨false, io⟩) calls
  refine ⟨queue, served, ?_, turns.trans shown⟩
  rw [← represents.queued, Executor.queued, Executor.queued, tasks]

/-- Two tasks and two polls are sent to one of two executors while the other one panics. -/
def sentPastPanic {n : Nat} (panicking working : Fin n) : List (PoolAction n Nat) :=
  [.call (.spawn .low), .store 0, .send 0, .call (.spawn .high), .store 1, .send 1,
    .call (.spawn .high), .store 2, .send 2, .call .poll, .store 3, .send 3,
    .call .poll, .store 4, .send 4, .recv panicking false .pending, .check panicking,
    .recv panicking false .panicked, .recv working false .pending, .check working,
    .recv working false .pending, .check working, .recv working false .pending]

/-- The actions are possible; one executor has left its loop and the other one has not. -/
theorem sentPastPanic_run :
    ∃ s : Pool 2 Nat, Run (Steps (Pool.next ⟨false, false⟩)) (Pool.initialized ⟨false, false⟩)
        (sentPastPanic 0 1) s ∧ (s.executors 0).state = .exited ∧ (s.executors 1).state ≠ .exited ∧
      (s.executors 1).queued = [⟨2, .high⟩, ⟨0, .low⟩] := by
  -- What the replay shows of both executors is tested in its last state.
  have replayed : (replay (Pool.next ⟨false, false⟩) (Pool.initialized ⟨false, false⟩)
      (sentPastPanic 0 1)).map (fun s : Pool 2 Nat => (s.executors 0).state == .exited &&
        (s.executors 1).state == .checking &&
        (s.executors 1).queued == [⟨2, .high⟩, ⟨0, .low⟩]) = some true := by decide
  obtain ⟨s, run, passed⟩ := Run.of_replay_test replayed
  simp only [Bool.and_eq_true, beq_iff_eq] at passed
  obtain ⟨⟨exited, checking⟩, queued⟩ := passed
  exact ⟨s, run, exited, by simp [checking], queued⟩

/-- The other executor has taken both tasks and the request to poll. -/
theorem pool_executors_sequential_panicked :
    ∃ s : Pool 2 Nat, Run (Steps (Pool.next ⟨false, false⟩)) (Pool.initialized ⟨false, false⟩)
        (sentPastPanic 0 1) s ∧ (s.executors 0).state = .exited ∧
      ∃ exec, Run (Steps (Executor.call ⟨false, false⟩)) (.initialized ⟨false, false⟩)
          ((Pool.initialized ⟨false, false⟩ : Pool 2 Nat).callsTo ⟨false, false⟩
            (sentPastPanic 0 1) 1)
          exec ∧
        exec.tasks = (s.executors 1).tasks := by
  obtain ⟨s, run, exited, loops, -⟩ := sentPastPanic_run
  exact ⟨s, run, exited, (pool_executors_sequential (.inl rfl) run 1 loops).2.2.1⟩

/-- Its queues are those of the stable queue, in which the urgent task comes first. -/
theorem pool_executors_stable_queues_panicked :
    ∃ s : Pool 2 Nat, Run (Steps (Pool.next ⟨false, false⟩)) (Pool.initialized ⟨false, false⟩)
        (sentPastPanic 0 1) s ∧
      ∃ queue : Queue ImputioTask.level,
        Run (Steps Queue.next) .empty
          (((Pool.initialized ⟨false, false⟩ : Pool 2 Nat).callsTo ⟨false, false⟩
            (sentPastPanic 0 1) 1).map ExecutorCall.request) queue ∧
        queue.items = [⟨2, .high⟩, ⟨0, .low⟩] := by
  -- The run is the one that goes past the panic of the other executor.
  obtain ⟨s, run, -, loops, queued⟩ := sentPastPanic_run
  obtain ⟨queue, served, same, -⟩ := pool_executors_stable_queues (.inl rfl) run 1 loops
  exact ⟨s, run, queue, served, same.symm.trans queued⟩

end Sequential

end Imputio
