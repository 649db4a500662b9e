import Imputio.Executor.Dispatch
import Imputio.Executor.Progress
import Imputio.Runtime.Config

/-! A driver that does nothing but poll makes the executors finish every task that was spawned. -/

namespace Imputio

open Transition

/-- What is left of a backlog when a message has been taken, by what the tasks are owed. -/
def Transaction.settle (owed : TaskId → Nat) (backlog : Nat) : Transaction → Nat
  | .spawn task => backlog + owed task.innerTask
  -- A poll of empty queues is lost.
  | .poll => backlog - 1
  | .submitIoOp _ _ => backlog

/-- Messages settle a backlog by what their own tasks are owed. -/
theorem foldl_settle_congr {owed owed' : TaskId → Nat} {messages : List Transaction}
    (same : ∀ task, .spawn task ∈ messages → owed' task.innerTask = owed task.innerTask)
    (backlog : Nat) : messages.foldl (Transaction.settle owed') backlog =
      messages.foldl (Transaction.settle owed) backlog := by
  -- The sum goes over the messages in order, and only spawned tasks count in it.
  refine List.foldl_ext _ _ _ fun before message there => ?_
  cases message with
  -- Only a task that is spawned brings in what it is owed.
  | spawn task => rw [Transaction.settle, Transaction.settle, same task there]
  | poll => rfl
  | submitIoOp op call => rfl

/-- What an executor holds is in its channel or in its queues. -/
theorem Executor.mem_held {exec : Executor} {id : TaskId} :
    id ∈ exec.held ↔ id ∈ ids exec.inChannel ∨ id ∈ ids exec.queued := by
  rw [Executor.held, Multiset.mem_add, Executor.ids_queued, Ledger.total]

/-- A task in the channel of an executor came with a message that is there. -/
theorem Executor.mem_inChannel {exec : Executor} {task : ImputioTask} :
    task ∈ exec.inChannel ↔ .spawn task ∈ exec.rx.queue := by
  -- Each message carries one task at most.
  rw [Executor.inChannel, List.mem_filterMap]
  constructor
  · rintro ⟨message, there, carries⟩
    cases message with
    -- Other messages carry no task.
    | spawn other =>
      obtain rfl := Option.some.inj carries
      exact there
    | poll => simp [Transaction.task] at carries
    | submitIoOp op call => simp [Transaction.task] at carries
  · intro there
    exact ⟨_, there, rfl⟩

/-- In a turn in which an executor takes another message, no task is polled. -/
theorem Pool.polledTask_of_takes {n : Nat} {V : Type*} {features : Features} {s : Pool n V}
    {act : PoolAction n V} {worker : Fin n} {message : Transaction}
    (taken : s.takes worker act = some message) (other : message ≠ .poll) :
    s.polledTask features act = none := by
  -- A task is polled only where the front is a request to poll.
  cases act with
  | recv receiver coin outcome =>
    obtain ⟨⟨rfl, receiving⟩, front⟩ := Option.ite_none_right_eq_some.mp taken
    simp [polledTask, front, other]
  | _ => rfl

/-- An executor that listens is sent what a call dispatches to it. -/
theorem Pool.puts_of_dispatched {n : Nat} {V : Type*} {s : Pool n V} {worker : Fin n}
    (connected : (s.executors worker).rx.connected = true) (act : PoolAction n V) :
    (s.puts worker act = some .poll ↔ s.dispatched act = some (.poll, worker.val)) ∧
      ∀ task, s.puts worker act = some (.spawn task) →
        ∃ priority, s.dispatched act = some (.spawn priority, worker.val) := by
  -- What is dispatched is put into the channel as a message of its kind.
  cases act with
  | send call =>
    -- Only a call that has stored its index sends anything.
    cases asked : s.calls call with
    | stored request index =>
      cases request <;> simp [puts, dispatched, asked, connected, message]
    | _ => simp [puts, dispatched, asked]
  | _ => simp [puts, dispatched]

namespace FuturePool

variable {n : Nat} {σ V : Type*} {features : Features} {poll : PollFn σ V}
  {s t : FuturePool n σ V} {act : FutureAction n σ V} {worker : Fin n} {work : σ → Nat}

/-- How often an executor still has to poll once it has taken all messages in its channel. -/
def due (work : σ → Nat) (s : FuturePool n σ V) (worker : Fin n) : Nat :=
  (s.pool.executors worker).rx.queue.foldl (Transaction.settle (s.owed work))
    (s.backlog work worker)

/-- What is known of the tasks that an executor holds, in its queues or in its channel. -/
structure Drains (poll : PollFn σ V) (work : σ → Nat) (s : FuturePool n σ V) (worker : Fin n) :
    Prop where
  followed : s.Followed poll
  ends : ∀ id ∈ (s.pool.executors worker).held, s.Ends poll work id

/-- A task that an executor holds was made before. -/
theorem Followed.held_old (followed : s.Followed poll) {id : TaskId}
    (there : id ∈ (s.pool.executors worker).held) : id < s.pool.nextTask := by
  -- Every place that holds a task holds one that was spawned.
  have conserves := followed.tracked.conserves
  rcases Executor.mem_held.mp there with sent | queued
  · exact conserves.spawned_iff.mpr ⟨.channel worker, sent⟩
  · obtain ⟨level, place⟩ := Pool.mem_queued.mp queued
    exact conserves.spawned_iff.mpr ⟨_, place⟩

/-- The tasks in the queues are among those that an executor holds. -/
theorem Drains.worksOff (drains : s.Drains poll work worker) : s.WorksOff poll work worker :=
  ⟨drains.followed, fun id there => drains.ends id (Executor.mem_held.mpr (.inr there))⟩

/-- What a step puts into a channel is decided by the state, not by the outcome of a poll. -/
theorem puts_determined (poll : PollFn σ V) (act : PoolAction n V) :
    s.pool.puts worker (s.determined features poll act) = s.pool.puts worker act := by
  -- Only the turn of a loop has an outcome, and it puts nothing into the channels.
  cases act with
  | recv receiver coin outcome =>
    simp only [determined]
    split <;> rfl
  | _ => rfl

/-- A task in a channel is not polled, so it is owed what it was owed. -/
theorem Drains.owed_sent (drains : s.Drains poll work worker)
    (step : Steps (next features poll) s act t) {task : ImputioTask}
    (sent : .spawn task ∈ (s.pool.executors worker).rx.queue) :
    t.owed work task.innerTask = s.owed work task.innerTask := by
  -- Each task is in one place, and a poll takes from the queues only.
  have conserves := drains.followed.tracked.conserves
  have here : task.innerTask ∈ ids (s.pool.tasksAt (.channel worker)) :=
    Pool.mem_ids.mpr ⟨task, Executor.mem_inChannel.mpr sent, rfl⟩
  have old := conserves.spawned_iff.mpr ⟨_, here⟩
  have unpolled : s.polled features act.act ≠ some task.innerTask := by
    intro polled
    obtain ⟨other, picked, same⟩ := Option.map_eq_some_iff.mp polled
    -- What is polled comes out of a queue, where this task is not.
    obtain ⟨at', level, queued⟩ := Pool.queued_of_polledTask picked
    have elsewhere : task.innerTask ∈ ids (s.pool.tasksAt (.queue at' level)) :=
      Pool.mem_ids.mpr ⟨other, queued, same⟩
    exact absurd (conserves.same_place here elsewhere) (by simp)
  rw [(owed_of_step step old).2, if_neg unpolled, Nat.sub_zero]

/-- Where an executor takes no task out of its channel, the polls bring it nearer to its end. -/
theorem Drains.step_settled {io : Bool} (drains : s.Drains poll work worker)
    (loops : t.pool.InLoop worker)
    (settled : ∀ task, s.pool.takes worker act.act ≠ some (.spawn task))
    (channel : (t.pool.executors worker).inChannel = (s.pool.executors worker).inChannel)
    (step : Steps (next ⟨false, io⟩ poll) s act t) :
    t.Drains poll work worker ∧
      t.backlog work worker = s.backlog work worker -
        if s.pool.takes worker act.act = some .poll then 1 else 0 := by
  -- The queues are worked off as before, and the channel has the same tasks.
  obtain ⟨works, fewer, -⟩ := drains.worksOff.step loops settled step
  refine ⟨⟨works.followed, fun id there => ?_⟩, fewer⟩
  rcases Executor.mem_held.mp there with sent | queued
  · rw [channel] at sent
    have before := Executor.mem_held.mpr (.inl sent)
    exact (drains.ends id before).step step (drains.followed.held_old before)
  · exact works.ends id queued

/-- A task that is taken out of the channel is in the queues, and what is owed stays the same. -/
theorem Drains.step_enqueued {task : ImputioTask} {rest : List Transaction}
    (drains : s.Drains poll work worker)
    (unpolled : s.pool.polledTask features act.act = none)
    (front : (s.pool.executors worker).rx.queue = .spawn task :: rest)
    (queue : (t.pool.executors worker).rx.queue = rest)
    (tasks : (t.pool.executors worker).tasks = ((s.pool.executors worker).spawn task).tasks)
    (step : Steps (next features poll) s act t) :
    t.Drains poll work worker ∧
      t.backlog work worker = s.backlog work worker + s.owed work task.innerTask := by
  -- The task moves from the channel to a queue, and nobody is polled meanwhile.
  have waiting : t.waiting worker = {task.innerTask} + s.waiting worker := by
    rw [FuturePool.waiting, Executor.queued, tasks]
    exact Executor.ids_pushed _ task
  have channel : (s.pool.executors worker).inChannel =
      task :: (t.pool.executors worker).inChannel := by
    rw [Executor.inChannel, front, Executor.inChannel, queue]
    rfl
  -- The executor holds what it has held.
  have held : ∀ id ∈ (t.pool.executors worker).held, id ∈ (s.pool.executors worker).held := by
    intro id there
    rw [Executor.mem_held] at there ⊢
    rw [channel, ids_cons, Multiset.mem_add]
    rcases there with sent | queued
    · exact .inl (.inr sent)
    · rw [← FuturePool.waiting, waiting, Multiset.mem_add] at queued
      exact queued.imp_left .inl
  have same : ∀ id ∈ (s.pool.executors worker).held, t.owed work id = s.owed work id := by
    intro id there
    rw [(owed_of_step step (drains.followed.held_old there)).2, polled, unpolled, if_neg (by simp),
      Nat.sub_zero]
  refine ⟨⟨drains.followed.step step, fun id there => ?_⟩, ?_⟩
  · have before := held id there
    exact (drains.ends id before).step step (drains.followed.held_old before)
  · have taken : task.innerTask ∈ (s.pool.executors worker).held := by
      rw [Executor.mem_held, channel, ids_cons]
      exact .inl (Multiset.mem_add.mpr (.inl (Multiset.mem_singleton_self _)))
    have others : ((s.waiting worker).map (t.owed work)).sum = s.backlog work worker :=
      congrArg _ (Multiset.map_congr rfl fun id there =>
        same id (Executor.mem_held.mpr (.inr there)))
    rw [backlog, waiting, Multiset.map_add, Multiset.sum_add, Multiset.map_singleton,
      Multiset.sum_singleton, others, same _ taken, Nat.add_comm]

/--
What an executor still has to poll, once its channel is empty, gets less by one with every poll that
is sent to it, whatever it does in the meantime.
-/
theorem Drains.step {io : Bool} (drains : s.Drains poll work worker)
    (loops : t.pool.InLoop worker)
    (unsent : ∀ task, s.pool.puts worker act.act ≠ some (.spawn task))
    (step : Steps (next ⟨false, io⟩ poll) s act t) :
    t.Drains poll work worker ∧
      t.due work worker = s.due work worker -
        if s.pool.puts worker act.act = some .poll then 1 else 0 := by
  -- The messages that stay in the channel settle a backlog as before.
  have settles : ∀ {rest}, rest ⊆ (s.pool.executors worker).rx.queue → ∀ backlog,
      rest.foldl (Transaction.settle (t.owed work)) backlog =
        rest.foldl (Transaction.settle (s.owed work)) backlog :=
    fun among => foldl_settle_congr fun task there => drains.owed_sent step (among there)
  cases Pool.local_of_step worker (pool_step step) with
  -- Nothing comes in and nothing is taken, so nothing is settled.
  | kept unput untaken queue tasks =>
    rw [puts_determined] at unput
    rw [takes_determined] at untaken
    obtain ⟨drains', fewer⟩ := drains.step_settled loops (by simp [untaken])
      (by rw [Executor.inChannel, queue, Executor.inChannel]) step
    refine ⟨drains', ?_⟩
    rw [due, queue, settles (List.Subset.refl _), fewer, untaken, unput, due]
    simp
  | @put message put untaken queue tasks =>
    rw [puts_determined] at put
    rw [takes_determined] at untaken
    -- The message goes to the end of the channel, where a poll takes one off what is due.
    have plain : message.task = none := by
      cases message with
      | spawn task => exact absurd put (unsent task)
      | poll => rfl
      | submitIoOp op call => rfl
    obtain ⟨drains', fewer⟩ := drains.step_settled loops (by simp [untaken])
      (by simp [Executor.inChannel, queue, plain]) step
    refine ⟨drains', ?_⟩
    rw [untaken, if_neg (by simp), Nat.sub_zero] at fewer
    rw [due, queue, List.foldl_append, settles (List.Subset.refl _), fewer, put, ← due]
    cases message with
    | spawn task => simp [Transaction.task] at plain
    | poll => rfl
    | submitIoOp op call => rfl
  | left unput exited => exact absurd exited loops
  | @took coin outcome message rest turn receiving front queue silent called =>
    have taken : s.pool.takes worker act.act = some message := by
      rw [← takes_determined, turn, Pool.takes_recv receiving, front, List.head?_cons]
    have unput : s.pool.puts worker act.act = none := by
      rw [← puts_determined, turn]
      rfl
    -- Taking the oldest message does to the backlog what the message says.
    have among : rest ⊆ (s.pool.executors worker).rx.queue := by
      rw [front]
      exact List.subset_cons_self _ _
    have same : message.task = none →
        (t.pool.executors worker).inChannel = (s.pool.executors worker).inChannel := by
      intro plain
      rw [Executor.inChannel, queue, Executor.inChannel, front, List.filterMap_cons_none plain]
    rw [due, queue, settles among, unput, due, front, List.foldl_cons]
    cases message with
    | spawn task =>
      obtain ⟨after, done, tasks⟩ := called _ rfl
      obtain rfl := Option.some.inj done
      -- The task moves on to the queues, with the same polls ahead.
      obtain ⟨drains', more⟩ := drains.step_enqueued
        (Pool.polledTask_of_takes taken (by simp)) front queue tasks step
      exact ⟨drains', by simp [more, Transaction.settle]⟩
    | poll =>
      obtain ⟨drains', fewer⟩ := drains.step_settled loops (by simp [taken]) (same rfl) step
      exact ⟨drains', by simp [fewer, taken, Transaction.settle]⟩
    | submitIoOp op call =>
      obtain ⟨drains', fewer⟩ := drains.step_settled loops (by simp [taken]) (same rfl) step
      exact ⟨drains', by simp [fewer, taken, Transaction.settle]⟩

/-- The transactions that calls send along a run, each with the index that it is meant for. -/
def dispatches (features : Features) (poll : PollFn σ V) (start : FuturePool n σ V)
    (acts : List (FutureAction n σ V)) : List (CoordinatorCall × Nat) :=
  observed (next features poll) (fun s act => s.pool.dispatched act.act) start acts

/-- The last step of a run adds the transaction that is sent in it. -/
theorem dispatches_snoc {start last : FuturePool n σ V} {acts : List (FutureAction n σ V)}
    (run : Run (Steps (next features poll)) start acts last) (act : FutureAction n σ V) :
    start.dispatches features poll (acts ++ [act]) =
      start.dispatches features poll acts ++ (last.pool.dispatched act.act).toList :=
  run.observed_snoc act

/-- Along a run an executor gets nearer to its end with every poll that is dispatched to it. -/
theorem Drains.run {io : Bool} {mid last : FuturePool n σ V} {acts : List (FutureAction n σ V)}
    (drains : mid.Drains poll work worker)
    (run : Run (Steps (next ⟨false, io⟩ poll)) mid acts last) (loops : last.pool.InLoop worker)
    (unsent : ∀ priority, (.spawn priority, worker.val) ∉ mid.dispatches ⟨false, io⟩ poll acts) :
    last.Drains poll work worker ∧
      last.due work worker = mid.due work worker -
        (mid.dispatches ⟨false, io⟩ poll acts).count (.poll, worker.val) := by
  -- The induction is on the run, which is extended at its end.
  induction run with
  | nil => exact ⟨drains, rfl⟩
  | @snoc acts s t act earlier step ih =>
    have before := loops.before (pool_step step)
    rw [dispatches_snoc earlier] at unsent ⊢
    obtain ⟨drains', fewer⟩ := ih before fun priority among =>
      unsent priority (List.mem_append_left _ among)
    -- The executor is in its loop, so it is sent what is dispatched to it.
    obtain ⟨polls, spawns⟩ := Pool.puts_of_dispatched
      ((drains'.followed.tracked.connected worker).mpr before) act.act
    obtain ⟨drains'', fewer'⟩ := drains'.step loops (fun task put => by
      obtain ⟨priority, now⟩ := spawns task put
      exact unsent priority (List.mem_append_right _ (by simp [now]))) step
    refine ⟨drains'', ?_⟩
    rw [fewer', fewer, List.count_append, count_toList, Nat.sub_sub]
    simp only [polls]

end FuturePool

namespace Pool

/-- An executor is dealt one poll in every round of polls, beginning with its own turn. -/
theorem count_dealt_polls {n index : Nat} (below : index < n) (turns : Nat) :
    (dealt n (List.replicate turns .poll)).count (.poll, index) + (n - index) / n =
      (turns + (n - index)) / n := by
  -- The induction adds one poll, which completes a round or does not.
  have positive : 0 < n := Nat.zero_lt_of_lt below
  induction turns with
  | zero => simp [dealt]
  | succ turns ih =>
    -- The turn falls on the executor exactly when another round is complete.
    have round : n ∣ turns + (n - index) + 1 ↔ (turns + 1) % n = index := by
      rw [Nat.dvd_iff_mod_eq_zero, show turns + (n - index) + 1 = turns + 1 + (n - index) by omega,
        Nat.add_mod_eq_ite]
      have small := Nat.mod_lt (turns + 1) positive
      rcases Nat.eq_zero_or_pos index with rfl | above
      · rw [Nat.sub_zero, Nat.mod_self, Nat.add_zero, if_neg (by omega)]
      · rw [Nat.mod_eq_of_lt (show n - index < n by omega)]
        split <;> omega
    rw [List.replicate_succ', dealt_concat, List.count_append, List.length_replicate,
      show turns + 1 + (n - index) = turns + (n - index) + 1 by omega, Nat.succ_div, ← ih]
    by_cases here : (turns + 1) % n = index
    · rw [if_pos (round.mpr here), here]
      simp
      omega
    · rw [if_neg (fun divides => here (round.mp divides))]
      simp [here]

/-- Between two calls all transactions that are due have been sent. -/
theorem InTurn.sent_eq {n : Nat} {V : Type*} {s : Pool n V} {made : List CoordinatorCall}
    {sent : List (CoordinatorCall × Nat)} (turn : InTurn s made sent)
    (idle : ∀ call, (s.calls call).dispatching = false) : sent = dealt n made := by
  -- Between two calls everything is sent, and within one the call would not be idle.
  cases turn with
  | between => rfl
  | @within earlier request call last progress others =>
    -- The call that is on its way is not idle.
    have calm := idle call
    rcases progress with loaded | ⟨stored, -⟩
    · simp [loaded, CallProgress.dispatching] at calm
    · simp [stored, CallProgress.dispatching] at calm

/-- When no call that was made is on its way, none is. -/
theorem Awaited.idle {n : Nat} {V : Type*} {s : Pool n V} (awaited : s.Awaited) (idle : s.Idle)
    (call : CallId) : (s.calls call).dispatching = false := by
  -- A call that was not made is unused.
  rcases Nat.lt_or_ge call s.nextCall with old | beyond
  · exact idle call old
  · rw [awaited.unused call beyond]
    rfl

end Pool

namespace FuturePool

variable {n : Nat} {σ V : Type*} {features : Features} {poll : PollFn σ V}
  {start mid last : FuturePool n σ V} {acts : List (FutureAction n σ V)}

/-- A task keeps its future along a run. -/
theorem Followed.spawned_kept (followed : start.Followed poll)
    (run : Run (Steps (next features poll)) start acts last) {id : TaskId} {future : σ}
    (spawned : start.spawned id = some future) :
    last.Followed poll ∧ last.spawned id = some future := by
  -- A step owes a task less at most, and its future is the one that was spawned.
  induction run with
  | nil => exact ⟨followed, spawned⟩
  | snoc _ step ih =>
    obtain ⟨followed', kept⟩ := ih
    have old := followed'.made id future kept
    obtain ⟨same, -⟩ : _ = _ ∧ _ = owed (fun _ => 0) _ id - _ := owed_of_step step old
    exact ⟨followed'.step step, same.trans kept⟩

/-- A task that was polled to its end has sent the value of its future. -/
theorem Followed.sent_of_finished (followed : last.Followed poll) {task : ImputioTask}
    (finished : task ∈ last.pool.finished) {future : σ} {turns : Nat} {val : V}
    (spawned : last.spawned task.innerTask = some future)
    (ready : poll.ReadyAfter turns future val) :
    last.sent task.innerTask = [val] ∧ (last.pool.cells task.innerTask).result = some val := by
  -- It has ended after one of its polls, which cannot have been an early one.
  have follows := followed.follows _ future spawned
  have ended : last.pool.Ended task := .inl finished
  have resolved := (followed.tracked.resolved task (followed.tracked.ended task ended)).mpr ended
  obtain ⟨turn, polled, ended'⟩ := follows.resolved.mp resolved
  have late : turns ≤ turn := by
    by_contra early
    exact ended' (ready.1 turn (by omega))
  have sent := follows.sent_eq ready
  rw [if_pos (by omega)] at sent
  exact ⟨sent, follows.result.trans (congrArg List.head? sent)⟩

/-- A call only polls, and it is made after the one before has sent its transaction. -/
def PollsAlone (s : FuturePool n σ V) (act : FutureAction n σ V) : Prop :=
  act.act.request ≠ none → act.act.request = some .poll ∧ s.pool.Idle

instance (s : FuturePool n σ V) (act : FutureAction n σ V) : Decidable (s.PollsAlone act) :=
  inferInstanceAs (Decidable (_ → _))

/-- How many calls are made along a list of actions. -/
def callsMade (acts : List (FutureAction n σ V)) : Nat :=
  (requests (acts.map FutureAction.act)).length

/-- The last action makes one more call if it makes any. -/
theorem callsMade_snoc (acts : List (FutureAction n σ V)) (act : FutureAction n σ V) :
    callsMade (acts ++ [act]) = callsMade acts + act.act.request.toList.length := by
  rw [callsMade, List.map_append, requests, List.filterMap_append, List.length_append]
  cases asks : act.act.request <;> simp [asks, callsMade, requests]

/-- Along a run in which only polls are called, one after the other, they are served in turn. -/
theorem inTurn_of_polls {turns : Nat} (positive : 0 < n) (small : n ≤ usizeMax)
    (turn : Pool.InTurn mid.pool (List.replicate turns .poll)
      (dealt n (List.replicate turns .poll)))
    (awaited : mid.pool.Awaited)
    (run : Run (Guarded PollsAlone (Steps (next features poll))) mid acts last) :
    last.pool.Awaited ∧ Pool.InTurn last.pool (List.replicate (turns + callsMade acts) .poll)
      (dealt n (List.replicate turns .poll) ++ mid.dispatches features poll acts) := by
  -- The induction carries how many polls were called and which of them were sent.
  induction run with
  | nil => exact ⟨awaited, by simpa [dispatches, observed, callsMade, requests] using turn⟩
  | @snoc acts s t act earlier taken ih =>
    obtain ⟨awaited', turn'⟩ := ih
    have inner := pool_step taken.2
    -- What a step asks for and sends has nothing to do with the outcome of a poll.
    have same : (s.determined features poll act.act).request = act.act.request ∧
        s.pool.dispatched (s.determined features poll act.act) = s.pool.dispatched act.act := by
      cases act.act with
      | recv receiver coin outcome =>
        simp only [determined]
        split <;> exact ⟨rfl, rfl⟩
      | _ => exact ⟨rfl, rfl⟩
    -- A call is made only when no other one is on its way, so the index moves by one.
    have alone : s.pool.OneAtATime (s.determined features poll act.act) := by
      intro asks
      rw [same.1] at asks
      exact (taken.1 asks).2
    have after := turn'.step positive small awaited' alone inner
    rw [same.1, same.2, List.append_assoc] at after
    refine ⟨awaited'.step inner, ?_⟩
    rw [dispatches_snoc earlier.unguard]
    rw [callsMade_snoc]
    cases asks : act.act.request with
    | none =>
      rw [asks] at after
      simpa using after
    -- The call is one more poll in the row.
    | some request =>
      obtain ⟨polls, -⟩ := taken.1 (by simp [asks])
      obtain rfl := Option.some.inj (asks.symm.trans polls)
      rw [asks] at after
      rw [Option.toList_some, List.length_singleton, ← Nat.add_assoc, List.replicate_succ']
      exact after

end FuturePool

section Draining

variable {n : Nat} {σ V : Type*} {io : Bool} {poll : PollFn σ V} {work : σ → Nat}
  {start : Pool n V} {mid last : FuturePool n σ V} {before acts : List (FutureAction n σ V)}

/-- While all executors are in their loops, no task has been refused. -/
theorem Pool.none_failed {features : Features} {acts : List (PoolAction n V)} {s : Pool n V}
    (fresh : start.Fresh features) (run : Run (Steps (Pool.next features)) start acts s)
    (loops : ∀ worker, s.InLoop worker) : s.failed = [] := by
  -- The induction goes back to the start, where the list is empty.
  induction run with
  | nil => rcases fresh with rfl | rfl <;> rfl
  | @snoc acts s t act earlier step ih =>
    have looped := ih fun worker => (loops worker).before step
    have tracked := earlier.invariant fresh.tracked fun _ _ _ before step =>
      (Pool.step_effect step).tracked before
    -- Only an executor that is gone refuses a task, and it does not come back.
    rcases (Pool.step_effect step).makes with ⟨-, -, made⟩ | ⟨-, same, -⟩
    · cases made with
      | accepted call priority index inRange sending asked connected received failed =>
        rw [failed, looped]
      | refused call priority index inRange sending asked gone received failed =>
        have listens := (tracked.connected _).mpr ((loops ⟨index, inRange⟩).before step)
        simp [gone] at listens
    · rw [same, looped]

/-- A run of a pool with futures is one of the pool. -/
theorem FuturePool.run_pool {features : Features} {s t : FuturePool n σ V}
    (run : Run (Steps (FuturePool.next features poll)) s acts t) :
    ∃ acts', Run (Steps (Pool.next features)) s.pool acts' t.pool := by
  -- By induction on the run, where each step is one of the pool.
  induction run with
  | nil => exact ⟨[], .nil⟩
  | snoc _ step ih =>
    obtain ⟨acts', run⟩ := ih
    exact ⟨_, run.snoc (pool_step step)⟩

/--
A driver that polls, and nobody else calling, makes the executors finish every task.

The driver deals its polls to the executors in turn. Once it has made as many calls as there are
executors for each poll that the longest backlog needs, what was spawned before in channels
included, and the executors have emptied their channels, every task has sent the value of its
future.
-/
theorem polls_drain_pool (positive : 0 < n) (fits : n ≤ isizeMax) (fresh : start.Fresh ⟨false, io⟩)
    (first : Run (Steps (FuturePool.next ⟨false, io⟩ poll)) (.started start) before mid)
    (idle : mid.pool.Idle) (ends : ∀ id < mid.pool.nextTask, mid.Ends poll work id)
    (later : Run (Guarded FuturePool.PollsAlone (Steps (FuturePool.next ⟨false, io⟩ poll))) mid
      acts last)
    (idle' : last.pool.Idle) (loops : ∀ worker, (last.pool.executors worker).state ≠ .exited)
    (emptied : ∀ worker, (last.pool.executors worker).rx.queue = [])
    (enough : ∀ worker, n * mid.due work worker ≤ FuturePool.callsMade acts) :
    (∀ worker, (last.pool.executors worker).queued = []) ∧
      ∀ id < mid.pool.nextTask, ∃ future val, mid.spawned id = some future ∧
        poll.ReadyAfter (work future) future val ∧ last.sent id = [val] ∧
        (last.pool.cells id).result = some val := by
  -- Every executor is sent as many polls as it is due, so that its backlog comes to nothing.
  have small : n ≤ usizeMax := fits.trans (by decide)
  have followed : mid.Followed poll :=
    first.invariant (.init fresh) fun _ _ _ before step => before.step step
  obtain ⟨acts₁, firstPool⟩ := FuturePool.run_pool first
  obtain ⟨acts₂, laterPool⟩ := FuturePool.run_pool later.unguard
  have awaited : mid.pool.Awaited :=
    firstPool.invariant fresh.awaited fun _ _ _ before step => before.step step
  have range : mid.pool.DispatchesInRange := by
    refine firstPool.invariant ?_ fun _ _ _ range step => range.step fits step
    rcases fresh with rfl | rfl
    all_goals exact ⟨positive.ne', positive, show 0 < usizeMax by decide, fun _ => trivial⟩
  -- The calls before are as good as polls that have brought the index to where it is.
  have turn : Pool.InTurn mid.pool (List.replicate mid.pool.index .poll)
      (dealt n (List.replicate mid.pool.index .poll)) :=
    .between (awaited.idle idle) (by rw [List.length_replicate, Nat.mod_eq_of_lt range.index])
  obtain ⟨awaited', turn'⟩ := FuturePool.inTurn_of_polls positive small turn awaited later
  have sent := turn'.sent_eq (awaited'.idle idle')
  have drained : ∀ worker, (last.pool.executors worker).queued = [] := by
    intro worker
    -- The driver spawns nothing, so all that is sent are polls.
    have unsent : ∀ priority,
        (.spawn priority, worker.val) ∉ mid.dispatches ⟨false, io⟩ poll acts := by
      intro priority there
      have among := List.mem_append_right (dealt n (List.replicate mid.pool.index .poll)) there
      rw [sent, dealt, List.mem_mapIdx] at among
      obtain ⟨turn, below, same⟩ := among
      simp at same
    have drains : mid.Drains poll work worker :=
      ⟨followed, fun id there => ends id (followed.held_old there)⟩
    obtain ⟨drains', fewer⟩ := drains.run later.unguard (loops worker) unsent
    -- In every round the executor has its turn.
    have counted := Pool.count_dealt_polls worker.isLt
      (mid.pool.index + FuturePool.callsMade acts)
    rw [← sent, List.count_append] at counted
    have before := Pool.count_dealt_polls worker.isLt mid.pool.index
    have rounds : mid.due work worker ≤ FuturePool.callsMade acts / n :=
      (Nat.le_div_iff_mul_le positive).mpr (by rw [Nat.mul_comm]; exact enough worker)
    have total : (mid.pool.index + (n - worker.val)) / n + FuturePool.callsMade acts / n ≤
        (mid.pool.index + FuturePool.callsMade acts + (n - worker.val)) / n := by
      rw [Nat.add_right_comm]
      exact Nat.div_add_div_le_add_div
    -- With an empty channel, what is due is the backlog.
    have settled : last.backlog work worker = 0 := by
      rw [FuturePool.due, emptied worker, List.foldl_nil] at fewer
      omega
    exact drains'.worksOff.queued_of_backlog settled
  refine ⟨drained, fun id old => ?_⟩
  obtain ⟨future, val, spawned, ready⟩ := ends id old
  obtain ⟨followed', kept⟩ := followed.spawned_kept later.unguard spawned
  have conserves := followed'.tracked.conserves
  -- All other places are empty, so the task is among the finished ones.
  obtain ⟨place, there⟩ := conserves.spawned_iff.mp (followed'.made id future kept)
  cases place with
  | channel worker => simp [Pool.tasksAt, Executor.inChannel, emptied worker] at there
  | queue worker level =>
    have queued := Pool.mem_queued.mpr ⟨level, there⟩
    simp [drained worker] at queued
  | finished =>
    obtain ⟨task, finished, rfl⟩ := Pool.mem_ids.mp there
    exact ⟨future, val, spawned, ready, followed'.sent_of_finished finished kept ready⟩
  | discarded =>
    obtain ⟨task, discarded, rfl⟩ := Pool.mem_ids.mp there
    -- Tasks are discarded by executors that leave, or for want of one that listens.
    rcases conserves.accounted .discarded task discarded with refused | ⟨worker, exited, -⟩
    · rw [Pool.none_failed fresh (firstPool.append laterPool) loops] at refused
      simp at refused
    · exact absurd exited (loops worker)

/-- Two tasks are spawned, four polls are called, and the executors take everything. -/
def spreadCountdowns {n : Nat} (first second : Fin n) : List (FutureAction n Nat Nat) :=
  [⟨.call (.spawn .low), 0⟩, ⟨.store 0, 0⟩, ⟨.send 0, 1⟩, ⟨.call (.spawn .low), 0⟩, ⟨.store 1, 0⟩,
    ⟨.send 1, 0⟩, ⟨.call .poll, 0⟩, ⟨.store 2, 0⟩, ⟨.send 2, 0⟩, ⟨.call .poll, 0⟩, ⟨.store 3, 0⟩,
    ⟨.send 3, 0⟩, ⟨.call .poll, 0⟩, ⟨.store 4, 0⟩, ⟨.send 4, 0⟩, ⟨.call .poll, 0⟩, ⟨.store 5, 0⟩,
    ⟨.send 5, 0⟩] ++
  (List.replicate 3 [⟨.recv first false .pending, 0⟩, ⟨.check first, 0⟩,
    ⟨.recv second false .pending, 0⟩, ⟨.check second, 0⟩]).flatten

/-- Two executors with a task each, of which one is pending once, are done after four polls. -/
theorem polls_drain_pool_spread :
    ∃ mid last : FuturePool 2 Nat Nat,
      Run (Steps (FuturePool.next ⟨false, false⟩ (countdown 7)))
        (.started (.initialized ⟨false, false⟩)) ((spreadCountdowns 0 1).take 6) mid ∧
      Run (Steps (FuturePool.next ⟨false, false⟩ (countdown 7))) mid
        ((spreadCountdowns 0 1).drop 6) last ∧
      mid.due id 0 = 1 ∧ mid.due id 1 = 2 ∧
      ∀ task < 2, (last.pool.cells task).result = some 7 := by
  -- The two parts of the run are replayed, the second one with its condition tested.
  have replayed : (replay (FuturePool.next ⟨false, false⟩ (countdown 7))
      (.started (.initialized ⟨false, false⟩) : FuturePool 2 Nat Nat)
      ((spreadCountdowns 0 1).take 6)).map (fun mid => mid.pool.nextTask == 2 &&
        decide mid.pool.Idle && mid.due id 0 == 1 && mid.due id 1 == 2 &&
        mid.spawned 0 == some 1 && mid.spawned 1 == some 0 &&
        (replay (checked FuturePool.PollsAlone (FuturePool.next ⟨false, false⟩ (countdown 7))) mid
          ((spreadCountdowns 0 1).drop 6)).any (fun last => decide last.pool.Idle &&
            decide (∀ worker, (last.pool.executors worker).state ≠ .exited ∧
              (last.pool.executors worker).rx.queue = []))) = some true := by
    decide
  obtain ⟨mid, first, tested⟩ := Run.of_replay_test replayed
  simp only [Bool.and_eq_true, beq_iff_eq, decide_eq_true_eq] at tested
  obtain ⟨⟨⟨⟨⟨⟨tasks, idle⟩, dueFirst⟩, dueSecond⟩, zero⟩, one⟩, rest⟩ := tested
  obtain ⟨last, reached, final⟩ := (Option.any_eq_true _ _).mp rest
  simp only [Bool.and_eq_true, decide_eq_true_eq] at final
  have later := (Run.of_replay reached).mono guarded_of_checked
  have ends : ∀ task < mid.pool.nextTask, mid.Ends (countdown 7) id task := by
    intro task below
    rw [tasks] at below
    rcases Nat.le_one_iff_eq_zero_or_eq_one.mp (Nat.le_of_lt_succ below) with rfl | rfl
    · exact ⟨1, 7, zero, countdown_ready 7 1⟩
    · exact ⟨0, 7, one, countdown_ready 7 0⟩
  obtain ⟨-, finishes⟩ := polls_drain_pool (by decide) (by decide) (.inl rfl) first idle ends later
    final.1 (fun worker => (final.2 worker).1) (fun worker => (final.2 worker).2)
    (by rw [Fin.forall_fin_two, dueFirst, dueSecond]; decide)
  refine ⟨mid, last, first, later.unguard, dueFirst, dueSecond, fun task below => ?_⟩
  obtain ⟨future, val, -, ready, -, result⟩ := finishes task (by rw [tasks]; exact below)
  rw [result, (ready.unique (countdown_ready 7 future)).2]

end Draining

end Imputio
