import Imputio.Executor.Agreement
import Imputio.Executor.Sequential

/-! An executor that goes on taking requests to poll finishes the tasks that it has. -/

namespace Imputio

open Transition

namespace Executor

variable {features : Features} {exec : Executor}

/-- The names of the tasks in the queues, level by level. -/
theorem ids_queued (exec : Executor) :
    ids exec.queued = Ledger.total fun level => ids (exec.tasks level) := by
  have every := ids_flatMap exec.tasks fun _ => true
  simpa [queued, Ledger.total] using every

/-- A task that is taken out of its queue is what the other queues are short of. -/
theorem ids_popped {after : Executor} {level : Fin 5} {task : ImputioTask}
    {rest : List ImputioTask} (popped : exec.tasks level = task :: rest)
    (tasks : after.tasks = Function.update exec.tasks level rest) :
    ids exec.queued = {task.innerTask} + ids after.queued := by
  -- Only the queue that the task was in changes, so the sums differ by the task.
  ext id
  have counted := count_queues exec.tasks level rest id
  rw [popped, ids_cons, Multiset.count_add] at counted
  rw [ids_queued, ids_queued, tasks, Multiset.count_add]
  omega

/-- A task that is put back is in the queues again. -/
theorem ids_pushed (exec : Executor) (task : ImputioTask) :
    ids (exec.spawn task).queued = {task.innerTask} + ids exec.queued := by
  -- The names are counted queue by queue.
  ext id
  have counted := count_queues exec.tasks task.priority.index
    (exec.tasks task.priority.index ++ [task]) id
  -- The queue of the task's own level is one longer.
  have total : ids (exec.spawn task).queued = Ledger.total fun level =>
      ids (Function.update exec.tasks task.priority.index
        (exec.tasks task.priority.index ++ [task]) level) := ids_queued _
  rw [ids_append, Multiset.count_add, ids_cons, ids_nil, add_zero] at counted
  rw [total, ids_queued, Multiset.count_add]
  omega

/-- The next task is in one of the queues. -/
theorem nextTask_queued {coin : Bool} {task : ImputioTask}
    (next : exec.nextTask features coin = some task) : task.innerTask ∈ ids exec.queued := by
  -- The task is the front of one of the levels.
  obtain ⟨⟨task', after⟩, popped, rfl⟩ := Option.map_eq_some_iff.mp next
  obtain ⟨_, level, _, rest, -, -, front, -⟩ := popFront_eq_some popped
  have there : task' ∈ exec.queued :=
    List.mem_flatMap.mpr ⟨level, List.mem_finRange level, front ▸ List.mem_cons_self⟩
  exact Pool.mem_ids.mpr ⟨task', there, rfl⟩

/-- Without fairness there is a next task unless all queues are empty. -/
theorem queued_of_nextTask {io coin : Bool} (nothing : exec.nextTask ⟨false, io⟩ coin = none) :
    exec.queued = [] := by
  -- The scan goes over all five levels, whatever the coin says.
  have empty := popFront_eq_none_iff.mp (Option.map_eq_none_iff.mp nothing)
  rw [queued, List.flatMap_eq_nil_iff]
  exact fun level _ => empty level (by simp [levels])

/--
What a poll does to the names in the queues: the next task is taken out of them, and it is put back
if it is pending.
-/
theorem ids_polled {V : Type*} {coin : Bool} {outcome : FutureStep V} {after : Executor}
    (called : exec.call features (.poll coin outcome) = some after) :
    (exec.nextTask features coin = none ∧ ids after.queued = ids exec.queued) ∨
      ∃ task rest, exec.nextTask features coin = some task ∧
        ids exec.queued = {task.innerTask} + rest ∧
        (outcome ≠ .pending ∧ ids after.queued = rest ∨
          outcome = .pending ∧ ids after.queued = ids exec.queued) := by
  -- A poll finds a task or none, and a pending task goes back to where it came from.
  rw [call_poll_eq] at called
  obtain ⟨-, left⟩ := Option.ite_none_left_eq_some.mp called
  obtain rfl := Option.some.inj left
  rcases poll_cases features coin outcome exec with
    ⟨nothing, same⟩ | ⟨level, task, rest, next, front, left⟩
  · exact .inl ⟨nothing, by rw [same]; rfl⟩
  -- The task is taken out of its queue first, and then it may be put back.
  have popped : ids exec.queued = {task.innerTask} + ids ({ exec with
      pollHandle := exec.askIo features
      tasks := Function.update exec.tasks level rest } : Executor).queued :=
    ids_popped front rfl
  refine .inr ⟨task, _, next, popped, ?_⟩
  rcases left with ⟨ended, left⟩ | ⟨pending, left⟩
  · exact .inl ⟨ended, by rw [left]⟩
  · exact .inr ⟨pending, by rw [left, ids_pushed, popped]⟩

end Executor

namespace Pool

variable {n : Nat} {V : Type*} {features : Features} {s t : Pool n V} {act : PoolAction n V}
  {worker : Fin n}

/-- A name in the queues of an executor is in one of its queues. -/
theorem mem_queued {id : TaskId} : id ∈ ids (s.executors worker).queued ↔
    ∃ level, id ∈ ids (s.tasksAt (.queue worker level)) := by
  -- The list of all tasks is the five queues, one behind the other.
  simp only [mem_ids, Executor.queued, List.mem_flatMap, List.mem_finRange, true_and, tasksAt]
  constructor
  · rintro ⟨task, ⟨level, there⟩, same⟩
    exact ⟨level, task, there, same⟩
  · rintro ⟨level, task, there, same⟩
    exact ⟨task, ⟨level, there⟩, same⟩

/-- No name is in the queues of an executor twice. -/
theorem Conserves.queued_nodup (conserves : s.Conserves) (worker : Fin n) :
    (ids (s.executors worker).queued).Nodup := by
  -- The queues are a part of what the executor holds, which is a part of the whole pool.
  have held : ids (s.executors worker).queued ≤ (s.executors worker).held := by
    rw [Executor.ids_queued]
    exact Multiset.le_add_left _ _
  have among : (s.executors worker).held ≤ s.all :=
    calc (s.executors worker).held
        ≤ Ledger.total fun worker => (s.executors worker).held :=
          Finset.single_le_sum (fun _ _ => Multiset.zero_le _) (Finset.mem_univ worker)
      _ ≤ s.all := by
          rw [Pool.all, add_assoc]
          exact Multiset.le_add_right _ _
  refine Multiset.nodup_of_le (held.trans among) ?_
  rw [conserves.all]
  exact Multiset.nodup_range _

/-- The task that a step polls is in the queues of the executor that takes the request. -/
theorem polledTask_queued {task : ImputioTask} (polls : s.polledTask features act = some task) :
    ∃ worker, s.takes worker act = some .poll ∧
      task.innerTask ∈ ids (s.executors worker).queued := by
  -- Only a turn of the loop that takes a request polls anything.
  cases act with
  | recv receiver coin outcome =>
    obtain ⟨⟨receiving, front⟩, next⟩ := Option.ite_none_right_eq_some.mp polls
    exact ⟨receiver, by rw [takes_recv receiving, front], Executor.nextTask_queued next⟩
  | _ => simp [polledTask] at polls

/-- What a step in which an executor is sent no task into its queues does to these queues. -/
inductive Queues (features : Features) (s : Pool n V) (worker : Fin n) (act : PoolAction n V)
    (t : Pool n V) : Prop
  | kept (unpolled : s.takes worker act ≠ some .poll)
      (same : ids (t.executors worker).queued = ids (s.executors worker).queued)
      (others : ∀ task, s.polledTask features act = some task →
        task.innerTask ∉ ids (s.executors worker).queued)
  | idle {coin : Bool} (polls : s.takes worker act = some .poll)
      (nothing : (s.executors worker).nextTask features coin = none)
      (unpolled : s.polledTask features act = none)
      (same : ids (t.executors worker).queued = ids (s.executors worker).queued)
  | polled {task : ImputioTask} {rest : Multiset TaskId}
      (polls : s.takes worker act = some .poll) (picked : s.polledTask features act = some task)
      (popped : ids (s.executors worker).queued = {task.innerTask} + rest)
      (left : outcomeOf act ≠ .pending ∧ ids (t.executors worker).queued = rest ∨
        outcomeOf act = .pending ∧
          ids (t.executors worker).queued = ids (s.executors worker).queued)

/-- Every step that gives an executor no task does one of these to its queues. -/
theorem queues_of_step (conserves : s.Conserves) (loops : InLoop worker t)
    (settled : ∀ task, s.takes worker act ≠ some (.spawn task))
    (step : Steps (next features) s act t) : s.Queues features worker act t := by
  -- Of the messages that an executor takes only a request to poll moves a task in its queues.
  have same_ids : (t.executors worker).tasks = (s.executors worker).tasks →
      ids (t.executors worker).queued = ids (s.executors worker).queued := by
    intro same
    rw [Executor.queued, Executor.queued, same]
  -- Where the executor takes no request to poll, the task that is polled is not one of its own.
  have others : s.takes worker act ≠ some .poll → ∀ task, s.polledTask features act = some task →
      task.innerTask ∉ ids (s.executors worker).queued := by
    intro unpolled task polls here
    obtain ⟨other, taken, there⟩ := polledTask_queued polls
    obtain ⟨level, place⟩ := mem_queued.mp here
    obtain ⟨level', place'⟩ := mem_queued.mp there
    obtain ⟨rfl, -⟩ := Place.queue.inj (conserves.same_place place place')
    exact unpolled taken
  cases local_of_step worker step with
  | kept unput untaken queue tasks =>
    exact .kept (by simp [untaken]) (same_ids tasks) (others (by simp [untaken]))
  | put put untaken queue tasks =>
    exact .kept (by simp [untaken]) (same_ids tasks) (others (by simp [untaken]))
  | left unput exited => exact absurd exited loops
  | @took coin outcome message rest turn receiving front queue silent called =>
    subst turn
    have taken : s.takes worker (.recv worker coin outcome) = some message := by
      rw [takes_recv receiving, front, List.head?_cons]
    cases message with
    -- Of the three messages, only the request to poll changes the queues.
    | spawn task => exact absurd taken (settled task)
    | submitIoOp op call =>
      exact .kept (by simp [taken]) (same_ids (silent rfl)) (others (by simp [taken]))
    | poll =>
      obtain ⟨after, done, tasks⟩ := called _ rfl
      have left : ids (t.executors worker).queued = ids after.queued := by
        rw [Executor.queued, tasks, Executor.queued]
      have picks : s.polledTask features (.recv worker coin outcome) =
          (s.executors worker).nextTask features coin := by
        simp [polledTask, receiving, front]
      rcases Executor.ids_polled done with ⟨nothing, same⟩ | ⟨task, rest, next, popped, ended⟩
      · exact .idle taken nothing (picks.trans nothing) (left.trans same)
      · exact .polled taken (picks.trans next) popped (left ▸ ended)

end Pool

namespace FuturePool

variable {n : Nat} {σ V : Type*} {features : Features} {poll : PollFn σ V}
  {s t : FuturePool n σ V} {act : FutureAction n σ V} {worker : Fin n} {work : σ → Nat}

/-- How often a task has to be polled until its future ends, with as many turns as are given. -/
def owed (work : σ → Nat) (s : FuturePool n σ V) (id : TaskId) : Nat :=
  (s.spawned id).elim 0 fun future => work future + 1 - s.polls id

/-- The names of the tasks in the queues of an executor. -/
def waiting (s : FuturePool n σ V) (worker : Fin n) : Multiset TaskId :=
  ids (s.pool.executors worker).queued

/-- How often an executor has to poll until all tasks in its queues have ended. -/
def backlog (work : σ → Nat) (s : FuturePool n σ V) (worker : Fin n) : Nat :=
  ((s.waiting worker).map (s.owed work)).sum

/-- The future of a task is pending for as many turns as are given, and then it is ready. -/
def Ends (poll : PollFn σ V) (work : σ → Nat) (s : FuturePool n σ V) (id : TaskId) : Prop :=
  ∃ future val, s.spawned id = some future ∧ poll.ReadyAfter (work future) future val

/-- What is known of the tasks in the queues of an executor while it works them off. -/
structure WorksOff (poll : PollFn σ V) (work : σ → Nat) (s : FuturePool n σ V) (worker : Fin n) :
    Prop where
  followed : s.Followed poll
  ends : ∀ id ∈ s.waiting worker, s.Ends poll work id

/-- A task in the queues was made before. -/
theorem WorksOff.old (works : s.WorksOff poll work worker) {id : TaskId}
    (there : id ∈ s.waiting worker) : id < s.pool.nextTask := by
  obtain ⟨level, place⟩ := Pool.mem_queued.mp there
  exact works.followed.tracked.conserves.spawned_iff.mpr ⟨_, place⟩

/-- The future of a task in the queues has not ended. -/
theorem WorksOff.unresolved (works : s.WorksOff poll work worker) {id : TaskId}
    (there : id ∈ s.waiting worker) : ¬ (s.pool.cells id).Resolved := by
  -- A handle is resolved when its task ends, and a task that ends has left the queues.
  have tracked := works.followed.tracked
  obtain ⟨level, place⟩ := Pool.mem_queued.mp there
  obtain ⟨task, queued, rfl⟩ := Pool.mem_ids.mp place
  have made : s.pool.Made task :=
    .inr ⟨worker, (tracked.conserves.accounted _ task queued).1⟩
  rw [tracked.resolved task made]
  -- A task that has ended is at one of the ends of the pool.
  rintro (finished | crashed)
  · have elsewhere : task.innerTask ∈ ids (s.pool.tasksAt .finished) :=
      Pool.mem_ids.mpr ⟨task, finished, rfl⟩
    exact absurd (tracked.conserves.same_place place elsewhere) (by simp)
  · have elsewhere : task.innerTask ∈ ids (s.pool.tasksAt .discarded) :=
      Pool.mem_ids.mpr ⟨task, works.followed.crashed crashed, rfl⟩
    exact absurd (tracked.conserves.same_place place elsewhere) (by simp)

/-- A task in the queues has still to be polled, and no more often than its future needs. -/
theorem WorksOff.owed_pos (works : s.WorksOff poll work worker) {id : TaskId}
    (there : id ∈ s.waiting worker) : 0 < s.owed work id := by
  -- The future is ready after a known number of polls, and it has not had all of them.
  obtain ⟨future, val, spawned, ready⟩ := works.ends id there
  have follows := works.followed.follows id future spawned
  -- After the turn in which the future is ready, the task would have ended.
  have few : s.polls id ≤ work future := by
    by_contra many
    refine works.unresolved there (follows.resolved.mpr ⟨work future, by omega, ?_⟩)
    simp [ready.2]
  rw [owed, spawned, Option.elim_some]
  omega

/-- A task in the queues whose future ends at its next poll has to be polled once more. -/
theorem WorksOff.owed_eq_one (works : s.WorksOff poll work worker) {id : TaskId}
    (there : id ∈ s.waiting worker) (ended : s.pollOf poll id ≠ .pending) :
    s.owed work id = 1 := by
  -- Both bounds meet: it is owed something, and it has had all polls but one.
  have positive := works.owed_pos there
  obtain ⟨future, val, spawned, ready⟩ := works.ends id there
  have follows := works.followed.follows id future spawned
  have now : s.pollOf poll id = poll.outcome (s.polls id) future := by
    rw [pollOf, follows.state]
    rfl
  -- Before that turn the future is pending.
  have many : work future ≤ s.polls id := by
    by_contra few
    exact ended (now.trans (ready.1 _ (by omega)))
  rw [owed, spawned, Option.elim_some] at positive ⊢
  omega

/-- Where nothing has to be polled, the queues are empty. -/
theorem WorksOff.queued_of_backlog (works : s.WorksOff poll work worker)
    (nothing : s.backlog work worker = 0) : (s.pool.executors worker).queued = [] := by
  -- A task in the queues would be owed a poll, which the backlog counts.
  by_contra filled
  obtain ⟨task, there⟩ := List.exists_mem_of_ne_nil _ filled
  have queued : task.innerTask ∈ s.waiting worker := Pool.mem_ids.mpr ⟨task, there, rfl⟩
  have positive := works.owed_pos queued
  have among : s.owed work task.innerTask ≤ s.backlog work worker :=
    Multiset.le_sum_of_mem (Multiset.mem_map_of_mem _ queued)
  omega

/-- What an executor takes is decided by the state, not by the outcome of a poll. -/
theorem takes_determined (poll : PollFn σ V) (act : PoolAction n V) :
    s.pool.takes worker (s.determined features poll act) = s.pool.takes worker act := by
  -- Only the turn of a loop has an outcome, and the message is taken before it.
  cases act with
  | recv receiver coin outcome =>
    simp only [determined]
    split <;> rfl
  | _ => rfl

/-- A step is one of the coordinator and its executors. -/
theorem pool_step (step : Steps (next features poll) s act t) :
    Steps (Pool.next features) s.pool (s.determined features poll act.act) t.pool := by
  obtain ⟨pool, taken, rfl⟩ := Option.map_eq_some_iff.mp step
  exact taken

/-- A task that was made before needs one poll less after it has been polled. -/
theorem owed_of_step (step : Steps (next features poll) s act t) {id : TaskId}
    (old : id < s.pool.nextTask) : t.spawned id = s.spawned id ∧ t.owed work id =
      s.owed work id - if s.polled features act.act = some id then 1 else 0 := by
  -- What a task is owed counts down with its own polls.
  obtain ⟨pool, taken, rfl⟩ := Option.map_eq_some_iff.mp step
  -- A step makes the next task only, and this one was made before.
  have made : ¬ s.Creates pool id := fun new => absurd new.1 (Nat.ne_of_lt old)
  refine ⟨if_neg made, ?_⟩
  simp only [owed, if_neg made]
  cases s.spawned id with
  | none => simp
  | some future =>
    simp only [Option.elim_some]
    omega

/-- A task keeps the future that it was made from. -/
theorem Ends.step (step : Steps (next features poll) s act t) {id : TaskId}
    (old : id < s.pool.nextTask) (ends : s.Ends poll work id) : t.Ends poll work id := by
  -- The future that was spawned is history.
  obtain ⟨future, val, spawned, ready⟩ := ends
  obtain ⟨kept, -⟩ : t.spawned id = s.spawned id ∧ t.owed work id = _ := owed_of_step step old
  exact ⟨future, val, kept.trans spawned, ready⟩

/-- What is known of an executor, and how a step brings it nearer to its end. -/
theorem WorksOff.step {io : Bool} (works : s.WorksOff poll work worker)
    (loops : t.pool.InLoop worker)
    (settled : ∀ task, s.pool.takes worker act.act ≠ some (.spawn task))
    (step : Steps (next ⟨false, io⟩ poll) s act t) :
    t.WorksOff poll work worker ∧
      t.backlog work worker = s.backlog work worker -
        (if s.pool.takes worker act.act = some .poll then 1 else 0) ∧
      ∀ id ∈ s.waiting worker, id ∈ t.waiting worker ∨ t.owed work id = 0 := by
  -- What the step does to the queues says who is owed less: nobody, or the task it polls.
  have followed := works.followed.step step
  have owed : ∀ id ∈ s.waiting worker, t.spawned id = s.spawned id ∧ t.owed work id =
      s.owed work id - if s.polled ⟨false, io⟩ act.act = some id then 1 else 0 :=
    fun _ there => owed_of_step step (works.old there)
  have ends : ∀ id ∈ s.waiting worker, t.Ends poll work id :=
    fun id there => (works.ends id there).step step (works.old there)
  have polls : s.polled ⟨false, io⟩ act.act = (s.pool.polledTask ⟨false, io⟩
      (s.determined ⟨false, io⟩ poll act.act)).map ImputioTask.innerTask :=
    (polled_determined poll act.act).symm
  have queues := Pool.queues_of_step works.followed.tracked.conserves loops
    (by simpa only [takes_determined] using settled) (pool_step step)
  have takes : s.pool.takes worker act.act =
      s.pool.takes worker (s.determined ⟨false, io⟩ poll act.act) :=
    (takes_determined poll act.act).symm
  rw [takes]
  -- Where the queues stay the same and none of their tasks is polled, nothing is owed less.
  have kept : t.waiting worker = s.waiting worker →
      (∀ id ∈ s.waiting worker, s.polled ⟨false, io⟩ act.act ≠ some id) →
      t.WorksOff poll work worker ∧ t.backlog work worker = s.backlog work worker ∧
        ∀ id ∈ s.waiting worker, id ∈ t.waiting worker ∨ t.owed work id = 0 := by
    intro same apart
    refine ⟨⟨followed, fun id there => ends id (same ▸ there)⟩, ?_, fun id there =>
      .inl (same ▸ there)⟩
    rw [backlog, backlog, same]
    refine congrArg _ (Multiset.map_congr rfl fun id there => ?_)
    rw [(owed id there).2, if_neg (apart id there), Nat.sub_zero]
  cases queues with
  | kept unpolled same others =>
    rw [if_neg unpolled, Nat.sub_zero]
    refine kept same fun id there picked => ?_
    -- Somebody else's task may be polled in this step.
    rw [polls] at picked
    obtain ⟨task, picks, rfl⟩ := Option.map_eq_some_iff.mp picked
    exact others task picks there
  | idle asks nothing unpolled same =>
    obtain ⟨works', same', left⟩ := kept same fun id _ picked => by
      simp [polls, unpolled] at picked
    -- There is nothing to poll, and nothing is owed.
    have empty : s.waiting worker = 0 := by
      rw [waiting, Executor.queued_of_nextTask nothing, ids_nil]
    refine ⟨works', ?_, left⟩
    rw [same', backlog, empty]
    simp
  | @polled task rest asks picked popped left =>
    replace popped : s.waiting worker = {task.innerTask} + rest := popped
    rw [if_pos asks]
    rw [picked, Option.map_some] at polls
    have here : task.innerTask ∈ s.waiting worker := by
      rw [popped]
      exact Multiset.mem_add.mpr (.inl (Multiset.mem_singleton_self _))
    -- The task is in the queues once, so the others are owed what they were owed.
    have absent : task.innerTask ∉ rest := by
      have once : (s.waiting worker).Nodup :=
        works.followed.tracked.conserves.queued_nodup worker
      rw [popped, Multiset.singleton_add] at once
      exact (Multiset.nodup_cons.mp once).1
    have others : (rest.map (t.owed work)).sum = (rest.map (s.owed work)).sum := by
      refine congrArg _ (Multiset.map_congr rfl fun id there => ?_)
      have among : id ∈ s.waiting worker := by
        rw [popped]
        exact Multiset.mem_add.mpr (.inr there)
      have apart : s.polled ⟨false, io⟩ act.act ≠ some id := by
        rw [polls]
        rintro ⟨⟩
        exact absent there
      rw [(owed id among).2, if_neg apart, Nat.sub_zero]
    -- The task itself is owed one poll less.
    have less : t.owed work task.innerTask = s.owed work task.innerTask - 1 := by
      rw [(owed _ here).2, if_pos polls]
    have total : s.backlog work worker =
        s.owed work task.innerTask + (rest.map (s.owed work)).sum := by
      rw [backlog, popped, Multiset.map_add, Multiset.sum_add, Multiset.map_singleton,
        Multiset.sum_singleton]
    rw [outcomeOf_determined polls] at left
    rcases left with ⟨ended, left⟩ | ⟨pending, left⟩
    · -- The task is gone, and it was owed its last poll.
      have gone : t.waiting worker = rest := left
      have last := works.owed_eq_one here ended
      refine ⟨⟨followed, fun id there => ends id ?_⟩, ?_, fun id there => ?_⟩
      · rw [popped]
        exact Multiset.mem_add.mpr (.inr (gone ▸ there))
      · rw [total, last, backlog, gone, others]
        omega
      · rw [popped] at there
        rcases Multiset.mem_add.mp there with same | other
        · obtain rfl := Multiset.mem_singleton.mp same
          exact .inr (by rw [less, last])
        · exact .inl (gone ▸ other)
    -- The task is put back, and its future is owed the rest.
    · have back : t.waiting worker = s.waiting worker := left
      have positive := works.owed_pos here
      refine ⟨⟨followed, fun id there => ends id (back ▸ there)⟩, ?_, fun id there =>
        .inl (back ▸ there)⟩
      rw [total, backlog, back, popped, Multiset.map_add, Multiset.sum_add,
        Multiset.map_singleton, Multiset.sum_singleton, less, others]
      omega

/-- The messages that an executor takes along a run, in order. -/
def taken (features : Features) (poll : PollFn σ V) (start : FuturePool n σ V)
    (acts : List (FutureAction n σ V)) (worker : Fin n) : List Transaction :=
  observed (next features poll) (fun s act => s.pool.takes worker act.act) start acts

/-- The last step of a run adds the message that is taken in it. -/
theorem taken_snoc {start last : FuturePool n σ V} {acts : List (FutureAction n σ V)}
    (run : Run (Steps (next features poll)) start acts last) (act : FutureAction n σ V)
    (worker : Fin n) : start.taken features poll (acts ++ [act]) worker =
      start.taken features poll acts worker ++ (last.pool.takes worker act.act).toList :=
  run.observed_snoc act

/-- Along a run an executor gets nearer to its end with every request to poll that it takes. -/
theorem WorksOff.run {io : Bool} {mid last : FuturePool n σ V} {acts : List (FutureAction n σ V)}
    (works : mid.WorksOff poll work worker)
    (run : Run (Steps (next ⟨false, io⟩ poll)) mid acts last) (loops : last.pool.InLoop worker)
    (settled : ∀ task, .spawn task ∉ mid.taken ⟨false, io⟩ poll acts worker) :
    last.WorksOff poll work worker ∧
      last.backlog work worker =
        mid.backlog work worker - (mid.taken ⟨false, io⟩ poll acts worker).count .poll ∧
      ∀ id ∈ mid.waiting worker, last.spawned id = mid.spawned id ∧
        (id ∈ last.waiting worker ∨ last.owed work id = 0) := by
  -- The induction is on the run: each step takes what it takes off the backlog.
  induction run with
  | nil => exact ⟨works, rfl, fun id there => ⟨rfl, .inl there⟩⟩
  | @snoc acts s t act earlier step ih =>
    rw [taken_snoc earlier] at settled ⊢
    obtain ⟨works', fewer, left⟩ := ih (loops.before (pool_step step)) fun task among =>
      settled task (List.mem_append_left _ among)
    obtain ⟨works'', fewer', left'⟩ := works'.step loops
      (fun task now => settled task (List.mem_append_right _ (by simp [now]))) step
    refine ⟨works'', ?_, fun id there => ?_⟩
    · rw [fewer', fewer, List.count_append, count_toList, Nat.sub_sub]
    · obtain ⟨kept, either⟩ := left id there
      obtain ⟨future, val, spawned, -⟩ := works.ends id there
      obtain ⟨same, owed⟩ : t.spawned id = s.spawned id ∧ t.owed work id = s.owed work id -
          if s.polled ⟨false, io⟩ act.act = some id then 1 else 0 :=
        owed_of_step step (works'.followed.made id future (kept.trans spawned))
      refine ⟨same.trans kept, ?_⟩
      -- A task that is owed nothing is owed nothing ever after.
      rcases either with queued | done
      · exact left' id queued
      · exact .inr (by rw [owed, done, Nat.zero_sub])

end FuturePool

section Progress

variable {n : Nat} {σ V : Type*} {io : Bool} {poll : PollFn σ V} {work : σ → Nat}
  {start : Pool n V} {mid last : FuturePool n σ V} {before acts : List (FutureAction n σ V)}
  {worker : Fin n}

/--
Without fairness, an executor that takes requests to poll finishes the tasks in its queues.

Whatever the callers and the other executors do, every request that it takes brings it one poll
nearer to the end of its backlog, as long as it takes no new task. Once it has taken as many
requests as there are polls in the backlog, every task that was in its queues has sent the value of
its future.
-/
theorem executor_finishes_tasks (fresh : start.Fresh ⟨false, io⟩)
    (first : Run (Steps (FuturePool.next ⟨false, io⟩ poll)) (.started start) before mid)
    (ends : ∀ id ∈ mid.waiting worker, mid.Ends poll work id)
    (later : Run (Steps (FuturePool.next ⟨false, io⟩ poll)) mid acts last)
    (loops : (last.pool.executors worker).state ≠ .exited)
    (settled : ∀ task, .spawn task ∉ mid.taken ⟨false, io⟩ poll acts worker) :
    last.backlog work worker =
        mid.backlog work worker - (mid.taken ⟨false, io⟩ poll acts worker).count .poll ∧
      (mid.backlog work worker ≤ (mid.taken ⟨false, io⟩ poll acts worker).count .poll →
        ∀ id ∈ mid.waiting worker, ∃ future val, mid.spawned id = some future ∧
          poll.ReadyAfter (work future) future val ∧ last.sent id = [val] ∧
          (last.pool.cells id).result = some val) := by
  -- The run lemma counts the backlog down, and at zero there is nobody left in the queues.
  have followed : mid.Followed poll :=
    first.invariant (.init fresh) fun _ _ _ before step => before.step step
  have works : mid.WorksOff poll work worker := ⟨followed, ends⟩
  obtain ⟨works', fewer, left⟩ := works.run later loops settled
  refine ⟨fewer, fun enough id there => ?_⟩
  -- Nothing is left in the queues, where every task is owed a poll.
  have finished : last.owed work id = 0 := by
    rcases (left id there).2 with queued | done
    · have empty := works'.queued_of_backlog (by omega)
      rw [FuturePool.waiting, empty, ids_nil] at queued
      exact absurd queued (Multiset.notMem_zero id)
    · exact done
  obtain ⟨future, val, spawned, ready⟩ := ends id there
  have kept : last.spawned id = some future := (left id there).1.trans spawned
  have follows := works'.followed.follows id future kept
  -- So its future has had the turn in which it is ready, and has sent its value.
  have polls : work future < last.polls id := by
    rw [FuturePool.owed, kept, Option.elim_some] at finished
    omega
  have sent := follows.sent_eq ready
  rw [if_pos polls] at sent
  exact ⟨future, val, spawned, ready, sent, follows.result.trans (congrArg List.head? sent)⟩

/-- A countdown is pending as often as it says. -/
theorem countdown_ready (result left : Nat) :
    (countdown result).ReadyAfter left left result := by
  -- Each turn takes one off.
  have after : ∀ turn ≤ left, (countdown result).after turn left = left - turn := by
    intro turn below
    induction turn with
    | zero => rfl
    | succ turn ih =>
      rw [PollFn.after_succ, ih (by omega)]
      obtain ⟨rest, more⟩ : ∃ rest, left - turn = rest + 1 := ⟨left - turn - 1, by omega⟩
      rw [more, countdown]
      omega
  refine ⟨fun turn below => ?_, ?_⟩
  · obtain ⟨rest, more⟩ : ∃ rest, left - turn = rest + 1 := ⟨left - turn - 1, by omega⟩
    rw [PollFn.outcome, after turn (by omega), more, countdown]
  · rw [PollFn.outcome, after left (Nat.le_refl _), Nat.sub_self, countdown]

/-- Two countdowns are in the queues; three requests to poll are what they need. -/
theorem executor_finishes_tasks_countdowns :
    ∃ mid last : FuturePool 1 Nat Nat,
      Run (Steps (FuturePool.next ⟨false, false⟩ (countdown 7)))
        (.started (.initialized ⟨false, false⟩)) ((twoCountdowns 0).take 19) mid ∧
      Run (Steps (FuturePool.next ⟨false, false⟩ (countdown 7))) mid ((twoCountdowns 0).drop 19)
        last ∧ mid.backlog id 0 = 3 ∧
      ∀ task ∈ mid.waiting 0, (last.pool.cells task).result = some 7 := by
  -- Two countdowns from one and from zero need two polls and one.
  have replayed : (replay (FuturePool.next ⟨false, false⟩ (countdown 7))
      (.started (.initialized ⟨false, false⟩) : FuturePool 1 Nat Nat)
      ((twoCountdowns 0).take 19)).map (fun mid => mid.waiting 0 == {0, 1} &&
        mid.backlog id 0 == 3 && mid.spawned 0 == some 1 && mid.spawned 1 == some 0 &&
        mid.taken ⟨false, false⟩ (countdown 7) ((twoCountdowns 0).drop 19) 0 ==
          [.poll, .poll, .poll] &&
        (replay (FuturePool.next ⟨false, false⟩ (countdown 7)) mid
          ((twoCountdowns 0).drop 19)).any (fun last =>
            (last.pool.executors 0).state != .exited)) = some true := by
    decide
  obtain ⟨mid, first, tested⟩ := Run.of_replay_test replayed
  simp only [Bool.and_eq_true, beq_iff_eq] at tested
  obtain ⟨⟨⟨⟨⟨waiting, backlog⟩, zero⟩, one⟩, taken⟩, rest⟩ := tested
  obtain ⟨last, reached, loops⟩ := (Option.any_eq_true _ _).mp rest
  have ends : ∀ task ∈ mid.waiting 0, mid.Ends (countdown 7) id task := by
    intro task there
    rw [waiting] at there
    rcases Multiset.mem_cons.mp there with rfl | there
    · exact ⟨1, 7, zero, countdown_ready 7 1⟩
    · obtain rfl := Multiset.mem_singleton.mp there
      exact ⟨0, 7, one, countdown_ready 7 0⟩
  have later := Run.of_replay reached
  obtain ⟨-, finishes⟩ := executor_finishes_tasks (.inl rfl) first ends later
    (by simpa using loops) (by simp [taken])
  refine ⟨mid, last, first, later, backlog, fun task there => ?_⟩
  obtain ⟨future, val, -, ready, -, result⟩ := finishes (by rw [backlog, taken]; rfl) task there
  rw [result, (ready.unique (countdown_ready 7 future)).2]

end Progress

end Imputio
