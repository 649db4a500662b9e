import Mathlib.Algebra.BigOperators.Fin
import Mathlib.Data.Fintype.Option
import Mathlib.Data.Fintype.Sum
import Imputio.Executor.Pool
import Imputio.Lib.Ledger

/-! Every spawned task is in exactly one place, from its spawn to the end of the pool. -/

namespace Imputio

open Transition

/-- Where a task of a pool can be. -/
inductive Place (n : Nat) where
  | channel (worker : Fin n)
  | queue (worker : Fin n) (level : Fin 5)
  | finished
  | discarded
  deriving DecidableEq

/-- The places of a pool are the two or more places of each executor and the two ends. -/
def Place.equiv (n : Nat) : (Fin n × Option (Fin 5)) ⊕ Bool ≃ Place n where
  toFun
    | .inl (worker, none) => .channel worker
    | .inl (worker, some level) => .queue worker level
    | .inr true => .finished
    | .inr false => .discarded
  invFun
    | .channel worker => .inl (worker, none)
    | .queue worker level => .inl (worker, some level)
    | .finished => .inr true
    | .discarded => .inr false
  left_inv := by rintro (⟨_, _ | _⟩ | _ | _) <;> rfl
  right_inv := by rintro (_ | _ | _ | _) <;> rfl

instance (n : Nat) : Fintype (Place n) := .ofEquiv _ (Place.equiv n)

/--
A task that is in the first place can be in the second one later.

It stays with its executor, and on its level once it is queued, until it has finished or has been
dropped.
-/
def Place.Leads {n : Nat} : Place n → Place n → Prop
  | .channel worker, .channel later => later = worker
  | .channel worker, .queue later _ => later = worker
  | .queue worker level, .queue later level' => later = worker ∧ level' = level
  | .queue _ _, .channel _ => False
  | .finished, later => later = .finished
  | .discarded, later => later = .discarded
  | _, .finished => True
  | _, .discarded => True

/-- A task that does not move is where it was. -/
theorem Place.Leads.refl {n : Nat} (place : Place n) : place.Leads place := by
  cases place <;> simp [Place.Leads]

/-- Moves follow each other. -/
theorem Place.Leads.trans {n : Nat} {first second third : Place n} (before : first.Leads second)
    (after : second.Leads third) : first.Leads third := by
  -- The table of moves is checked case by case.
  cases first <;> cases second <;> cases third <;> simp_all [Place.Leads]

/-- The names of some tasks, each as often as it occurs. -/
def ids (tasks : List ImputioTask) : Multiset TaskId :=
  (tasks.map ImputioTask.innerTask : List TaskId)

@[simp] theorem ids_nil : ids [] = 0 := rfl

@[simp] theorem ids_cons (task : ImputioTask) (tasks : List ImputioTask) :
    ids (task :: tasks) = {task.innerTask} + ids tasks := rfl

@[simp] theorem ids_append (tasks later : List ImputioTask) :
    ids (tasks ++ later) = ids tasks + ids later := by
  simp [ids]

/-- Listing what some places hold, one place after the other, is summing it up. -/
theorem ids_flatMap {n : Nat} (tasks : Fin n → List ImputioTask) (chosen : Fin n → Bool) :
    ids (((List.finRange n).filter chosen).flatMap tasks) =
      ∑ i, if chosen i then ids (tasks i) else 0 := by
  -- The list of the places is summed up along its induction.
  rw [Fin.sum_univ_def]
  generalize List.finRange n = places
  induction places with
  | nil => rfl
  | cons place places ih =>
    by_cases here : chosen place <;> simp [here, ih]

/-- The tasks that an executor holds, in its channel and in its queues. -/
def Executor.held (exec : Executor) : Multiset TaskId :=
  ids exec.inChannel + ∑ level, ids (exec.tasks level)

namespace Pool

variable {n : Nat} {V : Type*} {features : Features} {s t : Pool n V} {act : PoolAction n V}

/-- The tasks in one place. -/
def tasksAt (s : Pool n V) : Place n → List ImputioTask
  | .channel worker => (s.executors worker).inChannel
  | .queue worker level => (s.executors worker).tasks level
  | .finished => s.finished
  | .discarded => s.discarded

/-- All tasks of a pool. -/
def all (s : Pool n V) : Multiset TaskId :=
  Ledger.total (fun worker => (s.executors worker).held) + ids s.finished + ids s.discarded

/-- Counting place by place is counting executor by executor. -/
theorem total_tasksAt (s : Pool n V) :
    Ledger.total (fun place => ids (s.tasksAt place)) = s.all := by
  -- The places are regrouped: those of the executors, and the two ends.
  rw [Ledger.total, ← (Place.equiv n).sum_comp]
  simp only [Fintype.sum_sum_type, Fintype.sum_prod_type, Fintype.sum_option, Fintype.sum_bool]
  rw [← add_assoc]
  rfl

/-- How often a task is in the pool is a matter of its executors and of the two ends. -/
theorem count_all (s : Pool n V) (id : TaskId) :
    s.all.count id = (Ledger.total fun worker => (s.executors worker).held).count id +
      (ids s.finished).count id + (ids s.discarded).count id := by
  simp only [all, Multiset.count_add]

/-- Replacing an executor changes the tasks of the pool by what that executor holds. -/
theorem count_setExecutor (s : Pool n V) (worker : Fin n) (exec : Executor) (id : TaskId) :
    (s.setExecutor worker exec).all.count id + (s.executors worker).held.count id =
      s.all.count id + exec.held.count id := by
  -- The ledger of the executors changes in one place.
  have total := Ledger.total_update (fun other => (s.executors other).held) worker exec.held
  have same : (fun other => ((s.setExecutor worker exec).executors other).held) =
      Function.update (fun other => (s.executors other).held) worker exec.held := by
    funext other
    rw [setExecutor_apply, Function.update_apply]
    split <;> rfl
  have counted := congrArg (Multiset.count id) total
  simp only [Multiset.count_add] at counted
  rw [count_all, count_all, same, setExecutor_finished, setExecutor_discarded]
  omega

end Pool

namespace Executor

/-- What an executor holds, counted. -/
theorem count_held (exec : Executor) (id : TaskId) : exec.held.count id =
    (ids exec.inChannel).count id +
      (Ledger.total fun level => ids (exec.tasks level)).count id := by
  simp only [held, Ledger.total, Multiset.count_add]

/-- Replacing the queue of one level changes what is queued by what is in that queue. -/
theorem count_queues (tasks : Fin 5 → List ImputioTask) (level : Fin 5) (queue : List ImputioTask)
    (id : TaskId) :
    (Ledger.total fun other => ids (Function.update tasks level queue other)).count id +
        (ids (tasks level)).count id =
      (Ledger.total fun other => ids (tasks other)).count id + (ids queue).count id := by
  -- The ledger of the levels changes in one place.
  have total := Ledger.total_update (fun other => ids (tasks other)) level (ids queue)
  have same : (fun other => ids (Function.update tasks level queue other)) =
      Function.update (fun other => ids (tasks other)) level (ids queue) := by
    funext other
    by_cases here : other = level
    · subst here; simp
    · simp [here]
  rw [same, ← Multiset.count_add, total, Multiset.count_add]

/-- A spawned task is held once more. -/
theorem count_spawn (exec : Executor) (task : ImputioTask) (id : TaskId) :
    (exec.spawn task).held.count id =
      exec.held.count id + (ids [task]).count id := by
  -- Only the queue of the task's priority is longer.
  have queues := count_queues exec.tasks task.priority.index
    (exec.tasks task.priority.index ++ [task]) id
  rw [count_held, count_held, ids_append, Multiset.count_add] at *
  simp only [spawn, inChannel] at *
  omega

/-- A spawned task is in the queue of its priority. -/
theorem mem_spawn {exec : Executor} {task other : ImputioTask} {level : Fin 5} :
    other ∈ (exec.spawn task).tasks level ↔
      other ∈ exec.tasks level ∨ other = task ∧ task.priority.index = level := by
  -- The other queues are the same.
  by_cases here : level = task.priority.index
  · subst here
    simp [spawn]
  · simp [spawn, here, Ne.symm here]

/-- A pending task goes back to its own queue, so polling adds no task to any queue. -/
theorem tasks_polled {exec after : Executor} {pending : Prop} {task : ImputioTask} {level : Fin 5}
    {later : List ImputioTask} (popped : exec.tasks level = task :: later)
    (own : task.priority.index = level)
    (tasks : ¬ pending ∧ after.tasks = Function.update exec.tasks level later ∨
      pending ∧ after.tasks =
        Function.update (Function.update exec.tasks level later) task.priority.index
          (Function.update exec.tasks level later task.priority.index ++ [task]))
    (other : Fin 5) : after.tasks other ⊆ exec.tasks other := by
  -- The popped queue is shorter, and the others are as before.
  have shorter : Function.update exec.tasks level later other ⊆ exec.tasks other := by
    by_cases here : other = level
    · rw [here, Function.update_self, popped]
      exact List.subset_cons_self task later
    · rw [Function.update_of_ne here]
      exact List.Subset.refl _
  rcases tasks with ⟨-, now⟩ | ⟨-, now⟩
  · rw [now]
    exact shorter
  · rw [now, own]
    by_cases here : other = level
    · subst here
      have back : task ∈ exec.tasks other := by simp [popped]
      rw [Function.update_self]
      exact List.append_subset.mpr ⟨shorter, by simpa using back⟩
    · rw [Function.update_of_ne here]
      exact shorter

/-- A task that moves from the channel to its queue is still held. -/
theorem count_enqueued (exec : Executor) {task : ImputioTask} {rest : List Transaction}
    (front : exec.rx.queue = .spawn task :: rest) (id : TaskId) :
    (({ exec with
      rx := { exec.rx with queue := rest }
      state := .checking } : Executor).spawn task).held.count id = exec.held.count id := by
  -- The task was the first one in the channel.
  rw [count_spawn, count_held, count_held, inChannel, inChannel, front]
  simp only [List.filterMap_cons, Transaction.task, ids_cons, ids_nil, Multiset.count_add,
    Multiset.count_zero]
  omega

/-- Leaving the loop keeps the messages and gives up what is queued. -/
theorem count_leave (exec : Executor) (id : TaskId) :
    exec.leave.held.count id + (ids exec.queued).count id = exec.held.count id := by
  -- The queues are listed level by level.
  have queued : ids exec.queued = Ledger.total fun level => ids (exec.tasks level) := by
    have all := ids_flatMap exec.tasks fun _ => true
    rw [List.filter_eq_self.mpr fun _ _ => rfl] at all
    simpa [Executor.queued, Ledger.total] using all
  rw [count_held, count_held, queued]
  simp [leave, inChannel, Ledger.total, Channel.disconnect]

end Executor

namespace Pool

variable {n : Nat} {V : Type*} {features : Features} {s t : Pool n V} {act : PoolAction n V}

/-- Dropping channels moves their messages to the dropped tasks. -/
theorem count_dropChannels (s : Pool n V) (gone : Fin n → Bool) (id : TaskId) :
    (s.dropChannels gone).all.count id = s.all.count id := by
  -- What an executor loses is what was in its channel.
  set lost := ((List.finRange n).filter gone).flatMap fun worker => (s.executors worker).inChannel
  have split : ∀ worker, ((s.dropChannels gone).executors worker).held +
      (if gone worker then ids (s.executors worker).inChannel else 0) =
        (s.executors worker).held := by
    intro worker
    by_cases here : gone worker
    · simp [dropChannels, here, Executor.held, Executor.inChannel, add_comm]
    · simp [dropChannels, here]
  have total : (Ledger.total fun worker => ((s.dropChannels gone).executors worker).held) +
      ids lost = Ledger.total fun worker => (s.executors worker).held := by
    rw [ids_flatMap, Ledger.total, Ledger.total, ← Finset.sum_add_distrib]
    exact Finset.sum_congr rfl fun worker _ => split worker
  have counted := congrArg (Multiset.count id) total
  have dropped : (s.dropChannels gone).discarded = s.discarded ++ lost := rfl
  have finished : (s.dropChannels gone).finished = s.finished := rfl
  rw [Multiset.count_add] at counted
  rw [count_all, count_all, dropped, finished, ids_append, Multiset.count_add]
  omega

/-- Leaving the loop moves the queued tasks, and the messages if need be, to the dropped tasks. -/
theorem count_leave (s : Pool n V) (worker : Fin n) (id : TaskId) :
    (s.leave worker).all.count id = s.all.count id := by
  -- What the executor gives up is added to the dropped tasks.
  have executors := s.count_setExecutor worker (s.executors worker).leave id
  have queues := (s.executors worker).count_leave id
  unfold leave
  rw [count_dropChannels]
  rw [count_all] at executors ⊢
  simp only [ids_append, Multiset.count_add, setExecutor_finished, setExecutor_discarded] at *
  omega

/-- Where no task moves, the pool has the same tasks. -/
theorem SameTasks.all (same : SameTasks s t) : t.all = s.all := by
  -- The tasks are those of the executors and those that are gone, and neither has changed.
  have held : ∀ worker, (t.executors worker).held = (s.executors worker).held := by
    intro worker
    rw [Executor.held, Executor.held, same.inChannel, same.tasks]
  simp only [Pool.all, held, same.finished, same.discarded]

/-- A polled task has left its queue, and is back in a queue if it is pending. -/
theorem count_polled {exec exec' : Executor} {outcome : FutureStep V} {task : ImputioTask}
    {level : Fin 5} {later : List ImputioTask} {rest : List Transaction}
    (front : exec.rx.queue = .poll :: rest) (popped : exec.tasks level = task :: later)
    (channel : exec'.rx = { exec.rx with queue := rest })
    (tasks : outcome ≠ .pending ∧ exec'.tasks = Function.update exec.tasks level later ∨
      outcome = .pending ∧ exec'.tasks =
        Function.update (Function.update exec.tasks level later) task.priority.index
          (Function.update exec.tasks level later task.priority.index ++ [task])) (id : TaskId) :
    (outcome ≠ .pending → exec.held.count id = exec'.held.count id + (ids [task]).count id) ∧
      (outcome = .pending → exec.held.count id = exec'.held.count id) := by
  -- The message itself carries no task, and the popped task is the only one that leaves a queue.
  have messages : exec'.inChannel = exec.inChannel := by
    rw [Executor.inChannel, Executor.inChannel, channel, front]
    rfl
  have taken := Executor.count_queues exec.tasks level later id
  rw [popped] at taken
  rw [Executor.count_held, Executor.count_held, messages]
  rcases tasks with ⟨ready, now⟩ | ⟨ready, now⟩
  · refine ⟨fun _ => ?_, fun pending => absurd pending ready⟩
    rw [now]
    simp only [ids_cons, ids_nil, Multiset.count_add, Multiset.count_zero] at *
    omega
  · have back := Executor.count_queues (Function.update exec.tasks level later)
      task.priority.index
      (Function.update exec.tasks level later task.priority.index ++ [task]) id
    refine ⟨fun ended => absurd ready ended, fun _ => ?_⟩
    rw [now]
    simp only [ids_cons, ids_nil, ids_append, Multiset.count_add, Multiset.count_zero] at *
    omega

/-- A step spawns at most one task and loses none. -/
theorem Effect.all (effect : s.Effect features act t) :
    (t.nextTask = s.nextTask ∧ t.all = s.all) ∨
      (t.nextTask = s.nextTask + 1 ∧ t.all = {s.nextTask} + s.all) := by
  -- For every number the tasks that have it are counted before and after the step.
  cases effect with
  | quiet same => exact .inl ⟨same.nextTask, same.all⟩
  | @spawned call priority index asked inRange connected =>
    refine .inr ⟨rfl, Multiset.ext.mpr fun id => ?_⟩
    have before : (s.create call).all = s.all := rfl
    -- The message is the only change, and it carries the new task.
    have executors := (s.create call).count_setExecutor ⟨index, inRange⟩
      { s.executors ⟨index, inRange⟩ with
        rx := { (s.executors ⟨index, inRange⟩).rx with
          queue := (s.executors ⟨index, inRange⟩).rx.queue ++
            [.spawn ⟨s.nextTask, priority⟩] }
        received := (s.executors ⟨index, inRange⟩).received ++ [⟨s.nextTask, priority⟩] } id
    have executor : (s.create call).executors = s.executors := rfl
    unfold accept
    rw [executor] at executors ⊢
    rw [Executor.count_held, Executor.count_held] at executors
    rw [before, Executor.inChannel, Executor.inChannel] at executors
    simp only [List.filterMap_append, List.filterMap_cons, List.filterMap_nil, Transaction.task,
      ids_append, ids_cons, ids_nil, Multiset.count_add, Multiset.count_zero] at executors ⊢
    omega
  | @refused call priority index asked inRange gone =>
    refine .inr ⟨rfl, Multiset.ext.mpr fun id => ?_⟩
    have dropped : ((s.create call).refuse ⟨s.nextTask, priority⟩).all =
        Ledger.total (fun worker => (s.executors worker).held) + ids s.finished +
          ids (s.discarded ++ [⟨s.nextTask, priority⟩]) := rfl
    rw [dropped]
    simp only [Multiset.count_add, count_all, ids_append, ids_cons, ids_nil, Multiset.count_zero]
    omega
  | @enqueued worker coin outcome task rest receiving front =>
    refine .inl ⟨rfl, Multiset.ext.mpr fun id => ?_⟩
    have moved := (s.executors worker).count_enqueued front id
    exact Nat.add_right_cancel ((s.count_setExecutor worker _ id).trans (congrArg _ moved))
  | @polled worker coin outcome task level later rest exec receiving front picked popped channel
      received running tasks =>
    have moved := count_polled front popped channel tasks
    refine .inl ⟨by cases outcome <;> rfl, Multiset.ext.mpr fun id => ?_⟩
    have executors := s.count_setExecutor worker exec id
    rw [count_all] at executors
    cases outcome with
    | ready value =>
      have ended := (moved id).1 (by simp)
      rw [count_all]
      simp only [Pool.polled, ids_append, Multiset.count_add, setExecutor_finished,
        setExecutor_discarded] at *
      omega
    | pending =>
      have kept := (moved id).2 rfl
      rw [count_all]
      simp only [Pool.polled, setExecutor_finished, setExecutor_discarded] at *
      omega
    | panicked =>
      have ended := (moved id).1 (by simp)
      rw [Pool.polled, count_leave, count_all]
      simp only [ids_append, Multiset.count_add, setExecutor_finished,
        setExecutor_discarded] at *
      omega
  | @left worker checking flag => exact .inl ⟨rfl, Multiset.ext.mpr (s.count_leave worker)⟩
  | released held => exact .inl ⟨rfl, Multiset.ext.mpr (count_dropChannels _ _)⟩

/-- What is known about a task from the place where it is. -/
def Accounted (s : Pool n V) (task : ImputioTask) : Place n → Prop
  | .channel worker => task ∈ (s.executors worker).received
  | .queue worker level =>
    task ∈ (s.executors worker).received ∧ task.priority.index = level
  | .finished => ∃ worker, task ∈ (s.executors worker).received
  | .discarded => task ∈ s.failed ∨
    ∃ worker, (s.executors worker).state = .exited ∧ task ∈ (s.executors worker).received

/-- The tasks of the pool are what was spawned, and each of them is accounted for. -/
structure Conserves (s : Pool n V) : Prop where
  all : s.all = Multiset.range s.nextTask
  accounted : ∀ place, ∀ task ∈ s.tasksAt place, s.Accounted task place

/-- Every task of the second pool came from a place of the first one that leads to its place. -/
def Moves (s t : Pool n V) : Prop :=
  ∀ place, ∀ task ∈ t.tasksAt place, ∃ before, task ∈ s.tasksAt before ∧ before.Leads place ∧
    (s.Accounted task before → t.Accounted task place)

/-- Moves follow each other. -/
theorem Moves.trans {u : Pool n V} (first : Moves s t) (second : Moves t u) : Moves s u := by
  -- The place between the two moves is the one where the task was in the meantime.
  intro place task member
  obtain ⟨mid, atMid, later, told⟩ := second place task member
  obtain ⟨before, atFirst, earlier, known⟩ := first mid task atMid
  exact ⟨before, atFirst, earlier.trans later, told ∘ known⟩

/-- What is known stays known while the histories grow and no executor comes back. -/
theorem Accounted.mono {task : ImputioTask} {place : Place n}
    (received : ∀ worker, (s.executors worker).received ⊆ (t.executors worker).received)
    (exited : ∀ worker, (s.executors worker).state = .exited → (t.executors worker).state = .exited)
    (failed : s.failed ⊆ t.failed) (known : s.Accounted task place) : t.Accounted task place := by
  -- Each kind of place asks for a fact that cannot be lost.
  cases place with
  | channel worker => exact received worker known
  | queue worker level => exact ⟨received worker known.1, known.2⟩
  | finished =>
    obtain ⟨worker, member⟩ := known
    exact ⟨worker, received worker member⟩
  | discarded =>
    rcases known with old | ⟨worker, gone, member⟩
    · exact .inl (failed old)
    · exact .inr ⟨worker, exited worker gone, received worker member⟩

/-- Dropping the channels of executors that are gone only moves tasks to the dropped ones. -/
theorem moves_dropChannels (s : Pool n V) (gone : Fin n → Bool)
    (exited : ∀ worker, gone worker = true → (s.executors worker).state = .exited) :
    Moves s (s.dropChannels gone) := by
  -- Dropping a channel concerns only the tasks that wait in it.
  have same := s.dropChannels_executors gone
  have kept : ∀ {task place}, s.Accounted task place →
      (s.dropChannels gone).Accounted task place :=
    Accounted.mono (fun worker => by rw [(same worker).1]; exact List.Subset.refl _)
      (fun worker => by rw [(same worker).2.1]; exact id) (List.Subset.refl _)
  intro place task member
  cases place with
  | channel worker =>
    refine ⟨.channel worker, ?_, .refl _, kept⟩
    by_cases here : gone worker
    · simp [tasksAt, dropChannels, here, Executor.inChannel] at member
    · simpa [tasksAt, dropChannels, here] using member
  | queue worker level =>
    refine ⟨.queue worker level, ?_, .refl _, kept⟩
    simpa only [tasksAt, (same worker).2.2.1] using member
  | finished => exact ⟨.finished, member, .refl _, kept⟩
  | discarded =>
    rcases List.mem_append.mp member with old | lost
    · exact ⟨.discarded, old, .refl _, kept⟩
    · -- A lost task was in the channel of an executor that is gone.
      obtain ⟨worker, chosen, waiting⟩ := List.mem_flatMap.mp lost
      have left := exited worker (List.mem_filter.mp chosen).2
      exact ⟨.channel worker, waiting, trivial, fun known => kept (.inr ⟨worker, left, known⟩)⟩

/--
While one executor is replaced, its tasks move as `Place.Leads` allows.

They enter the queue of their own priority, and they are dropped only if the executor is gone.
-/
theorem Moves.of_executor {worker : Fin n} {exec : Executor}
    (executors : t.executors = Function.update s.executors worker exec)
    (channel : exec.inChannel ⊆ (s.executors worker).inChannel)
    (tasks : ∀ level, ∀ task ∈ exec.tasks level, task ∈ (s.executors worker).tasks level ∨
      task ∈ (s.executors worker).inChannel ∧ task.priority.index = level)
    (received : exec.received = (s.executors worker).received)
    (exited : (s.executors worker).state = .exited → exec.state = .exited)
    (failed : t.failed = s.failed)
    (finished : ∀ task ∈ t.finished, task ∈ s.finished ∨
      ∃ level, task ∈ (s.executors worker).tasks level)
    (discarded : ∀ task ∈ t.discarded, task ∈ s.discarded ∨
      exec.state = .exited ∧ ∃ level, task ∈ (s.executors worker).tasks level) : Moves s t := by
  -- What is known of a task is not forgotten, since nothing is taken from the histories.
  have here : t.executors worker = exec := by rw [executors, Function.update_self]
  have others : ∀ other, other ≠ worker → t.executors other = s.executors other :=
    fun other apart => by rw [executors, Function.update_of_ne apart]
  have kept : ∀ {task place}, s.Accounted task place → t.Accounted task place := by
    refine Accounted.mono (fun other => ?_) (fun other => ?_) (failed ▸ List.Subset.refl _)
    · by_cases same : other = worker
      · rw [same, here, received]
        exact List.Subset.refl _
      · rw [others other same]
        exact List.Subset.refl _
    · by_cases same : other = worker
      · rw [same, here]
        exact exited
      · rw [others other same]
        exact id
  -- Every task is traced back from where it is now to where it was.
  intro place task member
  cases place with
  | channel other =>
    refine ⟨.channel other, ?_, .refl _, kept⟩
    by_cases same : other = worker
    · rw [tasksAt, same, here] at member
      rw [same]
      exact channel member
    · rwa [tasksAt, others other same] at member
  | queue other level =>
    by_cases same : other = worker
    · rw [tasksAt, same, here] at member
      rw [same]
      rcases tasks level task member with old | ⟨waiting, own⟩
      · exact ⟨.queue worker level, old, .refl _, kept⟩
      · refine ⟨.channel worker, waiting, rfl, fun known => ⟨?_, own⟩⟩
        rw [here, received]
        exact known
    · rw [tasksAt, others other same] at member
      exact ⟨.queue other level, member, .refl _, kept⟩
  | finished =>
    rcases finished task member with old | ⟨level, queued⟩
    · exact ⟨.finished, old, .refl _, kept⟩
    · refine ⟨.queue worker level, queued, trivial, fun known => ⟨worker, ?_⟩⟩
      rw [here, received]
      exact known.1
  | discarded =>
    rcases discarded task member with old | ⟨gone, level, queued⟩
    · exact ⟨.discarded, old, .refl _, kept⟩
    · refine ⟨.queue worker level, queued, trivial, fun known => .inr ⟨worker, ?_, ?_⟩⟩
      · rw [here, gone]
      · rw [here, received]
        exact known.1

/-- When an executor leaves its loop, its channel goes last. -/
theorem Moves.leave {u : Pool n V} {worker : Fin n} {exec : Executor}
    (leaving : u.executors worker = exec)
    (moved : ∀ v : Pool n V, v.executors = Function.update u.executors worker exec.leave →
      v.failed = u.failed → v.finished = u.finished → v.discarded = u.discarded ++ exec.queued →
      Moves s v) : Moves s (u.leave worker) := by
  -- The queues go at once, and the channel goes where the senders are gone.
  subst leaving
  refine Moves.trans ?_ (moves_dropChannels _ _ fun other chosen => ?_)
  · exact moved _ rfl rfl rfl rfl
  · obtain rfl : other = worker := by simpa using (Bool.and_eq_true_iff.mp chosen).1
    simp [setExecutor, Executor.leave]

/-- Where no task moves, every place keeps its tasks. -/
theorem SameTasks.moves (same : SameTasks s t) : Moves s t := by
  -- Every place lists the same tasks.
  intro place task member
  refine ⟨place, ?_, .refl _, Accounted.mono (fun worker => ?_) (fun worker => ?_) ?_⟩
  · cases place with
    | channel worker => simpa only [tasksAt, same.inChannel] using member
    | queue worker level => simpa only [tasksAt, same.tasks] using member
    | finished => simpa only [tasksAt, same.finished] using member
    | discarded => simpa only [tasksAt, same.discarded] using member
  · rw [same.received]
    exact List.Subset.refl _
  · exact (same.exited worker).mpr
  · rw [same.failed]
    exact List.Subset.refl _

/-- An accepted task is put into the channel of its executor and into its history. -/
theorem accept_executors (s : Pool n V) (call : CallId) (worker : Fin n) (task : ImputioTask)
    (rx : Channel Transaction) (other : Fin n) :
    ((s.create call).accept worker task rx).executors other =
      if other = worker then
        { s.executors worker with rx := rx, received := (s.executors worker).received ++ [task] }
      else s.executors other :=
  setExecutor_apply ..

/-- What is known about the other tasks is known after a task was accepted. -/
theorem accept_accounted {call : CallId} {worker : Fin n} {task other : ImputioTask}
    {rx : Channel Transaction} {place : Place n} (known : s.Accounted other place) :
    ((s.create call).accept worker task rx).Accounted other place := by
  -- The histories have grown by the accepted task, and no loop has changed.
  refine Accounted.mono (s := s) (fun worker' => ?_) (fun worker' => ?_) (List.Subset.refl _) known
  · rw [accept_executors]
    split
    · rename_i here
      exact here ▸ List.subset_append_left ..
    · exact List.Subset.refl _
  · rw [accept_executors]
    split
    · rename_i here
      exact here ▸ id
    · exact id

/-- An accepted task is in the channel of its executor, and no other task has moved. -/
theorem mem_accept {call : CallId} {worker : Fin n} {task found : ImputioTask} {place : Place n}
    (member : found ∈ ((s.create call).accept worker task { (s.executors worker).rx with
      queue := (s.executors worker).rx.queue ++ [.spawn task] }).tasksAt place) :
    found ∈ s.tasksAt place ∨ found = task ∧ place = .channel worker := by
  -- Only the channel of the one executor is longer than before.
  cases place with
  | channel other =>
    rw [tasksAt, accept_executors] at member
    split at member
    · rename_i here
      subst here
      simpa [Executor.inChannel, tasksAt, Transaction.task] using member
    · exact .inl member
  | queue other level =>
    rw [tasksAt, accept_executors] at member
    split at member
    · rename_i here
      subst here
      exact .inl member
    · exact .inl member
  | finished => exact .inl member
  | discarded => exact .inl member

/-- A task that is put into a pool is accounted for where it is put. -/
theorem Effect.moves (effect : s.Effect features act t) (conserves : s.Conserves) :
    ∀ place, ∀ task ∈ t.tasksAt place, t.Accounted task place ∧ (task.innerTask = s.nextTask ∨
      ∃ before, task ∈ s.tasksAt before ∧ before.Leads place) := by
  -- Every task but a new one has moved.
  have moved : Moves s t → ∀ place, ∀ task ∈ t.tasksAt place, t.Accounted task place ∧
      (task.innerTask = s.nextTask ∨ ∃ before, task ∈ s.tasksAt before ∧ before.Leads place) := by
    intro moves place task member
    obtain ⟨before, earlier, leads, known⟩ := moves place task member
    exact ⟨known (conserves.accounted before task earlier), .inr ⟨before, earlier, leads⟩⟩
  -- The new task is the only one at its place, and nothing else moves.
  have placed : ∀ (task : ImputioTask) (home : Place n), task.innerTask = s.nextTask →
      t.Accounted task home →
      (∀ {task place}, s.Accounted task place → t.Accounted task place) →
      (∀ place, ∀ found ∈ t.tasksAt place,
        found ∈ s.tasksAt place ∨ found = task ∧ place = home) →
      ∀ place, ∀ task ∈ t.tasksAt place, t.Accounted task place ∧
        (task.innerTask = s.nextTask ∨ ∃ before, task ∈ s.tasksAt before ∧ before.Leads place) := by
    intro task home new known kept places place found member
    rcases places place found member with old | ⟨rfl, rfl⟩
    · exact ⟨kept (conserves.accounted place found old), .inr ⟨place, old, .refl _⟩⟩
    · exact ⟨known, .inl new⟩
  cases effect with
  | quiet same => exact moved same.moves
  | @spawned call priority index asked inRange connected =>
    refine placed ⟨s.nextTask, priority⟩ (.channel ⟨index, inRange⟩) rfl ?_ accept_accounted
      fun place found => mem_accept
    simp [Accounted, accept_executors]
  | @refused call priority index asked inRange gone =>
    refine placed ⟨s.nextTask, priority⟩ .discarded rfl
      (.inl (List.mem_append_right _ (List.mem_singleton_self _))) ?_ ?_
    · exact Accounted.mono (fun _ => List.Subset.refl _) (fun _ => id)
        (List.subset_append_left ..)
    · intro place found member
      cases place with
      | channel _ => exact .inl member
      | queue _ _ => exact .inl member
      | finished => exact .inl member
      | discarded =>
        rcases List.mem_append.mp member with old | new
        · exact .inl old
        · exact .inr ⟨List.mem_singleton.mp new, rfl⟩
  | @enqueued worker coin outcome task rest receiving front =>
    refine moved (.of_executor rfl ?_ ?_ rfl ?_ rfl (fun _ => .inl) (fun _ => .inl))
    · intro other member
      rw [Executor.inChannel, front]
      exact List.mem_cons_of_mem _ member
    · intro level other member
      rcases Executor.mem_spawn.mp member with old | ⟨rfl, own⟩
      · exact .inl old
      · exact .inr ⟨by simp [Executor.inChannel, front, Transaction.task], own⟩
    · simp [receiving]
  | @polled worker coin outcome task level later rest exec receiving front picked popped channel
      received running tasks =>
    have messages : exec.inChannel ⊆ (s.executors worker).inChannel := by
      rw [Executor.inChannel, channel, Executor.inChannel, front]
      exact List.Subset.refl _
    have alive : (s.executors worker).state = .exited → exec.state = .exited := by
      simp [receiving]
    have own : task.priority.index = level :=
      (conserves.accounted (.queue worker level) task (by simp [tasksAt, popped])).2
    have queued : ∃ level, task ∈ (s.executors worker).tasks level := ⟨level, by simp [popped]⟩
    have queues := Executor.tasks_polled popped own tasks
    cases outcome with
    | ready value =>
      refine moved (.of_executor rfl messages (fun level _ member => .inl (queues level member))
        received alive rfl (fun found member => ?_) (fun _ => .inl))
      rcases List.mem_append.mp member with old | new
      · exact .inl old
      · exact .inr (List.mem_singleton.mp new ▸ queued)
    | pending =>
      exact moved (.of_executor rfl messages (fun level _ member => .inl (queues level member))
        received alive rfl (fun _ => .inl) (fun _ => .inl))
    | panicked =>
      refine moved (Moves.leave (show _ = exec by simp [setExecutor]) fun v executors failed
        finished discarded => .of_executor (executors.trans (Function.update_idem ..))
          messages (fun _ _ member => absurd member List.not_mem_nil) received (fun _ => rfl) failed
          (fun found member => ?_) fun found member => ?_)
      · rw [finished] at member
        exact .inl member
      · rw [discarded] at member
        rcases List.mem_append.mp member with before | left
        · rcases List.mem_append.mp before with old | new
          · exact .inl old
          · exact .inr ⟨rfl, List.mem_singleton.mp new ▸ queued⟩
        · obtain ⟨other, -, waiting⟩ := List.mem_flatMap.mp left
          exact .inr ⟨rfl, other, queues other waiting⟩
  | @left worker checking flag =>
    refine moved (Moves.leave rfl fun v executors failed finished discarded =>
      .of_executor executors (List.Subset.refl _)
        (fun _ _ member => absurd member List.not_mem_nil) rfl (fun _ => rfl) failed
        (fun found member => ?_) fun found member => ?_)
    · rw [finished] at member
      exact .inl member
    · rw [discarded] at member
      rcases List.mem_append.mp member with old | lost
      · exact .inl old
      · obtain ⟨level, -, queued⟩ := List.mem_flatMap.mp lost
        exact .inr ⟨rfl, level, queued⟩
  | released held =>
    refine moved (moves_dropChannels _ _ fun worker chosen => ?_)
    simpa using chosen

/-- Names in a place are names of tasks there. -/
theorem mem_ids {tasks : List ImputioTask} {id : TaskId} :
    id ∈ ids tasks ↔ ∃ task ∈ tasks, task.innerTask = id := by
  simp [ids]

/-- A task is in the pool exactly when it was spawned. -/
theorem Conserves.spawned_iff (conserves : s.Conserves) {id : TaskId} :
    id < s.nextTask ↔ ∃ place, id ∈ ids (s.tasksAt place) := by
  -- The multiset of all tasks lists the names that were given out.
  rw [← Multiset.mem_range, ← conserves.all, ← total_tasksAt, Ledger.total, Multiset.mem_sum]
  simp

/-- A spawned task is in one place only, and there only once. -/
theorem Conserves.unique (conserves : s.Conserves) {id : TaskId} (spawned : id < s.nextTask) :
    ∃ place, (ids (s.tasksAt place)).count id = 1 ∧
      ∀ other, other ≠ place → (ids (s.tasksAt other)).count id = 0 := by
  -- In the range of the given names each name occurs once.
  refine Ledger.unique_place ?_
  rw [total_tasksAt, conserves.all]
  exact Multiset.count_eq_one_of_mem (Multiset.nodup_range _) (Multiset.mem_range.mpr spawned)

/-- Two places with the same task are the same place. -/
theorem Conserves.same_place (conserves : s.Conserves) {id : TaskId} {place other : Place n}
    (here : id ∈ ids (s.tasksAt place)) (there : id ∈ ids (s.tasksAt other)) : other = place := by
  -- Both places are the only one in which the task is counted.
  obtain ⟨only, -, nowhere⟩ := conserves.unique (conserves.spawned_iff.mpr ⟨place, here⟩)
  have found : ∀ {place}, id ∈ ids (s.tasksAt place) → place = only := by
    intro place member
    by_contra apart
    exact Multiset.count_ne_zero.mpr member (nowhere place apart)
  rw [found here, found there]

/-- Every step conserves the tasks. -/
theorem Effect.conserves (effect : s.Effect features act t) (conserves : s.Conserves) :
    t.Conserves := by
  -- The names that are given out grow by the new task.
  refine ⟨?_, fun place task member => (effect.moves conserves place task member).1⟩
  rcases effect.all with ⟨same, all⟩ | ⟨more, all⟩
  · rw [all, same, conserves.all]
  · rw [all, more, conserves.all, Multiset.range_succ]
    rfl

/-- A fresh pool has no tasks. -/
theorem Fresh.conserves (fresh : s.Fresh features) : s.Conserves := by
  -- Both kinds of executors start with empty queues and an empty channel.
  obtain ⟨exec, empty, queues, rfl⟩ : ∃ exec : Executor, exec.inChannel = [] ∧
      (∀ level, exec.tasks level = []) ∧ s = withExecutors exec := by
    rcases fresh with rfl | rfl
    · exact ⟨.initialized features, rfl, fun _ => rfl, rfl⟩
    · exact ⟨.absent, rfl, fun _ => rfl, rfl⟩
  refine ⟨?_, fun place task member => ?_⟩
  · simp [all, withExecutors, Executor.held, empty, queues, Ledger.total]
  · cases place <;> simp [tasksAt, withExecutors, empty, queues] at member

/-- Every reachable pool conserves its tasks. -/
theorem Conserves.of_run {acts : List (PoolAction n V)} (conserves : s.Conserves)
    (run : Run (Steps (next features)) s acts t) : t.Conserves :=
  run.invariant conserves fun _ _ _ before step => (step_effect step).conserves before

/-- From its place in one state a task can only have gone where that place leads. -/
theorem Conserves.leads {acts : List (PoolAction n V)} (conserves : s.Conserves)
    (run : Run (Steps (next features)) s acts t) {id : TaskId} {place later : Place n}
    (before : id ∈ ids (s.tasksAt place)) (after : id ∈ ids (t.tasksAt later)) :
    place.Leads later := by
  -- The induction goes back from the end, where the task is, step by step to where it was.
  have spawned := conserves.spawned_iff.mpr ⟨place, before⟩
  suffices both : s.nextTask ≤ t.nextTask ∧
      ∀ later, id ∈ ids (t.tasksAt later) → place.Leads later from both.2 later after
  clear after
  induction run with
  | nil =>
    refine ⟨Nat.le_refl _, fun later after => ?_⟩
    rw [conserves.same_place before after]
    exact .refl place
  | @snoc acts mid last act earlier step ih =>
    obtain ⟨grown, found⟩ := ih
    have middle := conserves.of_run earlier
    have effect := step_effect step
    constructor
    · rcases effect.all with ⟨same, -⟩ | ⟨more, -⟩
      · exact same ▸ grown
      · exact more ▸ Nat.le_succ_of_le grown
    · intro later after
      obtain ⟨task, member, rfl⟩ := mem_ids.mp after
      rcases (effect.moves middle later task member).2 with new | ⟨between, there, leads⟩
      · have old := Nat.lt_of_lt_of_le spawned grown
        exact absurd (new ▸ old) (Nat.lt_irrefl _)
      · exact (found between (mem_ids.mpr ⟨task, there, rfl⟩)).trans leads

/-- A task that is polled was in a queue. -/
theorem queued_of_polledTask {task : ImputioTask} (polls : s.polledTask features act = some task) :
    ∃ worker level, task ∈ s.tasksAt (.queue worker level) := by
  -- Only the front of a queue is ever polled.
  cases act with
  | recv worker coin outcome =>
    obtain ⟨-, next⟩ := Option.ite_none_right_eq_some.mp polls
    obtain ⟨⟨_, after⟩, popped, rfl⟩ := Option.map_eq_some_iff.mp next
    obtain ⟨_, level, _, rest, -, -, front, -⟩ := popFront_eq_some popped
    exact ⟨worker, level, by simp [tasksAt, front]⟩
  | _ => simp [polledTask] at polls

end Pool

section Conservation

variable {n : Nat} {V : Type*} {features : Features} {start s : Pool n V}
  {acts : List (PoolAction n V)}

/--
Every spawned task is in exactly one place of the pool in every reachable state.

A queue holds the tasks of its own priority, and a task is dropped only when its message was
refused or its executor is gone. From its place a task moves on within its executor and its level
only, and a task that has finished is not polled again.
-/
theorem task_conservation (fresh : start.Fresh features)
    (run : Run (Steps (Pool.next features)) start acts s) :
    (∀ id < s.nextTask, ∃ place, (ids (s.tasksAt place)).count id = 1 ∧
      ∀ other, other ≠ place → (ids (s.tasksAt other)).count id = 0) ∧
    (∀ worker level, ∀ task ∈ s.tasksAt (.queue worker level), task.priority.index = level) ∧
    (∀ task ∈ s.tasksAt .discarded, task ∈ s.failed ∨
      ∃ worker, (s.executors worker).state = .exited ∧ task ∈ (s.executors worker).received) ∧
    (∀ later t, Run (Steps (Pool.next features)) s later t → ∀ id place place',
      id ∈ ids (s.tasksAt place) → id ∈ ids (t.tasksAt place') → place.Leads place') ∧
    (∀ act task, s.polledTask features act = some task →
      task.innerTask ∉ ids (s.tasksAt .finished)) := by
  -- The invariant of the run gives all five parts.
  have conserves := fresh.conserves.of_run run
  refine ⟨fun id spawned => conserves.unique spawned, fun worker level task member => ?_,
    fun task member => conserves.accounted .discarded task member, ?_, ?_⟩
  · exact (conserves.accounted (.queue worker level) task member).2
  · intro later t more id place place' before after
    exact conserves.leads more before after
  · intro act task polls finished
    obtain ⟨worker, level, member⟩ := Pool.queued_of_polledTask polls
    have queued : task.innerTask ∈ ids (s.tasksAt (.queue worker level)) :=
      Pool.mem_ids.mpr ⟨task, member, rfl⟩
    exact absurd (conserves.same_place queued finished) (by simp)

/-- Spawn a task on the second of two executors, ask both to poll, and poll the task to its end. -/
def spawnedAndPolled : List (PoolAction 2 Nat) :=
  [.call (.spawn .high), .store 0, .send 0, .call .poll, .store 1, .send 1, .call .poll, .store 2,
    .send 2, .recv 1 false .pending, .check 1, .recv 1 false (.ready 7)]

/-- The task that has been polled to its end is at the end of the pool and nowhere else. -/
theorem task_conservation_finished :
    ∃ s : Pool 2 Nat, Run (Steps (Pool.next ⟨false, false⟩)) (Pool.initialized ⟨false, false⟩)
      spawnedAndPolled s ∧ s.finished = [⟨0, .high⟩] ∧
      ∃ place, (ids (s.tasksAt place)).count 0 = 1 ∧
        ∀ other, other ≠ place → (ids (s.tasksAt other)).count 0 = 0 := by
  -- The run is replayed, and the place of the one task is found by counting.
  have replayed : (replay (Pool.next ⟨false, false⟩) (Pool.initialized ⟨false, false⟩)
      spawnedAndPolled).map (fun s => s.finished == [⟨0, .high⟩] && s.nextTask == 1) =
        some true := by
    decide
  obtain ⟨s, run, ended⟩ := Run.of_replay_test replayed
  simp only [Bool.and_eq_true, beq_iff_eq] at ended
  refine ⟨s, run, ended.1, ?_⟩
  exact (task_conservation (.inl rfl) run).1 0 (ended.2 ▸ Nat.one_pos)

end Conservation

end Imputio
