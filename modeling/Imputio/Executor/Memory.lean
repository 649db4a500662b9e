import Imputio.Executor.Conservation
import Imputio.Task.Resources

/-! The counts that a pool keeps of its tasks are those of the allocations behind them. -/

namespace Imputio

open Transition

/--
The allocations of a task have the counts that its executor knows of.

Between the steps of an executor no poll is going on, and the task's own waker is the only one.
-/
structure TaskMemory.Backs {V : Type*} (mem : TaskMemory) (cell : TaskCell V) : Prop where
  accounted : mem.Accounted
  idle : mem.context = none
  sole : mem.wakers.owned = if mem.held then {TaskMemory.waker} else ∅
  inner : cell.inner = mem.innerTask.strong
  header : cell.header = mem.wakers.header.count.strong
  spareHeader : cell.spareHeader = mem.spareHeader.count.strong

/-- A heap has the memory of all tasks, and those that are gone are the ones that nobody holds. -/
def TaskHeap.Backs {V : Type*} (heap : TaskHeap) (cells : TaskId → TaskCell V)
    (gone : Multiset TaskId) : Prop :=
  ∀ (id : TaskId) (mem : TaskMemory), heap[id]? = some mem →
    mem.Backs (cells id) ∧ (mem.held = true ↔ id ∉ gone)

namespace TaskMemory

variable {V : Type*} {mem after : TaskMemory} {cell : TaskCell V}

/-- The raw pointers keep one reference each, and the header has those of the owned wakers. -/
theorem Accounted.backs (accounted : mem.Accounted) (idle : mem.context = none)
    (sole : mem.wakers.owned = if mem.held then {waker} else ∅) (inner : cell.inner = 1)
    (header : cell.header = mem.wakers.owned.card) (spareHeader : cell.spareHeader = 1) :
    mem.Backs cell where
  accounted := accounted
  idle := idle
  sole := sole
  -- The two lost pointers hold one reference each.
  inner := by rw [inner, accounted.innerTask]; rfl
  header := by rw [header, accounted.wakers.strong]
  spareHeader := by rw [spareHeader, accounted.spareHeader]; rfl

/-- What the executor knows of a task, in numbers. -/
theorem Backs.counts (backs : mem.Backs cell) :
    cell.inner = 1 ∧ cell.header = mem.wakers.owned.card ∧ cell.spareHeader = 1 := by
  -- The numbers of the cell are the counts of the memory, and those are accounted for.
  rw [backs.inner, backs.header, backs.spareHeader, backs.accounted.innerTask,
    backs.accounted.spareHeader, backs.accounted.wakers.strong]
  exact ⟨rfl, rfl, rfl⟩

/-- A new task is backed by its three allocations. -/
theorem new_backs : ∃ mem, new = some mem ∧ mem.Backs (.new : TaskCell V) ∧ mem.held = true := by
  -- The one waker of the task is its own.
  obtain ⟨mem, made, accounted, held, idle, owned⟩ := new_accounted
  refine ⟨mem, made, accounted.backs idle ?_ rfl ?_ rfl, held⟩
  · rw [owned, held]
    rfl
  · rw [owned]
    rfl

/-- Dropping a task takes the reference of its waker away. -/
theorem Backs.drop (backs : mem.Backs cell) (held : mem.held = true) :
    ∃ after, mem.next .drop = some (some after) ∧ after.Backs cell.drop ∧ after.held = false := by
  -- No poll is going on, so the task may be dropped.
  obtain ⟨after, dropped, accounted, held', idle, owned⟩ :=
    backs.accounted.drop held backs.idle
  obtain ⟨inner, header, spareHeader⟩ := backs.counts
  have sole : mem.wakers.owned = {waker} := by rw [backs.sole, if_pos held]
  refine ⟨after, ?_, accounted.backs idle ?_ inner ?_ spareHeader, held'⟩
  · rw [next, if_pos ⟨held, backs.idle⟩, dropped]
  · rw [owned, sole, held']
    rfl
  · -- The own waker was the only one, and the executor counts one less.
    rw [owned, sole]
    show cell.header - 1 = _
    rw [header, sole]
    rfl

/-- A poll gives back the clone that it makes. -/
theorem Backs.poll (backs : mem.Backs cell) (held : mem.held = true) (outcome : FutureStep V) :
    ∃ mid after, mem.next .beginPoll = some (some mid) ∧ mid.next .endPoll = some (some after) ∧
      after.Backs (cell.pollTask outcome) ∧ after.held = true := by
  -- The two halves of the poll are taken one after the other.
  obtain ⟨mid, begun, accounted, held', polling, owned⟩ := backs.accounted.beginPoll held
  obtain ⟨after, ended, accounted', held'', idle, owned'⟩ := accounted.endPoll polling
  obtain ⟨inner, header, spareHeader⟩ := backs.counts
  obtain ⟨inner', header', spareHeader'⟩ := cell.pollTask_counts outcome
  -- The clone has a number that was not in use.
  have unused : mem.wakers.nextWaker ∉ mem.wakers.owned := fun among =>
    Nat.lt_irrefl _ (backs.accounted.wakers.fresh _ among)
  have same : after.wakers.owned = mem.wakers.owned := by
    rw [owned', owned, Finset.erase_insert unused]
  refine ⟨mid, after, ?_, ?_, accounted'.backs idle ?_ (inner'.trans inner) ?_
    (spareHeader'.trans spareHeader), held''⟩
  · rw [next, if_pos ⟨held, backs.idle⟩, begun]
  · rw [next, polling, Option.map_some, ended]
  · rw [same, backs.sole, held, held'']
  · rw [same, header', header]

end TaskMemory

namespace TaskHeap

variable {V : Type*} {heap : TaskHeap} {cells : TaskId → TaskCell V} {gone : Multiset TaskId}

/-- An action on a task that is in the heap is an action on its memory. -/
theorem act_step {id : TaskId} {mem after : TaskMemory} {act : MemoryAction}
    (found : heap[id]? = some mem) (taken : mem.next act = some (some after)) :
    Steps next (some heap) (.act id act) (some (heap.set id after)) := by
  rw [Steps, next, found, Option.bind_some, taken]
  rfl

/-- A task whose memory is written is backed by what is written, and the others are as before. -/
theorem Backs.set (backs : heap.Backs cells gone) {id : TaskId} {after : TaskMemory}
    {cell : TaskCell V} {gone' : Multiset TaskId} (backed : after.Backs cell)
    (held : after.held = true ↔ id ∉ gone')
    (others : ∀ other, other ≠ id → (other ∈ gone' ↔ other ∈ gone)) :
    TaskHeap.Backs (heap.set id after) (Function.update cells id cell) gone' := by
  -- Writing an entry of a list is writing a cell of the executor.
  intro other mem found
  rw [List.getElem?_set] at found
  split at found
  · rename_i same
    subst same
    obtain ⟨-, rfl⟩ := enabled_iff.mp found
    rw [Function.update_self]
    exact ⟨backed, held⟩
  · rename_i apart
    rw [Function.update_of_ne (Ne.symm apart), others other (Ne.symm apart)]
    exact backs other mem found

/-- A task that is made is added to the heap. -/
theorem Backs.make (backs : heap.Backs cells gone) (unused : heap.length ∉ gone) :
    ∃ heap', Steps next (some heap) .new (some heap') ∧ heap'.length = heap.length + 1 ∧
      heap'.Backs (Function.update cells heap.length .new) gone := by
  -- The memory of a new task is as its cell says, and no other one is written.
  obtain ⟨mem, made, backed, held⟩ := TaskMemory.new_backs (V := V)
  refine ⟨heap ++ [mem], by rw [Steps, next, made]; rfl, by simp, fun id mem' found => ?_⟩
  -- The new task is the last one of the heap.
  by_cases last : id = heap.length
  · subst last
    rw [List.getElem?_concat_length] at found
    obtain rfl := Option.some.inj found
    rw [Function.update_self]
    exact ⟨backed, iff_of_true held unused⟩
  · have inside : id < heap.length := by
      have bound := (List.getElem?_eq_some_iff.mp found).1
      rw [List.length_append, List.length_singleton] at bound
      exact Nat.lt_of_le_of_ne (Nat.le_of_lt_succ bound) last
    rw [List.getElem?_append_left inside] at found
    rw [Function.update_of_ne last]
    exact backs id mem' found

/-- A poll of a task that is not gone leaves it backed. -/
theorem Backs.polled (backs : heap.Backs cells gone) {id : TaskId} (inside : id < heap.length)
    (stays : id ∉ gone) (outcome : FutureStep V) :
    ∃ heap', Run (Steps next) (some heap) (executorPoll id [] false) (some heap') ∧
      heap'.length = heap.length ∧
      heap'.Backs (Function.update cells id ((cells id).pollTask outcome)) gone := by
  -- The memory is written twice, in the same place.
  have found : heap[id]? = some heap[id] := List.getElem?_eq_getElem inside
  obtain ⟨backed, held⟩ := backs id _ found
  obtain ⟨mid, after, begun, ended, backed', held'⟩ := backed.poll (held.mpr stays) outcome
  have again : (heap.set id mid)[id]? = some mid := List.getElem?_set_self inside
  have first := act_step found begun
  have second := act_step again ended
  rw [List.set_set] at second
  refine ⟨heap.set id after, .cons first (.single second), List.length_set, ?_⟩
  exact backs.set backed' (iff_of_true held' stays) fun _ _ => Iff.rfl

/-- Tasks that are not gone can be dropped one after the other. -/
theorem Backs.dropped (backs : heap.Backs cells gone) (tasks : List ImputioTask)
    (inside : ∀ task ∈ tasks, task.innerTask < heap.length) (once : (gone + ids tasks).Nodup) :
    ∃ heap', Run (Steps next) (some heap) (tasks.map fun task => .act task.innerTask .drop)
        (some heap') ∧ heap'.length = heap.length ∧
      heap'.Backs (dropTasks cells tasks) (gone + ids tasks) := by
  -- The induction follows the tasks, each of which is gone when the next one is dropped.
  induction tasks generalizing heap cells gone with
  | nil => exact ⟨heap, .nil, rfl, by simpa [dropTasks] using backs⟩
  | cons task tasks ih =>
    have here : task.innerTask < heap.length := inside task List.mem_cons_self
    have found : heap[task.innerTask]? = some heap[task.innerTask] :=
      List.getElem?_eq_getElem here
    rw [ids_cons, ← add_assoc] at once ⊢
    have stays : task.innerTask ∉ gone := by
      have apart := (Multiset.nodup_add.mp (Multiset.nodup_add.mp once).1).2.2
      exact Multiset.disjoint_singleton.mp apart
    obtain ⟨backed, held⟩ := backs _ _ found
    obtain ⟨after, dropped, backed', held'⟩ := backed.drop (held.mpr stays)
    have backs' : TaskHeap.Backs (heap.set task.innerTask after)
        (Function.update cells task.innerTask (cells task.innerTask).drop)
        (gone + {task.innerTask}) :=
      backs.set backed' (iff_of_false (by simp [held']) (by simp)) fun other apart => by
        simp [apart]
    obtain ⟨heap', run, size, rest⟩ := ih backs' (by
      intro other among
      rw [List.length_set]
      exact inside other (List.mem_cons_of_mem _ among)) once
    exact ⟨heap', .cons (act_step found dropped) run, size.trans List.length_set, rest⟩

end TaskHeap

namespace Pool

variable {n : Nat} {V : Type*} {features : Features} {s t : Pool n V} {act : PoolAction n V}

/-- The tasks that the pool is done with. -/
def gone (s : Pool n V) : Multiset TaskId := ids s.finished + ids s.discarded

/-- Each task of a pool is gone once at most, and only tasks that were spawned are gone. -/
theorem Conserves.gone (conserves : s.Conserves) :
    s.gone.Nodup ∧ ∀ id ∈ s.gone, id < s.nextTask := by
  -- Those that are gone are some of all tasks, which are numbered one by one.
  have some : s.gone ≤ Multiset.range s.nextTask := by
    rw [← conserves.all, Pool.all, Pool.gone, add_assoc]
    exact Multiset.le_add_left ..
  refine ⟨Multiset.nodup_of_le some (Multiset.nodup_range _), fun id among => ?_⟩
  exact Multiset.mem_range.mp (Multiset.mem_of_le some among)

/-- Tasks may be dropped in two lists, one after the other. -/
theorem dropTasks_append (cells : TaskId → TaskCell V) (tasks later : List ImputioTask) :
    dropTasks cells (tasks ++ later) = dropTasks (dropTasks cells tasks) later :=
  List.foldl_append

/-- Tasks are gone as soon as they are dropped. -/
theorem gone_of_discarded {lost : List ImputioTask} (finished : t.finished = s.finished)
    (discarded : t.discarded = s.discarded ++ lost) : t.gone = s.gone + ids lost := by
  rw [gone, gone, finished, discarded, ids_append, add_assoc]

/-- Leaving a loop drops what is queued and, if no sender is left, what is in the channel. -/
theorem leave_memory (s : Pool n V) (worker : Fin n) :
    ∃ lost, (s.leave worker).cells = dropTasks s.cells lost ∧
      (s.leave worker).discarded = s.discarded ++ lost := by
  -- What is queued goes with the executor, what waits in the channel with its last end.
  let left := { s.setExecutor worker (s.executors worker).leave with
    cells := dropTasks s.cells (s.executors worker).queued
    discarded := s.discarded ++ (s.executors worker).queued }
  let waiting := ((List.finRange n).filter fun other => other == worker && !s.held).flatMap
    fun other => (left.executors other).inChannel
  exact ⟨(s.executors worker).queued ++ waiting, (dropTasks_append ..).symm,
    List.append_assoc ..⟩

/-- A step makes a task or polls one or does neither, and then it may drop some. -/
theorem Effect.memory (effect : s.Effect features act t) :
    ∃ lost, t.gone = s.gone + ids lost ∧
      ((t.nextTask = s.nextTask ∧ t.cells = dropTasks s.cells lost) ∨
        (t.nextTask = s.nextTask + 1 ∧
          t.cells = dropTasks (Function.update s.cells s.nextTask .new) lost) ∨
        (t.nextTask = s.nextTask ∧ ∃ task outcome, s.polledTask features act = some task ∧
          t.cells = dropTasks (Function.update s.cells task.innerTask
            ((s.cells task.innerTask).pollTask outcome)) lost)) := by
  -- The effects are gone through for what becomes of the cells and of the tasks that are gone.
  have nothing : s.discarded = s.discarded ++ [] := (List.append_nil _).symm
  cases effect with
  -- A step that moves no task leaves all counts alone.
  | quiet same =>
    exact ⟨[], gone_of_discarded same.finished (same.discarded.trans nothing),
      .inl ⟨same.nextTask, same.cells⟩⟩
  | spawned => exact ⟨[], gone_of_discarded rfl nothing, .inr (.inl ⟨rfl, rfl⟩)⟩
  | refused => exact ⟨[_], gone_of_discarded rfl rfl, .inr (.inl ⟨rfl, rfl⟩)⟩
  | enqueued => exact ⟨[], gone_of_discarded rfl nothing, .inl ⟨rfl, rfl⟩⟩
  | @polled worker coin outcome task level later rest exec receiving front picked =>
    cases outcome with
    | ready value =>
      refine ⟨[task], ?_, .inr (.inr ⟨rfl, task, .ready value, picked, rfl⟩)⟩
      show ids (s.finished ++ [task]) + ids s.discarded = _
      rw [ids_append, Pool.gone, add_right_comm]
    | pending =>
      exact ⟨[], gone_of_discarded rfl nothing,
        .inr (.inr ⟨rfl, task, .pending, picked, rfl⟩)⟩
    | panicked =>
      -- The polled task is dropped first, then what its executor has left.
      obtain ⟨lost, cells, discarded⟩ := leave_memory { s.setExecutor worker exec with
        cells := dropTasks (Function.update s.cells task.innerTask
          ((s.cells task.innerTask).pollTask .panicked)) [task]
        discarded := s.discarded ++ [task]
        crashed := s.crashed ++ [task] } worker
      refine ⟨task :: lost, gone_of_discarded rfl ?_,
        .inr (.inr ⟨rfl, task, .panicked, picked, ?_⟩)⟩
      · exact discarded.trans (List.append_assoc ..)
      · exact cells.trans (dropTasks_append _ [task] lost).symm
  | @left worker =>
    obtain ⟨lost, cells, discarded⟩ := s.leave_memory worker
    exact ⟨lost, gone_of_discarded rfl discarded, .inl ⟨rfl, cells⟩⟩
  | released => exact ⟨_, gone_of_discarded rfl rfl, .inl ⟨rfl, rfl⟩⟩

/-- The heap has the memory of all tasks of a pool. -/
structure BackedBy (s : Pool n V) (heap : TaskHeap) : Prop where
  conserves : s.Conserves
  size : heap.length = s.nextTask
  backs : heap.Backs s.cells s.gone

/-- Every step of a pool is a run of the heap. -/
theorem BackedBy.step {heap : TaskHeap} (backed : s.BackedBy heap)
    (step : Steps (next features) s act t) :
    ∃ taken heap', Run (Steps TaskHeap.next) (some heap) taken (some heap') ∧
      t.BackedBy heap' := by
  -- The heap makes the same task or takes the same poll, and then drops what the pool drops.
  have effect := step_effect step
  have conserves := effect.conserves backed.conserves
  obtain ⟨once, spawned⟩ := conserves.gone
  obtain ⟨lost, gone, changed⟩ := effect.memory
  rw [gone] at once spawned
  -- What is dropped in the end is dropped from the heap as it is then.
  have finish : ∀ {taken : List TaskAction} {mid : TaskHeap} {cells : TaskId → TaskCell V},
      Run (Steps TaskHeap.next) (some heap) taken (some mid) → mid.length = t.nextTask →
      mid.Backs cells s.gone → t.cells = dropTasks cells lost →
      ∃ taken heap', Run (Steps TaskHeap.next) (some heap) taken (some heap') ∧
        t.BackedBy heap' := by
    intro taken mid cells run size backs same
    have inside : ∀ task ∈ lost, task.innerTask < mid.length := by
      intro task among
      rw [size]
      exact spawned _ (Multiset.mem_add.mpr (.inr (mem_ids.mpr ⟨task, among, rfl⟩)))
    obtain ⟨heap', dropped, size', backs'⟩ := backs.dropped lost inside once
    exact ⟨_, heap', run.append dropped, conserves, size'.trans size, by rwa [same, gone]⟩
  rcases changed with ⟨same, cells⟩ | ⟨more, cells⟩ | ⟨same, task, outcome, polls, cells⟩
  · exact finish .nil (backed.size.trans same.symm) backed.backs cells
  · -- The numbers of tasks and of allocations grow together.
    have unused : heap.length ∉ s.gone := fun among =>
      Nat.lt_irrefl _ (backed.size ▸ backed.conserves.gone.2 _ among)
    obtain ⟨mid, made, size, backs⟩ := backed.backs.make unused
    exact finish (.single made) (by rw [size, backed.size, more]) backs (by rw [cells, backed.size])
  · -- A task that is polled was in a queue, so it is neither finished nor dropped.
    obtain ⟨worker, level, queued⟩ := queued_of_polledTask polls
    have here : task.innerTask ∈ ids (s.tasksAt (.queue worker level)) :=
      mem_ids.mpr ⟨task, queued, rfl⟩
    have stays : task.innerTask ∉ s.gone := by
      intro among
      rcases Multiset.mem_add.mp among with ended | ended
      · have finished : task.innerTask ∈ ids (s.tasksAt .finished) := ended
        exact absurd (backed.conserves.same_place here finished) (by simp)
      · have discarded : task.innerTask ∈ ids (s.tasksAt .discarded) := ended
        exact absurd (backed.conserves.same_place here discarded) (by simp)
    have inside : task.innerTask < heap.length := by
      rw [backed.size]
      exact backed.conserves.spawned_iff.mpr ⟨_, here⟩
    obtain ⟨mid, run, size, backs⟩ := backed.backs.polled inside stays outcome
    exact finish run (by rw [size, backed.size, same]) backs cells

/-- A fresh pool has allocated nothing. -/
theorem Fresh.backedBy (fresh : s.Fresh features) : s.BackedBy [] where
  conserves := fresh.conserves
  -- Both kinds of fresh pools have made no task.
  size := by
    rcases fresh with rfl | rfl
    · rfl
    · rfl
  backs := by
    intro id mem found
    simp at found

end Pool

/--
Every run of a pool is a run of the allocations behind its tasks, with the same counts. So a task
that has finished or was dropped keeps two of its three allocations, and any other task all three.
-/
theorem pool_memory_backed {n : Nat} {V : Type*} {features : Features} {start s : Pool n V}
    {acts : List (PoolAction n V)} (fresh : start.Fresh features)
    (run : Run (Steps (Pool.next features)) start acts s) :
    (∃ taken heap, Run (Steps TaskHeap.next) (some []) taken (some heap) ∧
      heap.length = s.nextTask ∧ heap.Backs s.cells s.gone) ∧
    ∀ id < s.nextTask, (s.cells id).inner = 1 ∧ (s.cells id).spareHeader = 1 ∧
      (s.cells id).header = if id ∈ s.gone then 0 else 1 := by
  -- A step of the pool is answered by a run of the heap, so the whole run is one of those.
  have sim : ∀ (s : Pool n V) act t (heap : Option TaskHeap),
      (∃ now, heap = some now ∧ s.BackedBy now) → Steps (Pool.next features) s act t →
      ∃ taken heap', Run (Steps TaskHeap.next) heap taken heap' ∧
        ∃ now, heap' = some now ∧ t.BackedBy now := by
    rintro s act t heap ⟨now, rfl, backed⟩ step
    obtain ⟨taken, heap', answer, backed'⟩ := backed.step step
    exact ⟨taken, some heap', answer, heap', rfl, backed'⟩
  obtain ⟨taken, _, answer, heap, rfl, backed⟩ :=
    run.simulate_runs sim ⟨[], rfl, fresh.backedBy⟩
  refine ⟨⟨taken, heap, answer, backed.size, backed.backs⟩, fun id spawned => ?_⟩
  -- The counts are read off the memory of the task.
  have inside : id < heap.length := backed.size.symm ▸ spawned
  obtain ⟨backs, held⟩ := backed.backs id _ (List.getElem?_eq_getElem inside)
  obtain ⟨inner, header, spareHeader⟩ := backs.counts
  refine ⟨inner, spareHeader, ?_⟩
  rw [header, backs.sole]
  by_cases gone : id ∈ s.gone
  · have lost : ¬ heap[id].held = true := fun still => held.mp still gone
    rw [if_neg lost, if_pos gone, Finset.card_empty]
  · rw [if_pos (held.mpr gone), if_neg gone, Finset.card_singleton]

end Imputio
