import Mathlib.Order.Fin.Basic
import Imputio.Executor.Executor
import Imputio.Lib.StableQueue

/-! The executor without fairness is a stable priority queue, and it starves nobody of a level. -/

namespace Imputio

open Transition StableQueue

/-- The level of the queue that a task belongs to. -/
def ImputioTask.level (task : ImputioTask) : Fin 5 := task.priority.index

/-- The task is put back after its poll. -/
def FutureStep.pends {V : Type*} : FutureStep V → Bool
  | .pending => true
  | _ => false

/-- The poll of the task does not return. -/
def FutureStep.panics {V : Type*} : FutureStep V → Bool
  | .panicked => true
  | _ => false

/-- The calls on an executor; the coin and the outcome matter if a task is polled. -/
inductive ExecutorCall (V : Type*) where
  | spawn (task : ImputioTask)
  | poll (coin : Bool) (outcome : FutureStep V)
  deriving DecidableEq, Repr

namespace ExecutorCall

variable {V : Type*}

/-- The task that a call brings. -/
def spawned : ExecutorCall V → Option ImputioTask
  | .spawn task => some task
  | .poll _ _ => none

/-- The call polls a task, if there is one. -/
def polls : ExecutorCall V → Bool
  | .spawn _ => false
  | .poll _ _ => true

/-- What a call asks of a queue that serves tasks by their level. -/
def request : ExecutorCall V → StableQueue.Request ImputioTask
  | .spawn task => .enqueue task
  | .poll _ outcome => .serve outcome.pends

end ExecutorCall

/-- The tasks that some calls bring, in order. -/
def spawnedTasks {V : Type*} (calls : List (ExecutorCall V)) : List ImputioTask :=
  calls.filterMap ExecutorCall.spawned

namespace Executor

variable {V : Type*}

/-- What each call does; a poll that panics unwinds through the executor and leaves none. -/
def call (features : Features) (exec : Executor) : ExecutorCall V → Option Executor
  | .spawn task => some (exec.spawn task)
  | .poll coin outcome =>
    let (exec, polled) := exec.poll features coin outcome
    if polled.isSome && outcome.panics then none else some exec

/-- The task that a call polls, and whether it is put back. -/
def turn (features : Features) (exec : Executor) : ExecutorCall V → Option (ImputioTask × Bool)
  | .spawn _ => none
  | .poll coin outcome => (exec.nextTask features coin).map fun task => (task, outcome.pends)

/-- Each queue holds tasks of its own priority only. -/
def Leveled (exec : Executor) : Prop := ∀ level, ∀ task ∈ exec.tasks level, task.level = level

/-- The five queues stand for one list of tasks, in the order in which they are served. -/
structure Represents (exec : Executor) (queue : Queue ImputioTask.level) : Prop where
  leveled : exec.Leveled
  queued : exec.queued = queue.items

/--
A poll takes the first of all tasks, which is gone after it, or behind those of its own priority;
the order of the others stays.
-/
def PollsFirst (features : Features) (V : Type*) (exec : Executor) : Prop :=
  ∀ coin (outcome : FutureStep V) after task rest, exec.queued = task :: rest →
    exec.call features (.poll coin outcome) = some after →
      exec.turn features (.poll coin outcome) = some (task, outcome.pends) ∧
      (∀ other ∈ rest, task.level ≤ other.level) ∧
      after.queued = if outcome.pends then
        rest.filter (fun other => other.level ≤ task.level) ++
          task :: rest.filter (fun other => task.level < other.level)
      else rest

/--
Of a batch that is spawned at once, the tasks that are done at their first poll, in the order in
which they are done.
-/
def doneAtFirst (features : Features) (exec : Executor) (batch : List ImputioTask)
    (later : List (ExecutorCall V)) : List ImputioTask :=
  ((firstTurns (observed (call features) (turn features) exec
    (batch.map .spawn ++ later))).filter fun turn => turn.1 ∈ batch ∧ turn.2 = false).map Prod.fst

/-- A scan over different levels takes the first of the tasks in them, in the order of levels. -/
theorem popFront_flatMap {levels : List (Fin 5)} {tasks after : Fin 5 → List ImputioTask}
    {task : ImputioTask} (distinct : levels.Nodup)
    (popped : popFront levels tasks = some (task, after)) :
    levels.flatMap tasks = task :: levels.flatMap after := by
  -- The levels before the one that is found are empty, and the ones after it are not touched.
  obtain ⟨empty, level, later, rest, rfl, skipped, front, rfl⟩ := popFront_eq_some popped
  obtain ⟨-, distinct, apart⟩ := List.nodup_append'.mp distinct
  have absent : level ∉ empty := fun member => apart member (List.mem_cons_self ..)
  have absent' : level ∉ later := (List.nodup_cons.mp distinct).1
  have before : empty.flatMap tasks = [] := List.flatMap_eq_nil_iff.mpr skipped
  have same : ∀ levels : List (Fin 5), level ∉ levels →
      levels.flatMap (Function.update tasks level rest) = levels.flatMap tasks := by
    intro levels absent
    refine List.flatMap_congr fun other member => Function.update_of_ne ?_ ..
    rintro rfl
    exact absent member
  simp [same empty absent, same later absent', before, front]

/-- Spawning a task inserts it behind the tasks of its priority. -/
theorem spawn_queued {exec : Executor} (leveled : exec.Leveled) (task : ImputioTask) :
    (exec.spawn task).queued = insert ImputioTask.level exec.queued task :=
  flatMap_push (List.pairwise_lt_finRange 5) (List.mem_finRange _) leveled

/-- Spawning a task keeps the queues to their own priorities. -/
theorem spawn_leveled {exec : Executor} (leveled : exec.Leveled) (task : ImputioTask) :
    (exec.spawn task).Leveled := by
  -- Only the queue of the task's own priority has a new member.
  intro level other member
  by_cases same : level = task.priority.index
  · subst same
    have among : other ∈ exec.tasks task.priority.index ∨ other = task := by
      simpa [spawn] using member
    rcases among with old | rfl
    · exact leveled _ other old
    · rfl
  · exact leveled level other (by simpa [spawn, same] using member)

/-- Without fairness all levels are searched in their order. -/
theorem levels_unfair (io coin : Bool) : levels ⟨false, io⟩ coin = List.finRange 5 := rfl

/-- Nothing is polled exactly when nothing is queued. -/
theorem nextTask_eq_none_iff {io coin : Bool} {exec : Executor} :
    exec.nextTask ⟨false, io⟩ coin = none ↔ exec.queued = [] := by
  rw [nextTask, Option.map_eq_none_iff, levels_unfair, popFront_eq_none_iff, queued,
    List.flatMap_eq_nil_iff]

/-- What a poll takes is the first of the queued tasks. -/
theorem nextTask_eq_some {io coin : Bool} {exec : Executor} {task : ImputioTask} {level : Fin 5}
    {rest : List ImputioTask} (leveled : exec.Leveled)
    (next : exec.nextTask ⟨false, io⟩ coin = some task)
    (front : exec.tasks level = task :: rest) :
    exec.queued = task :: (List.finRange 5).flatMap (Function.update exec.tasks level rest) := by
  -- The scan takes the front of the first queue that is not empty.
  obtain ⟨⟨found, after⟩, popped, rfl⟩ := Option.map_eq_some_iff.mp next
  have queued := popFront_flatMap (List.nodup_finRange 5) popped
  obtain ⟨_, level', _, rest', -, -, front', rfl⟩ := popFront_eq_some popped
  -- The priority of the task tells in which queue it was.
  have same : ∀ {other : Fin 5} {later : List ImputioTask},
      exec.tasks other = found :: later → found.level = other := by
    intro other later first
    exact leveled other found (by rw [first]; exact List.mem_cons_self ..)
  obtain rfl : level' = level := (same front').symm.trans (same front)
  obtain rfl : rest' = rest := (List.cons.inj (front'.symm.trans front)).2
  exact queued

/-- Taking a task out of its queue keeps the queues to their own priorities. -/
theorem leveled_of_rest {exec : Executor} {level : Fin 5} {task : ImputioTask}
    {rest : List ImputioTask} {pollHandle : Channel IoOp} (leveled : exec.Leveled)
    (front : exec.tasks level = task :: rest) :
    Leveled { exec with
      pollHandle := pollHandle
      tasks := Function.update exec.tasks level rest } := by
  -- What is left of the queue was in it before.
  intro other found member
  by_cases same : other = level
  · subst same
    refine leveled other found ?_
    rw [front]
    exact List.mem_cons_of_mem _ (by simpa using member)
  · exact leveled other found (by simpa [same] using member)

/-- What a call of `poll` does, by the list of all queued tasks. -/
theorem call_poll {io coin : Bool} {outcome : FutureStep V} {exec after : Executor}
    (leveled : exec.Leveled) (called : exec.call ⟨false, io⟩ (.poll coin outcome) = some after) :
    after.Leveled ∧ (exec.queued = [] ∧ after.queued = [] ∧
        exec.turn ⟨false, io⟩ (.poll coin outcome) = none ∨
      ∃ task rest, exec.queued = task :: rest ∧
        exec.turn ⟨false, io⟩ (.poll coin outcome) = some (task, outcome.pends) ∧
        after.queued = if outcome.pends then insert ImputioTask.level rest task else rest) := by
  -- A poll finds no task, or it takes the first one and puts it back if it pends.
  rw [call] at called
  rw [turn]
  rcases exec.poll_cases ⟨false, io⟩ coin outcome with
    ⟨nothing, unpolled⟩ | ⟨level, task, rest, picked, front, ended⟩
  · -- The scan has found nothing in any of the five queues.
    rw [unpolled] at called
    obtain rfl := Option.some.inj called
    have empty := nextTask_eq_none_iff.mp nothing
    exact ⟨leveled, .inl ⟨empty, empty, by rw [nothing]; rfl⟩⟩
  · have queued := nextTask_eq_some leveled picked front
    have kept : Leveled { exec with
        pollHandle := exec.askIo ⟨false, io⟩
        tasks := Function.update exec.tasks level rest } := leveled_of_rest leveled front
    rw [picked]
    rcases ended with ⟨ready, polled⟩ | ⟨rfl, polled⟩
    · -- Of the outcomes that end the task, only one lets the call return.
      rw [polled] at called
      cases outcome with
      | ready value =>
        obtain rfl := Option.some.inj called
        exact ⟨kept, .inr ⟨task, _, queued, rfl, rfl⟩⟩
      | pending => exact absurd rfl ready
      | panicked => simp [FutureStep.panics] at called
    · rw [polled] at called
      obtain rfl := Option.some.inj called
      exact ⟨spawn_leveled kept task, .inr ⟨task, _, queued, rfl, spawn_queued kept task⟩⟩

/-- A call on an executor does what its request does to the list that the executor stands for. -/
theorem Represents.call {io : Bool} {exec after : Executor} {queue : Queue ImputioTask.level}
    {call : ExecutorCall V} (represents : exec.Represents queue)
    (called : exec.call ⟨false, io⟩ call = some after) :
    exec.turn ⟨false, io⟩ call = queue.served call.request ∧
      ∃ queue', queue.next call.request = some queue' ∧ after.Represents queue' := by
  -- Spawning enters the list, and polling serves it.
  obtain ⟨leveled, queued⟩ := represents
  cases call with
  | spawn task =>
    obtain rfl := Option.some.inj called
    refine ⟨rfl, _, rfl, spawn_leveled leveled task, ?_⟩
    rw [spawn_queued leveled, queued, Queue.items_enqueue]
  | poll coin outcome =>
    obtain ⟨leveled', ⟨empty, empty', unserved⟩ | ⟨task, rest, first, served, left⟩⟩ :=
      call_poll leveled called
    · rw [queued] at empty
      refine ⟨?_, _, rfl, leveled', ?_⟩
      · rw [unserved, ExecutorCall.request, Queue.served, empty]
        rfl
      · rw [empty', Queue.items_serve_nil _ empty]
    · rw [queued] at first
      refine ⟨?_, _, rfl, leveled', ?_⟩
      · rw [served, ExecutorCall.request, Queue.served, first]
        rfl
      · rw [left, Queue.items_serve_cons _ first]

/-- An executor that has just been started stands for the empty list. -/
theorem initialized_represents (features : Features) :
    (initialized features).Represents .empty where
  leveled := by simp [Leveled, initialized]
  queued := by simp [queued, initialized]

end Executor

open Executor

variable {V : Type*} {io : Bool} {before calls : List (ExecutorCall V)} {exec last : Executor}

/-- Whatever is called on an executor, the list that it stands for is asked the same. -/
theorem represented {queue : Queue ImputioTask.level} (represents : exec.Represents queue)
    (run : Run (Steps (Executor.call ⟨false, io⟩)) exec calls last) :
    ∃ queue', Run (Steps Queue.next) queue (calls.map ExecutorCall.request) queue' ∧
      last.Represents queue' ∧
      observed (Executor.call ⟨false, io⟩) (Executor.turn ⟨false, io⟩) exec calls =
        observed Queue.next Queue.served queue (calls.map ExecutorCall.request) :=
  run.observed_refines (fun _ _ _ _ represents called => represents.call called) represents

/-- What is spawned by two lists of calls is spawned by the first and then by the second. -/
theorem spawnedTasks_append (first second : List (ExecutorCall V)) :
    spawnedTasks (first ++ second) = spawnedTasks first ++ spawnedTasks second :=
  List.filterMap_append

/-- A batch is what is spawned by spawning it. -/
theorem spawnedTasks_batch (batch : List ImputioTask) :
    spawnedTasks (batch.map ExecutorCall.spawn : List (ExecutorCall V)) = batch := by
  simp [spawnedTasks, List.filterMap_map, Function.comp_def, ExecutorCall.spawned]

/-- What enters the list was spawned. -/
theorem enqueue_mem_iff {task : ImputioTask} :
    .enqueue task ∈ calls.map ExecutorCall.request ↔ task ∈ spawnedTasks calls := by
  -- A call enters a task in the list exactly if it spawns it.
  rw [List.mem_map, spawnedTasks, List.mem_filterMap]
  refine exists_congr fun call => and_congr_right fun _ => ?_
  cases call <;> simp [ExecutorCall.request, ExecutorCall.spawned]

/--
Without fairness an executor is a stable priority queue: its five queues stand for one list in the
order of priorities and of the last entries, and each poll takes the first task of that list.

Tasks spawned with no poll in between that are done at their first poll end in the stable sort of
the order in which they were spawned.
-/
theorem executor_refines_stable_queue
    (reached : Run (Steps (Executor.call ⟨false, io⟩)) (.initialized ⟨false, io⟩) before exec) :
    (∃ queue : Queue ImputioTask.level,
      Run (Steps Queue.next) .empty (before.map ExecutorCall.request) queue ∧
        exec.Represents queue ∧
        observed (Executor.call ⟨false, io⟩) (Executor.turn ⟨false, io⟩)
            (.initialized ⟨false, io⟩) before =
          observed Queue.next Queue.served (.empty : Queue ImputioTask.level)
            (before.map ExecutorCall.request)) ∧
      exec.PollsFirst ⟨false, io⟩ V ∧
      ∀ batch (later : List (ExecutorCall V)) last,
        Run (Steps (Executor.call ⟨false, io⟩)) exec (batch.map .spawn ++ later) last →
        (spawnedTasks (before ++ batch.map .spawn ++ later)).Nodup →
        doneAtFirst ⟨false, io⟩ exec batch later = stableSort ImputioTask.level
          (batch.filter fun task => task ∈ doneAtFirst ⟨false, io⟩ exec batch later) := by
  -- The executor stands for a list, on which all three parts are known.
  obtain ⟨queue, run, represents, same⟩ := represented (initialized_represents _) reached
  refine ⟨⟨queue, run, represents, same⟩, ?_, ?_⟩
  · -- A poll does what serving the list does, and the list is in ascending order.
    intro coin outcome after task rest first called
    have sorted := queue.items_sorted
    rw [← represents.queued, first] at sorted
    obtain ⟨-, ⟨empty, -⟩ | ⟨task', rest', first', served, left⟩⟩ :=
      call_poll represents.leveled called
    · simp [first] at empty
    · obtain ⟨rfl, rfl⟩ := List.cons.inj (first.symm.trans first')
      exact ⟨served, (List.pairwise_cons.mp sorted).1, left⟩
  · intro batch later last continued distinct
    obtain ⟨queue', -, -, shown⟩ := represented represents continued
    have requests : (batch.map ExecutorCall.spawn ++ later).map ExecutorCall.request =
        batch.map StableQueue.Request.enqueue ++ later.map ExecutorCall.request := by
      rw [List.map_append, List.map_map]
      rfl
    rw [requests] at shown
    -- A task that is spawned once is not in the list before, and does not enter it later.
    rw [spawnedTasks_append, spawnedTasks_append, spawnedTasks_batch] at distinct
    obtain ⟨distinct, -, apart⟩ := List.nodup_append'.mp distinct
    obtain ⟨-, unrepeated, unknown⟩ := List.nodup_append'.mp distinct
    have first := doneAtFirst.eq_def ⟨false, io⟩ exec batch later
    rw [shown] at first
    refine Queue.left_at_first_sorted unrepeated (fun task waits inside => ?_)
      (fun task enters inside => ?_) first
    · exact unknown (enqueue_mem_iff.mp (Queue.entered run task waits)) inside
    · exact apart (List.mem_append_right _ inside) (enqueue_mem_iff.mp enters)

/-- A task that is polled once and put back before others come. -/
def earlierCalls : List (ExecutorCall Nat) := [.spawn ⟨0, .low⟩, .poll false .pending]

/-- Three tasks that come together. -/
def threeTasks : List ImputioTask := [⟨1, .low⟩, ⟨2, .high⟩, ⟨3, .medium⟩]

/-- Five polls, in the second of which a task is put back. -/
def fivePolls : List (ExecutorCall Nat) :=
  [.poll false (.ready 7), .poll true .pending, .poll false (.ready 7), .poll false (.ready 7),
    .poll false (.ready 7)]

/-- Of three tasks that come together, two are done at their first poll, the urgent one first. -/
theorem executor_refines_stable_queue_batch :
    ∃ exec, Run (Steps (Executor.call ⟨false, true⟩)) (.initialized ⟨false, true⟩) earlierCalls
        exec ∧ exec.PollsFirst ⟨false, true⟩ Nat ∧
      doneAtFirst ⟨false, true⟩ exec threeTasks fivePolls =
        stableSort ImputioTask.level [⟨1, .low⟩, ⟨2, .high⟩] := by
  -- The replay supplies the runs, and the theorem says in which order the tasks end.
  have replayed : (replay (Executor.call ⟨false, true⟩) (.initialized ⟨false, true⟩)
      earlierCalls).map (fun exec =>
        (replay (Executor.call ⟨false, true⟩) exec
          (threeTasks.map .spawn ++ fivePolls)).isSome &&
        doneAtFirst ⟨false, true⟩ exec threeTasks fivePolls == [⟨2, .high⟩, ⟨1, .low⟩]) =
      some true := by
    decide
  obtain ⟨exec, run, passed⟩ := Run.of_replay_test replayed
  rw [Bool.and_eq_true, beq_iff_eq] at passed
  obtain ⟨last, continued⟩ := Option.isSome_iff_exists.mp passed.1
  obtain ⟨-, first, sorted⟩ := executor_refines_stable_queue run
  -- The two tasks are those of the three that are done after one poll.
  have ended := sorted threeTasks fivePolls last (.of_replay continued) (by decide)
  have chosen : threeTasks.filter (fun task =>
      task ∈ doneAtFirst ⟨false, true⟩ exec threeTasks fivePolls) =
        [⟨1, .low⟩, ⟨2, .high⟩] := by
    rw [passed.2]
    decide
  rw [chosen] at ended
  exact ⟨exec, run, first, ended⟩

/-- The list of all tasks starts with those of the highest level that has any. -/
theorem queued_of_highest {level : Fin 5} (highest : ∀ higher < level, exec.tasks higher = []) :
    ∃ later, exec.queued = exec.tasks level ++ later := by
  -- All tasks are listed level by level, so that the list is cut at this one.
  obtain ⟨front, later, split⟩ := List.append_of_mem (List.mem_finRange level)
  -- The levels before this one are the higher ones.
  have ascending := List.pairwise_lt_finRange 5
  rw [split] at ascending
  have above : ∀ higher ∈ front, higher < level := fun higher member =>
    (List.pairwise_append.mp ascending).2.2 higher member level (List.mem_cons_self ..)
  have empty : front.flatMap exec.tasks = [] :=
    List.flatMap_eq_nil_iff.mpr fun higher member => highest higher (above higher member)
  exact ⟨later.flatMap exec.tasks, by simp [queued, split, empty]⟩

/--
Without fairness the tasks of one level are polled once each and in the order of their queue, if
there are as many polls as tasks, and nothing of a higher level is there or comes.
-/
theorem level_polled_in_turn {level : Fin 5}
    (reached : Run (Steps (Executor.call ⟨false, io⟩)) (.initialized ⟨false, io⟩) before exec)
    (highest : ∀ higher < level, exec.tasks higher = [])
    (behind : ∀ task, .spawn task ∈ calls → level ≤ task.priority.index)
    (polls : calls.countP ExecutorCall.polls = (exec.tasks level).length)
    (run : Run (Steps (Executor.call ⟨false, io⟩)) exec calls last) :
    (observed (Executor.call ⟨false, io⟩) (Executor.turn ⟨false, io⟩) exec calls).map Prod.fst =
      exec.tasks level := by
  -- On the list that the executor stands for, nobody gets in front of these tasks.
  obtain ⟨queue, -, represents, -⟩ := represented (initialized_represents _) reached
  obtain ⟨queue', -, -, same⟩ := represented represents run
  rw [same]
  obtain ⟨later, split⟩ := queued_of_highest highest
  refine Queue.served_in_turn (represents.queued.symm.trans split)
    (fun task member => represents.leveled level task member) (fun task member => ?_) ?_
  · -- What enters the list meanwhile was spawned meanwhile.
    obtain ⟨call, among, same⟩ := List.mem_map.mp member
    cases call with
    | spawn spawned =>
      obtain rfl := StableQueue.Request.enqueue.inj same
      exact behind spawned among
    | poll => simp [ExecutorCall.request] at same
  · rw [List.countP_map, ← polls]
    refine List.countP_congr fun call _ => ?_
    cases call <;> rfl

/-- Two tasks of one level, and one below them. -/
def twoLevels : List (ExecutorCall Nat) :=
  [.spawn ⟨0, .medium⟩, .spawn ⟨1, .low⟩, .spawn ⟨2, .medium⟩]

/-- Two polls with a task of the same level in between, and with one that is put back. -/
def twoPolls : List (ExecutorCall Nat) :=
  [.poll false .pending, .spawn ⟨3, .medium⟩, .poll false (.ready 7)]

/-- Two polls serve both tasks of a level, although the first one is put back. -/
theorem level_polled_in_turn_twice :
    ∃ exec, Run (Steps (Executor.call ⟨false, false⟩)) (.initialized ⟨false, false⟩) twoLevels
        exec ∧
      (observed (Executor.call ⟨false, false⟩) (Executor.turn ⟨false, false⟩) exec
        twoPolls).map Prod.fst = [⟨0, .medium⟩, ⟨2, .medium⟩] := by
  -- The replay shows what the queues hold, and the theorem who is polled.
  have replayed : (replay (Executor.call ⟨false, false⟩) (.initialized ⟨false, false⟩)
      twoLevels).map (fun exec =>
        (replay (Executor.call ⟨false, false⟩) exec twoPolls).isSome &&
        decide (exec.tasks 0 = [] ∧ exec.tasks 1 = [] ∧
          exec.tasks 2 = [⟨0, .medium⟩, ⟨2, .medium⟩])) = some true := by
    decide
  obtain ⟨exec, run, passed⟩ := Run.of_replay_test replayed
  rw [Bool.and_eq_true, decide_eq_true_eq] at passed
  obtain ⟨continues, none_first, none_second, level⟩ := passed
  obtain ⟨last, continued⟩ := Option.isSome_iff_exists.mp continues
  refine ⟨exec, run, ?_⟩
  rw [← level]
  refine level_polled_in_turn run (fun higher above => ?_) (fun task member => ?_) ?_
    (.of_replay continued)
  · -- Two levels are higher than this one.
    have two : higher = 0 ∨ higher = 1 := by omega
    rcases two with rfl | rfl
    · exact none_first
    · exact none_second
  · obtain rfl : task = ⟨3, .medium⟩ := by simpa [twoPolls] using member
    decide
  · rw [level]
    decide

end Imputio
