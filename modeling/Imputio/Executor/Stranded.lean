import Imputio.Executor.Conservation

/-! A task handle is resolved by the end of its future only, not by the loss of its task. -/

namespace Imputio

open Transition

namespace Pool

variable {n : Nat} {V : Type*} {features : Features} {s t : Pool n V} {act : PoolAction n V}
  {task : ImputioTask}

/-- An executor has left its loop, and its channel has been dropped as well. -/
def Gone (s : Pool n V) (worker : Fin n) : Prop :=
  (s.executors worker).state = .exited ∧ s.held = false

/-- A task that was refused, or whose executor and channel are gone, has a resolved handle. -/
def NoneStranded (s : Pool n V) : Prop :=
  ∀ task, (task ∈ s.failed ∨ ∃ worker, s.Gone worker ∧ task ∈ (s.executors worker).received) →
    (s.cells task.innerTask).Resolved

/-- A step drops an executor or its channel, whichever is the last of the two. -/
def LetsGo (features : Features) (s : Pool n V) (act : PoolAction n V) (worker : Fin n) : Prop :=
  (act = .dropCoordinator ∧ (s.executors worker).state = .exited) ∨
    (s.held = false ∧ s.Leaves features act worker)

/--
No task is given up before its future has ended.

A task is spawned only while its executor listens, and an executor goes together with its channel
only after every task that it received has been polled to its end, the one polled now included.
-/
def KeepsTasks (features : Features) (s : Pool n V) (act : PoolAction n V) : Prop :=
  (∀ call priority index (inRange : index < n), act = .send call →
    s.calls call = .stored (.spawn priority) index →
    (s.executors ⟨index, inRange⟩).rx.connected = true) ∧
  ∀ worker, s.LetsGo features act worker → ∀ task ∈ (s.executors worker).received,
    task ∈ s.finished ∨ task ∈ s.crashed ∨ s.polledTask features act = some task

/-- A task that was ever spawned. -/
def Made (s : Pool n V) (task : ImputioTask) : Prop :=
  task ∈ s.failed ∨ ∃ worker, task ∈ (s.executors worker).received

/-- The future of a task has ended, with a result or with a panic. -/
def Ended (s : Pool n V) (task : ImputioTask) : Prop := task ∈ s.finished ∨ task ∈ s.crashed

/-- The future of a task ends in a step. -/
def Ends (features : Features) (s : Pool n V) (act : PoolAction n V) (task : ImputioTask) : Prop :=
  s.polledTask features act = some task ∧
    ∃ worker coin outcome, act = .recv worker coin outcome ∧ outcome ≠ .pending

/-- The names of tasks are unique, and a handle is resolved exactly when the future has ended. -/
structure Tracked (s : Pool n V) : Prop where
  conserves : s.Conserves
  made : ∀ task, s.Made task → task.innerTask < s.nextTask
  distinct : ∀ task other, s.Made task → s.Made other → task.innerTask = other.innerTask →
    task = other
  resolved : ∀ task, s.Made task → ((s.cells task.innerTask).Resolved ↔ s.Ended task)
  ended : ∀ task, s.Ended task → s.Made task
  connected : ∀ worker, (s.executors worker).rx.connected = true ↔
    (s.executors worker).state ≠ .exited

/-- An executor that is replaced in its loop has neither left it nor lost its channel. -/
theorem setExecutor_loops (s : Pool n V) (worker : Fin n) (exec : Executor)
    (state : exec.state = .exited ↔ (s.executors worker).state = .exited)
    (connected : exec.rx.connected = (s.executors worker).rx.connected) (other : Fin n) :
    (((s.setExecutor worker exec).executors other).state = .exited ↔
        (s.executors other).state = .exited) ∧
      ((s.setExecutor worker exec).executors other).rx.connected =
        (s.executors other).rx.connected := by
  -- The other executors are the same.
  rw [setExecutor_apply]
  split
  · rename_i here
    subst here
    exact ⟨state, connected⟩
  · exact ⟨Iff.rfl, rfl⟩

/-- An executor has exited, and is disconnected, exactly if it was or leaves its loop now. -/
theorem Effect.loops (effect : s.Effect features act t) (worker : Fin n) :
    ((t.executors worker).state = .exited ↔
        (s.executors worker).state = .exited ∨ s.Leaves features act worker) ∧
      ((t.executors worker).rx.connected = true ↔
        (s.executors worker).rx.connected = true ∧ ¬ s.Leaves features act worker) := by
  -- Where nobody leaves, the loops are as before.
  have stay : (∀ worker, ¬ s.Leaves features act worker) →
      ((t.executors worker).state = .exited ↔ (s.executors worker).state = .exited) ∧
        (t.executors worker).rx.connected = (s.executors worker).rx.connected →
      ((t.executors worker).state = .exited ↔
        (s.executors worker).state = .exited ∨ s.Leaves features act worker) ∧
      ((t.executors worker).rx.connected = true ↔
        (s.executors worker).rx.connected = true ∧ ¬ s.Leaves features act worker) := by
    intro stays same
    simp only [same.1, same.2, stays worker, or_false, not_false_eq_true, and_true]
  cases effect with
  | quiet same _ stays => exact stay stays ⟨same.exited worker, same.connected worker⟩
  | @spawned call =>
    refine stay (fun _ => not_false) ((s.create call).setExecutor_loops _ _ ?_ ?_ worker)
    · exact Iff.rfl
    · rfl
  | refused => exact stay (fun _ => not_false) ⟨Iff.rfl, rfl⟩
  | @enqueued taker coin outcome task rest receiving front =>
    refine stay (fun other leaves => ?_) (s.setExecutor_loops _ _ ?_ ?_ worker)
    · obtain ⟨-, -, polls⟩ := leaves
      simp [polledTask, front] at polls
    · simp [receiving, Executor.spawn]
    · rfl
  | @polled taker coin outcome task level later rest exec receiving front picked popped channel
      received running tasks =>
    have kept := s.setExecutor_loops taker exec (by simp [receiving, running]) (by rw [channel])
      worker
    cases outcome with
    | ready value => exact stay (fun _ leaves => absurd leaves.2.1 (by simp)) kept
    | pending => exact stay (fun _ leaves => absurd leaves.2.1 (by simp)) kept
    | panicked =>
      -- The thread of the executor unwinds.
      have leaves : s.Leaves features (.recv taker coin .panicked) worker ↔ worker = taker := by
        simp only [Leaves, picked, Option.isSome_some, and_true]
        exact eq_comm
      obtain ⟨-, exited, connected⟩ := leave_executors _ taker worker
      rw [leaves]
      refine ⟨exited.trans ?_, connected.trans ?_⟩
      · rw [or_comm]
        exact or_congr_left kept.1
      · rw [and_comm]
        exact and_congr_left' (kept.2 ▸ Iff.rfl)
  | @left leaver checking flag =>
    have leaves : s.Leaves features (.check leaver) worker ↔ worker = leaver := by
      simp only [Leaves, flag, and_true]
      exact eq_comm
    obtain ⟨-, exited, connected⟩ := s.leave_executors leaver worker
    rw [leaves, exited, connected]
    exact ⟨or_comm, and_comm⟩
  | released held =>
    obtain ⟨-, state, -, connected⟩ := dropChannels_executors { s with held := false }
      (fun worker => (s.executors worker).state == LoopState.exited) worker
    exact stay (fun _ => not_false) ⟨by rw [state], connected⟩

/-- The coordinator is held until it is dropped. -/
theorem Effect.holds (effect : s.Effect features act t) :
    t.held = false ↔ s.held = false ∨ act = .dropCoordinator := by
  -- Only one action gives the coordinator up.
  cases effect with
  | quiet same _ _ held => simp only [same.held, held, or_false]
  | released held => simp [dropChannels]
  | @polled _ _ outcome => cases outcome <;> simp [Pool.polled, setExecutor, leave, dropChannels]
  | _ => simp [create, accept, refuse, setCall, setExecutor, leave, dropChannels]

/-- An executor goes exactly when it has gone before or is let go now. -/
theorem Effect.gone (effect : s.Effect features act t) (worker : Fin n) :
    t.Gone worker ↔ s.Gone worker ∨ s.LetsGo features act worker := by
  -- An executor goes with the later one of the two, its loop or the senders.
  rw [Gone, (effect.loops worker).1, effect.holds, Gone, LetsGo]
  by_cases drop : act = .dropCoordinator
  · subst drop
    simp only [Leaves]
    grind
  · simp only [drop, or_false, false_and, false_or]
    grind

/-- Where no task is polled, no future ends. -/
theorem not_ends (unpolled : s.polledTask features act = none) : ¬ s.Ends features act task :=
  fun ends => by cases unpolled.symm.trans ends.1

/-- A turn of the loop that polls a task ends its future unless it is pending. -/
theorem ends_recv_iff {worker : Fin n} {coin : Bool} {outcome : FutureStep V} {other : ImputioTask}
    (picked : s.polledTask features (.recv worker coin outcome) = some task) :
    s.Ends features (.recv worker coin outcome) other ↔ other = task ∧ outcome ≠ .pending := by
  -- There is at most one polled task in a step.
  constructor
  · intro ends
    obtain ⟨polls, _, _, _, same, ready⟩ := ends
    obtain ⟨-, -, rfl⟩ := PoolAction.recv.inj same
    exact ⟨Option.some.inj (polls.symm.trans picked), ready⟩
  · intro ends
    obtain ⟨rfl, ready⟩ := ends
    exact ⟨picked, worker, coin, outcome, rfl, ready⟩

/-- The futures that have ended are those of before and the one that ends in the step. -/
theorem Effect.ended (effect : s.Effect features act t) :
    t.Ended task ↔ s.Ended task ∨ s.Ends features act task := by
  -- The two histories of ended futures are extended by the polled task only.
  cases effect with
  | quiet same _ _ _ unpolled =>
    rw [Ended, same.finished, same.crashed, Ended, or_iff_left (not_ends unpolled)]
  | spawned => rw [or_iff_left (not_ends rfl)]; rfl
  | refused => rw [or_iff_left (not_ends rfl)]; rfl
  | enqueued _ front =>
    rw [or_iff_left (not_ends (by simp [polledTask, front]))]
    rfl
  | @polled _ _ outcome polled _ _ _ _ _ _ picked =>
    rw [ends_recv_iff picked]
    cases outcome with
    | ready value =>
      simp only [Ended, Pool.polled, List.mem_append, List.mem_singleton, setExecutor]
      grind
    | pending => simp [Ended, Pool.polled, setExecutor]
    | panicked =>
      simp only [Ended, Pool.polled, leave, dropChannels, List.mem_append, List.mem_singleton,
        setExecutor]
      grind
  | left => rw [or_iff_left (not_ends rfl)]; rfl
  | released => rw [or_iff_left (not_ends rfl)]; rfl

/-- The handle of a task that was made before is resolved by the end of its future only. -/
theorem Effect.resolves (effect : s.Effect features act t) {id : TaskId} (old : id < s.nextTask) :
    (t.cells id).Resolved ↔
      (s.cells id).Resolved ∨ ∃ task, task.innerTask = id ∧ s.Ends features act task := by
  -- Only a poll resolves anything, and it is the only step in which a future ends.
  have quiet : s.polledTask features act = none →
      ¬ ∃ task, task.innerTask = id ∧ s.Ends features act task :=
    fun unpolled found => not_ends unpolled found.choose_spec.2
  have apart : id ≠ s.nextTask := Nat.ne_of_lt old
  cases effect with
  | quiet same _ _ _ unpolled => rw [same.cells, or_iff_left (quiet unpolled)]
  | spawned =>
    rw [or_iff_left (quiet rfl)]
    simp [accept, create, setCall, setExecutor, apart]
  | refused =>
    rw [or_iff_left (quiet rfl)]
    simp [refuse, create, setCall, apart]
  | enqueued _ front =>
    rw [or_iff_left (quiet (by simp [polledTask, front]))]
    rfl
  | @polled worker coin outcome task _ _ _ _ _ _ picked =>
    have polls : (Function.update s.cells task.innerTask
        ((s.cells task.innerTask).pollTask outcome) id).Resolved ↔
        (s.cells id).Resolved ∨ (task.innerTask = id ∧ outcome ≠ .pending) := by
      by_cases here : id = task.innerTask
      · subst here
        simp only [Function.update_self, TaskCell.pollTask_resolved, true_and]
        exact or_comm
      · simp [here, Ne.symm here]
    have ends : (∃ other : ImputioTask, other.innerTask = id ∧
        s.Ends features (.recv worker coin outcome) other) ↔
          task.innerTask = id ∧ outcome ≠ .pending := by
      simp only [ends_recv_iff picked]
      constructor
      · rintro ⟨_, same, rfl, ready⟩
        exact ⟨same, ready⟩
      · rintro ⟨same, ready⟩
        exact ⟨task, same, rfl, ready⟩
    rw [ends, ← polls]
    -- Dropping the polled task resolves nothing by itself.
    cases outcome <;> simp [Pool.polled]
  | left => rw [or_iff_left (quiet rfl), leave_resolved]
  | released => rw [or_iff_left (quiet rfl)]; simp [dropChannels]

/-- A call makes a task, which an executor that listens receives or which is refused. -/
inductive Makes (s : Pool n V) (act : PoolAction n V) (t : Pool n V) : Prop
  | accepted (call : CallId) (priority : Priority) (index : Nat) (inRange : index < n)
      (sending : act = .send call) (asked : s.calls call = .stored (.spawn priority) index)
      (connected : (s.executors ⟨index, inRange⟩).rx.connected = true)
      (received : ∀ worker, (t.executors worker).received =
        if worker = ⟨index, inRange⟩ then
          (s.executors worker).received ++ [⟨s.nextTask, priority⟩]
        else (s.executors worker).received)
      (failed : t.failed = s.failed)
  | refused (call : CallId) (priority : Priority) (index : Nat) (inRange : index < n)
      (sending : act = .send call) (asked : s.calls call = .stored (.spawn priority) index)
      (gone : (s.executors ⟨index, inRange⟩).rx.connected = false)
      (received : ∀ worker, (t.executors worker).received = (s.executors worker).received)
      (failed : t.failed = s.failed ++ [⟨s.nextTask, priority⟩])

/-- A step makes a task, or it leaves the histories as they are and sends to nobody who is gone. -/
theorem Effect.makes (effect : s.Effect features act t) :
    (t.nextTask = s.nextTask + 1 ∧ ¬ (t.cells s.nextTask).Resolved ∧ s.Makes act t) ∨
      (t.nextTask = s.nextTask ∧ t.failed = s.failed ∧
        (∀ worker, (t.executors worker).received = (s.executors worker).received) ∧
        ∀ call priority index, index < n → act = .send call →
          s.calls call ≠ .stored (.spawn priority) index) := by
  -- A replaced executor keeps its history.
  have kept : ∀ {worker : Fin n} {exec : Executor},
      exec.received = (s.executors worker).received → ∀ other,
      ((s.setExecutor worker exec).executors other).received = (s.executors other).received := by
    intro worker exec same other
    rw [setExecutor_apply]
    split
    · rename_i here
      rw [same, here]
    · rfl
  cases effect with
  | quiet same noSpawn => exact .inr ⟨same.nextTask, same.failed, same.received, noSpawn⟩
  | @spawned call priority index asked inRange connected =>
    refine .inl ⟨rfl, ?_,
      .accepted call priority index inRange rfl asked connected (fun other => ?_) rfl⟩
    · simp [accept, create, setExecutor, TaskCell.new_unresolved]
    · rw [accept, setExecutor_apply]
      split
      · rename_i here
        rw [here]
        rfl
      · rfl
  | @refused call priority index asked inRange gone =>
    refine .inl ⟨rfl, ?_, .refused call priority index inRange rfl asked gone (fun _ => rfl) rfl⟩
    simp [refuse, create, TaskCell.new_unresolved]
  | enqueued => exact .inr ⟨rfl, rfl, kept rfl, by simp⟩
  | @polled worker coin outcome task level later rest exec _ _ _ _ _ received =>
    cases outcome with
    | ready value => exact .inr ⟨rfl, rfl, kept received, by simp⟩
    | pending => exact .inr ⟨rfl, rfl, kept received, by simp⟩
    | panicked =>
      exact .inr ⟨rfl, rfl, fun other => (leave_executors _ worker other).1.trans (kept received _),
        by simp⟩
  | left => exact .inr ⟨rfl, rfl, fun other => (leave_executors _ _ other).1, by simp⟩
  | released => exact .inr ⟨rfl, rfl, fun other => (dropChannels_executors _ _ other).1, by simp⟩

/-- What an executor has received stays in its history. -/
theorem Effect.received (effect : s.Effect features act t) (worker : Fin n) :
    (s.executors worker).received ⊆ (t.executors worker).received := by
  -- The history of an executor is only ever extended.
  have same : (t.executors worker).received = (s.executors worker).received →
      (s.executors worker).received ⊆ (t.executors worker).received :=
    fun same => same ▸ List.Subset.refl _
  obtain ⟨-, -, makes⟩ | ⟨-, -, received, -⟩ := effect.makes
  · rcases makes with ⟨_, _, _, _, _, _, _, received, _⟩ | ⟨_, _, _, _, _, _, _, received, _⟩
    · rw [received]
      split
      · exact List.subset_append_left ..
      · exact List.Subset.refl _
    · exact same (received worker)
  · exact same (received worker)

/-- A fresh pool has no tasks, and its executors listen unless they have exited. -/
theorem Fresh.tracked (fresh : s.Fresh features) : s.Tracked := by
  -- Nothing is claimed of tasks that do not exist.
  have nothing : ∀ task, ¬ s.Made task := by
    rcases fresh with rfl | rfl
    all_goals simp [Made, initialized, withExecutors, Executor.initialized, Executor.absent]
  refine ⟨fresh.conserves, fun task made => absurd made (nothing task),
    fun task _ made => absurd made (nothing task), fun task made => absurd made (nothing task),
    ?_, ?_⟩
  all_goals rcases fresh with rfl | rfl
  all_goals simp [Ended, initialized, withExecutors, Executor.initialized, Executor.absent,
    Channel.unbounded, Channel.bounded, Channel.disconnect]

/-- A step makes at most one task, with the next name. -/
theorem Effect.made_iff (effect : s.Effect features act t) :
    ∃ new : ImputioTask, new.innerTask = s.nextTask ∧
      ∀ task, t.Made task ↔ s.Made task ∨ task = new ∧ t.nextTask = s.nextTask + 1 := by
  -- The new task is in the history of its executor, or among the refused ones.
  obtain ⟨more, -, makes⟩ | ⟨same, failed, received, -⟩ := effect.makes
  · rcases makes with ⟨call, priority, index, inRange, -, -, -, received, failed⟩ |
      ⟨call, priority, index, inRange, -, -, -, received, failed⟩
    · refine ⟨⟨s.nextTask, priority⟩, rfl, fun task => ?_⟩
      simp only [Made, received, failed, more, and_true]
      constructor
      · intro made
        rcases made with refused | ⟨worker, member⟩
        · exact .inl (.inl refused)
        · split at member
          · rcases List.mem_append.mp member with old | new
            · exact .inl (.inr ⟨worker, old⟩)
            · exact .inr (List.mem_singleton.mp new)
          · exact .inl (.inr ⟨worker, member⟩)
      · intro made
        rcases made with (refused | ⟨worker, member⟩) | rfl
        · exact .inl refused
        · refine .inr ⟨worker, ?_⟩
          split
          · exact List.mem_append_left _ member
          · exact member
        · exact .inr ⟨⟨index, inRange⟩, by simp⟩
    · refine ⟨⟨s.nextTask, priority⟩, rfl, fun task => ?_⟩
      simp only [Made, received, failed, more, and_true, List.mem_append, List.mem_singleton]
      grind
  · refine ⟨⟨s.nextTask, .low⟩, rfl, fun task => ?_⟩
    simp [Made, received, failed, same]

/-- A task that is polled was made before. -/
theorem Tracked.polled (tracked : s.Tracked) (polls : s.polledTask features act = some task) :
    s.Made task := by
  obtain ⟨worker, level, queued⟩ := queued_of_polledTask polls
  exact .inr ⟨worker, (tracked.conserves.accounted _ task queued).1⟩

/-- The handle of a task is resolved by a step exactly if it was or its own future ends. -/
theorem Effect.resolves_made (effect : s.Effect features act t) (tracked : s.Tracked)
    (made : s.Made task) : (t.cells task.innerTask).Resolved ↔
      (s.cells task.innerTask).Resolved ∨ s.Ends features act task := by
  -- Another task with that name would be the same task.
  rw [effect.resolves (tracked.made task made)]
  refine or_congr_right ⟨fun found => ?_, fun ends => ⟨task, rfl, ends⟩⟩
  obtain ⟨other, same, ends⟩ := found
  obtain rfl := tracked.distinct other task (tracked.polled ends.1) made same
  exact ends

/-- Every step keeps the handles in line with the futures. -/
theorem Effect.tracked (effect : s.Effect features act t) (tracked : s.Tracked) : t.Tracked := by
  -- The fields are about the old tasks and the new one in turn.
  obtain ⟨new, next, made⟩ := effect.made_iff
  have grown : s.nextTask ≤ t.nextTask := by
    rcases effect.all with ⟨same, -⟩ | ⟨more, -⟩
    · exact Nat.le_of_eq same.symm
    · exact more ▸ Nat.le_succ _
  have apart : ∀ task, s.Made task → task.innerTask ≠ s.nextTask :=
    fun task old => Nat.ne_of_lt (tracked.made task old)
  refine ⟨effect.conserves tracked.conserves, fun task now => ?_,
    fun task other now now' same => ?_,
    fun task now => ?_, fun task now => ?_, fun worker => ?_⟩
  · rcases (made task).mp now with old | ⟨rfl, more⟩
    · exact Nat.lt_of_lt_of_le (tracked.made task old) grown
    · rw [next, more]
      exact Nat.lt_succ_self _
  · rcases (made task).mp now with old | ⟨rfl, -⟩ <;>
      rcases (made other).mp now' with old' | ⟨rfl, -⟩
    · exact tracked.distinct task other old old' same
    · exact absurd (same.trans next) (apart task old)
    · exact absurd (same.symm.trans next) (apart other old')
    · rfl
  · rw [effect.ended]
    rcases (made task).mp now with old | ⟨rfl, more⟩
    · rw [effect.resolves_made tracked old, tracked.resolved task old]
    · -- The new task is not resolved, and nobody has polled it yet.
      obtain ⟨-, unresolved, -⟩ | ⟨same, -⟩ := effect.makes
      · rw [next]
        refine ⟨fun resolved => absurd resolved unresolved, fun ended => ?_⟩
        rcases ended with ended | ends
        · exact absurd next (apart task (tracked.ended task ended))
        · exact absurd next (apart task (tracked.polled ends.1))
      · exact absurd (same.symm.trans more) (Nat.ne_of_lt (Nat.lt_succ_self _))
  · rw [made]
    rcases effect.ended.mp now with ended | ends
    · exact .inl (tracked.ended task ended)
    · exact .inl (tracked.polled ends.1)
  · rw [(effect.loops worker).2, ne_eq, (effect.loops worker).1, tracked.connected]
    exact not_or.symm

/-- The handles that a step strands are those of the tasks that it gives up. -/
theorem Effect.noneStranded_iff (effect : s.Effect features act t) (tracked : s.Tracked)
    (none : s.NoneStranded) : t.NoneStranded ↔ s.KeepsTasks features act := by
  -- A handle that is resolved stays so, and only two kinds of steps strand a task.
  have resolved : ∀ task, s.Made task → (s.cells task.innerTask).Resolved →
      (t.cells task.innerTask).Resolved :=
    fun task made before => (effect.resolves_made tracked made).mpr (.inl before)
  constructor
  · intro kept
    constructor
    · -- A refused task would be stranded at once.
      intro call priority index inRange sending asked
      obtain ⟨-, unresolved, makes⟩ | ⟨-, -, -, noSpawn⟩ := effect.makes
      · rcases makes with ⟨call', priority', index', inRange', sending', asked', connected, -, -⟩ |
          ⟨call', priority', index', inRange', sending', asked', gone, -, failed⟩
        · obtain rfl := PoolAction.send.inj (sending.symm.trans sending')
          obtain ⟨-, rfl⟩ := CallProgress.stored.inj (asked.symm.trans asked')
          exact connected
        · have member : (⟨s.nextTask, priority'⟩ : ImputioTask) ∈ t.failed := by simp [failed]
          exact absurd (kept _ (.inl member)) unresolved
      · exact absurd asked (noSpawn call priority index inRange sending)
    · -- The tasks of an executor that goes now must all have a resolved handle.
      intro worker going task member
      have gone := (effect.gone worker).mpr (.inr going)
      have made : s.Made task := .inr ⟨worker, member⟩
      have there := kept task (.inr ⟨worker, gone, effect.received worker member⟩)
      rcases (effect.resolves_made tracked made).mp there with before | ends
      · rcases (tracked.resolved task made).mp before with finished | crashed
        · exact .inl finished
        · exact .inr (.inl crashed)
      · exact .inr (.inr ends.1)
  · intro keeps task given
    rcases given with refused | ⟨worker, gone, member⟩
    · -- A message can be refused in an earlier step only.
      have before : task ∈ s.failed := by
        obtain ⟨-, -, makes⟩ | ⟨-, failed, -⟩ := effect.makes
        · rcases makes with ⟨_, _, _, _, _, _, _, _, failed⟩ |
            ⟨call, priority, index, inRange, sending, asked, deaf, -, -⟩
          · exact failed ▸ refused
          · cases deaf.symm.trans (keeps.1 call priority index inRange sending asked)
        · exact failed ▸ refused
      exact resolved task (.inl before) (none task (.inl before))
    · -- Nothing is sent to an executor that is gone, so it has received the task before.
      have before : task ∈ (s.executors worker).received := by
        obtain ⟨-, -, makes⟩ | ⟨-, -, received, -⟩ := effect.makes
        · rcases makes with
            ⟨call, priority, index, inRange, sending, asked, connected, received, -⟩ |
            ⟨_, _, _, _, _, _, _, received, _⟩
          · rw [received] at member
            split at member
            · rename_i here
              subst here sending
              have alive := (tracked.connected _).mp connected
              have exited := (effect.loops _).1.mp gone.1
              exact absurd exited (not_or.mpr ⟨alive, not_false⟩)
            · exact member
          · exact received worker ▸ member
        · exact received worker ▸ member
      have made : s.Made task := .inr ⟨worker, before⟩
      rcases (effect.gone worker).mp gone with old | going
      · exact resolved task made (none task (.inr ⟨worker, old, before⟩))
      · rcases keeps.2 worker going task before with finished | crashed | polls
        · exact resolved task made ((tracked.resolved task made).mpr (.inl finished))
        · exact resolved task made ((tracked.resolved task made).mpr (.inr crashed))
        · -- The executor goes because the poll of the task panics.
          refine (effect.resolves_made tracked made).mpr (.inr ⟨polls, ?_⟩)
          rcases going with ⟨rfl, -⟩ | ⟨-, leaves⟩
          · simp [polledTask] at polls
          · cases act with
            | recv leaving coin outcome =>
              obtain ⟨-, rfl, -⟩ := leaves
              exact ⟨leaving, coin, .panicked, rfl, by simp⟩
            | _ => simp [polledTask] at polls

end Pool

section Stranded

variable {n : Nat} {V : Type*} {features : Features} {start last : Pool n V}
  {acts : List (PoolAction n V)}

/-- No handle is ever stranded exactly in the runs that give up no task before its future ends. -/
theorem no_handle_stranded (fresh : start.Fresh features)
    (run : Run (Steps (Pool.next features)) start acts last) :
    Throughout (Steps (Pool.next features)) start Pool.NoneStranded acts ↔
      Run (Guarded (Pool.KeepsTasks features) (Steps (Pool.next features))) start acts last := by
  -- A fresh pool has refused nothing, and nothing of it is gone.
  have init : start.NoneStranded := by
    rcases fresh with rfl | rfl
    all_goals simp [Pool.NoneStranded, Pool.Gone, Pool.initialized, Pool.withExecutors]
  exact run.throughout_iff_guarded steps_functional fresh.tracked
    (fun _ _ _ tracked step => (Pool.step_effect step).tracked tracked) init
    fun _ _ _ tracked none step => (Pool.step_effect step).noneStranded_iff tracked none

/-- One spawn on a coordinator with one handle. -/
def spawnOnce : List (PoolAction 1 Nat) := [.call (.spawn .high), .store 0, .send 0]

/-- The placeholder refuses the task, and its future keeps the only sender of the handle. -/
theorem placeholder_strands_handle :
    ∃ s : Pool 1 Nat, Run (Steps (Pool.next ⟨false, false⟩)) Pool.new spawnOnce s ∧
      ⟨0, .high⟩ ∈ s.failed ∧ ¬ s.NoneStranded := by
  -- The run is replayed, and its last state is tested.
  have replayed : (replay (Pool.next ⟨false, false⟩) (Pool.new : Pool 1 Nat) spawnOnce).map
      (fun s => s.failed == [⟨0, .high⟩] && !decide (s.cells 0).Resolved) = some true := by
    decide
  obtain ⟨s, run, stranded⟩ := Run.of_replay_test replayed
  simp only [Bool.and_eq_true, beq_iff_eq, Bool.not_eq_true', decide_eq_false_iff_not] at stranded
  have refused : ⟨0, .high⟩ ∈ s.failed := by simp [stranded.1]
  exact ⟨s, run, refused, fun none => stranded.2 (none _ (.inl refused))⟩

/-- The coordinator is held while it is used, and dropped once every task has been finished. -/
def Pool.HeldToTheEnd (s : Pool n V) : PoolAction n V → Prop
  | .send _ => s.held = true ∧ ∀ worker, (s.executors worker).rx.connected = true
  | .dropCoordinator =>
    s.held = true ∧ ∀ worker, ∀ task ∈ (s.executors worker).received, task ∈ s.finished
  | _ => s.held = true

instance (s : Pool n V) : (act : PoolAction n V) → Decidable (s.HeldToTheEnd act)
  | .send _ => @instDecidableAnd _ _ _ (Nat.decidableForallFin _)
  | .dropCoordinator => @instDecidableAnd _ _ _ (Nat.decidableForallFin _)
  | .call _ | .store _ | .receive _ | .recv _ _ _ | .check _ | .shutdown | .pollerRecv _
  | .pollerExit _ => inferInstanceAs (Decidable (_ = _))

/-- Where the coordinator is held to the end, no task is given up. -/
theorem Pool.HeldToTheEnd.keepsTasks {s : Pool n V} {act : PoolAction n V}
    (lasts : s.HeldToTheEnd act) : s.KeepsTasks features act := by
  -- The two ways to lose a task are gone through; both need a channel to go.
  have held : s.held = true := by
    cases act with
    | send call => exact lasts.1
    | dropCoordinator => exact lasts.1
    | _ => exact lasts
  constructor
  · rintro call priority index inRange rfl -
    exact lasts.2 ⟨index, inRange⟩
  · -- While the coordinator is held, only its own end takes a channel away.
    rintro worker (⟨rfl, -⟩ | ⟨released, -⟩) task received
    · exact .inl (lasts.2 worker task received)
    · simp [held] at released

/-- The task is polled to its end, the executor leaves, and the coordinator is dropped. -/
def spawnToTheEnd {n : Nat} (worker : Fin n) : List (PoolAction n Nat) :=
  [.call (.spawn .high), .store 0, .send 0, .call .poll, .store 1, .send 1,
    .recv worker false .pending, .check worker, .recv worker false (.ready 7), .shutdown,
    .check worker, .dropCoordinator]

/-- The same spawn on a started executor strands nothing, as the executor leaves without tasks. -/
theorem no_handle_stranded_once :
    ∃ s : Pool 1 Nat, Run (Steps (Pool.next ⟨false, false⟩)) (Pool.initialized ⟨false, false⟩)
      (spawnToTheEnd 0) s ∧ s.Gone 0 ∧ ⟨0, .high⟩ ∈ (s.executors 0).received ∧
      Throughout (Steps (Pool.next ⟨false, false⟩)) (.initialized ⟨false, false⟩ : Pool 1 Nat)
        Pool.NoneStranded (spawnToTheEnd 0) := by
  -- Every step of the replay is tested, and its last state as well.
  have replayed : (replay (checked Pool.HeldToTheEnd (Pool.next ⟨false, false⟩))
      (Pool.initialized ⟨false, false⟩ : Pool 1 Nat) (spawnToTheEnd 0)).map (fun s =>
        (s.executors 0).state == .exited && !s.held &&
          (s.executors 0).received == [⟨0, .high⟩]) = some true := by
    decide
  obtain ⟨s, run, final⟩ := Run.of_replay_test replayed
  simp only [Bool.and_eq_true, beq_iff_eq, Bool.not_eq_true'] at final
  obtain ⟨gone, received⟩ := final
  have kept : Run (Guarded (Pool.KeepsTasks ⟨false, false⟩) (Steps (Pool.next ⟨false, false⟩)))
      (Pool.initialized ⟨false, false⟩) (spawnToTheEnd 0) s :=
    (run.mono guarded_of_checked).mono fun _ _ _ step => ⟨step.1.keepsTasks, step.2⟩
  exact ⟨s, kept.unguard, gone, received ▸ List.mem_singleton_self _,
    (no_handle_stranded (.inl rfl) kept.unguard).mpr kept⟩

end Stranded

end Imputio
