import Imputio.Executor.Stranded
import Imputio.Task.Blocking

/-! Spawned futures and futures that are run on the calling thread come to the same value. -/

namespace Imputio

open Transition

/-- The value that one poll of a future has to send. -/
def FutureStep.value {V : Type*} : FutureStep V → Option V
  | .ready value => some value
  | _ => none

/-- Dropping tasks takes no result out of a channel. -/
theorem dropTasks_result {V : Type*} (cells : TaskId → TaskCell V) (tasks : List ImputioTask)
    (id : TaskId) : (dropTasks cells tasks id).result = (cells id).result := by
  -- The loop is followed for arbitrary cells.
  induction tasks generalizing cells with
  | nil => rfl
  | cons task tasks ih =>
    show (dropTasks (Function.update cells task.innerTask _) tasks id).result = _
    rw [ih, Function.update_apply]
    split
    · rename_i same
      rw [same]
      rfl
    · rfl

/-- A poll puts the value of a ready future into the channel. -/
theorem TaskCell.pollTask_result {V : Type*} (outcome : FutureStep V) (cell : TaskCell V) :
    (cell.pollTask outcome).result = outcome.value.or cell.result := by
  -- Only the wrapper around a ready future sends anything.
  cases outcome <;> rfl

namespace Pool

variable {n : Nat} {V : Type*} {features : Features} {s t : Pool n V} {act : PoolAction n V}

/-- The outcome that an action carries for the task that it polls. -/
def outcomeOf : PoolAction n V → FutureStep V
  | .recv _ _ outcome => outcome
  | _ => .pending

/-- The channel of a task has what it had, unless the step polls the task to its end. -/
theorem Effect.result (effect : s.Effect features act t) {id : TaskId} (old : id < s.nextTask) :
    (t.cells id).result =
      if (s.polledTask features act).map ImputioTask.innerTask = some id then
        (outcomeOf act).value.or (s.cells id).result
      else (s.cells id).result := by
  -- Where no task is polled, the cells of old tasks are only dropped.
  have apart : id ≠ s.nextTask := Nat.ne_of_lt old
  cases effect with
  | quiet same _ _ _ unpolled => rw [same.cells, unpolled, Option.map_none, if_neg (by simp)]
  | spawned =>
    simp [polledTask, accept, create, setCall, setExecutor, apart]
  | refused =>
    simp [polledTask, refuse, create, setCall, apart, dropTasks_result]
  | @enqueued worker coin outcome task rest receiving front =>
    have unpolled : s.polledTask features (.recv worker coin outcome) = none := by
      simp [polledTask, front]
    rw [unpolled, Option.map_none, if_neg (by simp)]
    rfl
  | @polled worker coin outcome task _ _ _ exec _ _ picked =>
    -- What is done with the task after its poll takes no result away.
    have cells : ((s.polled worker exec task outcome).cells id).result =
        (Function.update s.cells task.innerTask
          ((s.cells task.innerTask).pollTask outcome) id).result := by
      cases outcome <;> simp [Pool.polled, leave, dropChannels, dropTasks_result]
    rw [cells, picked, Option.map_some, Function.update_apply]
    by_cases here : id = task.innerTask
    · rw [if_pos here, if_pos (congrArg some here.symm), TaskCell.pollTask_result, here]
      rfl
    · rw [if_neg here, if_neg fun same => here (Option.some.inj same).symm]
  | left => simp [polledTask, leave, dropChannels, dropTasks_result]
  | released => simp [polledTask, dropChannels, dropTasks_result]

/-- Tasks whose poll panicked are among the dropped ones. -/
theorem Effect.crashed (effect : s.Effect features act t) (kept : s.crashed ⊆ s.discarded) :
    t.crashed ⊆ t.discarded := by
  -- One case for each effect; a poll that panics is the only one that adds to the history.
  cases effect with
  | quiet same =>
    rw [same.crashed, same.discarded]
    exact kept
  | spawned => exact kept
  | refused => exact fun _ there => List.mem_append_left _ (kept there)
  | enqueued => exact kept
  | @polled worker coin outcome task =>
    cases outcome with
    | ready value => exact kept
    | pending => exact kept
    | panicked =>
      -- The task is added to both histories at once, and more may be dropped.
      intro crashed there
      refine List.mem_append_left _ (List.mem_append_left _ ?_)
      rcases List.mem_append.mp there with old | new
      · exact List.mem_append_left _ (kept old)
      · exact List.mem_append_right _ new
  | left => exact fun _ there => List.mem_append_left _ (List.mem_append_left _ (kept there))
  | released => exact fun _ there => List.mem_append_left _ (kept there)

/-- A task that is polled has not ended yet, so its channel is still open and empty. -/
theorem Tracked.unresolved (tracked : s.Tracked) (crashed : s.crashed ⊆ s.discarded)
    {task : ImputioTask} (polls : s.polledTask features act = some task) :
    ¬ (s.cells task.innerTask).Resolved := by
  -- The handle of a task is resolved at its end, and then the task is in no queue.
  rw [tracked.resolved task (tracked.polled polls)]
  obtain ⟨worker, level, queued⟩ := queued_of_polledTask polls
  have here : task.innerTask ∈ ids (s.tasksAt (.queue worker level)) :=
    mem_ids.mpr ⟨task, queued, rfl⟩
  -- A task that has ended is in another place than a queue.
  rintro (finished | ended)
  · have there : task.innerTask ∈ ids (s.tasksAt .finished) := mem_ids.mpr ⟨task, finished, rfl⟩
    exact absurd (tracked.conserves.same_place here there) (by simp)
  · have there : task.innerTask ∈ ids (s.tasksAt .discarded) :=
      mem_ids.mpr ⟨task, crashed ended, rfl⟩
    exact absurd (tracked.conserves.same_place here there) (by simp)

end Pool

/-- A coordinator with its executors, and the futures of the tasks that were spawned on it. -/
structure FuturePool (n : Nat) (σ V : Type*) where
  pool : Pool n V
  -- The state that each future is in.
  futures : TaskId → Option σ
  -- History: what was given to `spawn`, how often it was polled, and the values that it sent.
  spawned : TaskId → Option σ
  polls : TaskId → Nat
  sent : TaskId → List V

/-- A step; if it makes a task, then from the given future. -/
structure FutureAction (n : Nat) (σ V : Type*) where
  act : PoolAction n V
  future : σ

namespace FuturePool

variable {n : Nat} {σ V : Type*}

/-- A coordinator on which nothing was spawned yet. -/
def started (pool : Pool n V) : FuturePool n σ V where
  pool := pool
  futures := fun _ => none
  spawned := fun _ => none
  polls := fun _ => 0
  sent := fun _ => []

/-- The name of the task that a step polls. -/
def polled (features : Features) (s : FuturePool n σ V) (act : PoolAction n V) : Option TaskId :=
  (s.pool.polledTask features act).map ImputioTask.innerTask

/-- What the poll of a task comes to, by the state of its own future. -/
def pollOf (poll : PollFn σ V) (s : FuturePool n σ V) (id : TaskId) : FutureStep V :=
  match s.futures id with
  | some future => (poll future).1
  | none => .pending

/-- The step with the outcome that the future of the polled task leads to. -/
def determined (features : Features) (poll : PollFn σ V) (s : FuturePool n σ V) :
    PoolAction n V → PoolAction n V
  | .recv worker coin outcome =>
    match s.polled features (.recv worker coin outcome) with
    | some id => .recv worker coin (s.pollOf poll id)
    | none => .recv worker coin .pending
  | act => act

/-- The value that a step sends on the handle of a task. -/
def sends (features : Features) (poll : PollFn σ V) (s : FuturePool n σ V) (act : PoolAction n V)
    (id : TaskId) : Option V :=
  if s.polled features act = some id then (s.pollOf poll id).value else none

/-- The step makes a task with this name. -/
def Creates (s : FuturePool n σ V) (after : Pool n V) (id : TaskId) : Prop :=
  id = s.pool.nextTask ∧ after.nextTask = s.pool.nextTask + 1

instance (s : FuturePool n σ V) (after : Pool n V) (id : TaskId) : Decidable (s.Creates after id) :=
  inferInstanceAs (Decidable (_ ∧ _))

/-- What each action does, where it is possible. -/
def next (features : Features) (poll : PollFn σ V) (s : FuturePool n σ V)
    (act : FutureAction n σ V) : Option (FuturePool n σ V) :=
  (s.pool.next features (s.determined features poll act.act)).map fun pool =>
    { pool := pool
      futures := fun id =>
        if s.Creates pool id then some act.future
        else if s.polled features act.act = some id then
          (s.futures id).map fun future => (poll future).2
        else s.futures id
      spawned := fun id => if s.Creates pool id then some act.future else s.spawned id
      polls := fun id => s.polls id + if s.polled features act.act = some id then 1 else 0
      sent := fun id => s.sent id ++ (s.sends features poll act.act id).toList }

/-- The values that a future sends in its first polls. -/
def values (poll : PollFn σ V) (polls : Nat) (future : σ) : List V :=
  (List.range polls).filterMap fun turn => (poll.outcome turn future).value

/-- A task is where the polls of its own future have brought it. -/
structure Follows (poll : PollFn σ V) (s : FuturePool n σ V) (id : TaskId) (future : σ) : Prop where
  state : s.futures id = some (poll.after (s.polls id) future)
  pending : ∀ turn, turn + 1 < s.polls id → poll.outcome turn future = .pending
  sent : s.sent id = values poll (s.polls id) future
  resolved : (s.pool.cells id).Resolved ↔
    ∃ turn < s.polls id, poll.outcome turn future ≠ .pending
  result : (s.pool.cells id).result = (s.sent id).head?

/-- Every task that was made follows its own future, and no other was polled. -/
structure Followed (poll : PollFn σ V) (s : FuturePool n σ V) : Prop where
  tracked : s.pool.Tracked
  crashed : s.pool.crashed ⊆ s.pool.discarded
  made : ∀ id future, s.spawned id = some future → id < s.pool.nextTask
  unmade : ∀ id, s.pool.nextTask ≤ id → s.polls id = 0 ∧ s.sent id = []
  follows : ∀ id future, s.spawned id = some future → s.Follows poll id future

variable {features : Features} {poll : PollFn σ V} {s t : FuturePool n σ V}
  {act : FutureAction n σ V}

/-- The outcome of a poll has no influence on which task is polled. -/
theorem polled_determined (poll : PollFn σ V) (act : PoolAction n V) :
    s.polled features (s.determined features poll act) = s.polled features act := by
  -- Only the turn of a loop has an outcome, and it is not looked at before the poll.
  cases act with
  | recv worker coin outcome =>
    simp only [determined]
    split <;> rfl
  | _ => rfl

/-- The outcome of a step is the one that the future of the polled task leads to. -/
theorem outcomeOf_determined {act : PoolAction n V} {id : TaskId}
    (polls : s.polled features act = some id) :
    Pool.outcomeOf (s.determined features poll act) = s.pollOf poll id := by
  -- Only the turn of a loop polls a task.
  cases act with
  | recv worker coin outcome =>
    simp only [determined, polls]
    rfl
  | _ => simp [polled, Pool.polledTask] at polls

/-- One more poll sends at most one more value. -/
theorem values_succ (polls : Nat) (future : σ) :
    values poll (polls + 1) future =
      values poll polls future ++ (poll.outcome polls future).value.toList := by
  -- The last turn is looked at by itself.
  rw [values, List.range_succ, List.filterMap_append, values]
  cases found : (poll.outcome polls future).value <;> simp [found]

/-- A future ends in a step exactly if it is polled and is not pending. -/
theorem ends_iff {act : PoolAction n V} {id : TaskId} :
    (∃ task : ImputioTask, task.innerTask = id ∧
        s.pool.Ends features (s.determined features poll act) task) ↔
      s.polled features act = some id ∧ s.pollOf poll id ≠ .pending := by
  -- A task ends with an outcome, and here the outcome is what its future does.
  constructor
  · rintro ⟨task, rfl, polls, worker, coin, outcome, same, ended⟩
    have polled : s.polled features act = some task.innerTask := by
      rw [← polled_determined poll, FuturePool.polled, polls]
      rfl
    refine ⟨polled, ?_⟩
    -- The outcome in the action is the one that the future leads to.
    rw [← outcomeOf_determined polled, same]
    exact ended
  · intro found
    obtain ⟨polled, ended⟩ := found
    rw [← outcomeOf_determined polled] at ended
    rw [← polled_determined poll] at polled
    obtain ⟨task, polls, rfl⟩ := Option.map_eq_some_iff.mp polled
    refine ⟨task, rfl, polls, ?_⟩
    cases found : s.determined features poll act with
    | recv worker coin outcome =>
      rw [found] at ended
      exact ⟨worker, coin, outcome, rfl, ended⟩
    | _ => simp [found, Pool.polledTask] at polls

/-- A channel whose handle is not resolved is empty. -/
theorem result_of_unresolved {cell : TaskCell V} (unresolved : ¬ cell.Resolved) :
    cell.result = none := by
  -- A value in the channel would resolve the handle.
  cases found : cell.result with
  | none => rfl
  | some val => exact absurd (.inl (by simp [found])) unresolved

/-- Pending turns send nothing. -/
theorem values_pending {polls : Nat} {future : σ}
    (pending : ∀ turn < polls, poll.outcome turn future = .pending) :
    values poll polls future = [] := by
  -- No turn has a value.
  rw [values, List.filterMap_eq_nil_iff]
  intro turn among
  rw [pending turn (List.mem_range.mp among)]
  rfl

/-- What a task has sent, its future was ready with after the turns that were pending. -/
theorem Follows.ready {id : TaskId} {future : σ} {val : V} (follows : s.Follows poll id future)
    (sent : val ∈ s.sent id) : ∃ pendings, poll.ReadyAfter pendings future val := by
  -- The value stems from one of its polls, before which the future was pending.
  rw [follows.sent] at sent
  obtain ⟨turn, among, found⟩ := List.mem_filterMap.mp sent
  refine ⟨turn, fun earlier below => ?_, ?_⟩
  · -- An earlier turn is not the last one that was polled.
    have polled : turn < s.polls id := List.mem_range.mp among
    exact follows.pending earlier (Nat.lt_of_le_of_lt below polled)
  · cases outcome : poll.outcome turn future with
    | ready other => exact congrArg _ (Option.some.inj (by rw [← found, outcome]; rfl))
    | pending => simp [outcome, FutureStep.value] at found
    | panicked => simp [outcome, FutureStep.value] at found

/-- A task has sent its value exactly if it was polled once more than its future is pending. -/
theorem Follows.sent_eq {id : TaskId} {future : σ} {pendings : Nat} {val : V}
    (follows : s.Follows poll id future) (ready : poll.ReadyAfter pendings future val) :
    s.sent id = if pendings < s.polls id then [val] else [] := by
  -- The polls are counted against the turns that are pending.
  rw [follows.sent]
  split
  · rename_i more
    -- The future is not polled any more after it was ready.
    have last : s.polls id = pendings + 1 := by
      refine Nat.le_antisymm (Nat.le_of_not_lt fun beyond => ?_) more
      have again := follows.pending pendings beyond
      simp [ready.2] at again
    rw [last, values_succ, values_pending ready.1, ready.2]
    rfl
  · rename_i fewer
    exact values_pending fun turn below =>
      ready.1 turn (Nat.lt_of_lt_of_le below (Nat.le_of_not_lt fewer))

/-- A task that was made just now has not been polled. -/
theorem Follows.new {id : TaskId} {future : σ} (state : t.futures id = some future)
    (unpolled : t.polls id = 0) (silent : t.sent id = [])
    (unresolved : ¬ (t.pool.cells id).Resolved) : t.Follows poll id future where
  -- Before its first poll a future is in the state that was spawned.
  state := by
    rw [state, unpolled]
    rfl
  pending := by simp [unpolled]
  sent := by
    rw [silent, unpolled]
    rfl
  resolved := by simp [unresolved, unpolled]
  result := by
    rw [silent, result_of_unresolved unresolved]
    rfl

/-- A task that is not polled stays as it is. -/
theorem Follows.same {id : TaskId} {future : σ} (follows : s.Follows poll id future)
    (state : t.futures id = s.futures id) (polls : t.polls id = s.polls id)
    (sent : t.sent id = s.sent id)
    (resolved : (t.pool.cells id).Resolved ↔ (s.pool.cells id).Resolved)
    (result : (t.pool.cells id).result = (s.pool.cells id).result) :
    t.Follows poll id future where
  -- Nothing that the fields speak of has changed.
  state := by rw [state, polls, follows.state]
  pending := by
    rw [polls]
    exact follows.pending
  sent := by rw [sent, polls, follows.sent]
  resolved := by rw [resolved, polls, follows.resolved]
  result := by rw [result, sent, follows.result]

/-- A task that is polled goes on by one turn of its own future. -/
theorem Follows.polled {id : TaskId} {future : σ} (follows : s.Follows poll id future)
    (unresolved : ¬ (s.pool.cells id).Resolved)
    (state : t.futures id = (s.futures id).map fun future => (poll future).2)
    (polls : t.polls id = s.polls id + 1)
    (sent : t.sent id = s.sent id ++ (s.pollOf poll id).value.toList)
    (resolved : (t.pool.cells id).Resolved ↔ s.pollOf poll id ≠ .pending)
    (result : (t.pool.cells id).result = (s.pollOf poll id).value.or (s.pool.cells id).result) :
    t.Follows poll id future := by
  -- All turns before were pending, and the outcome of this one is the next outcome.
  have before : ∀ turn < s.polls id, poll.outcome turn future = .pending := by
    intro turn below
    by_contra ended
    exact unresolved (follows.resolved.mpr ⟨turn, below, ended⟩)
  have now : s.pollOf poll id = poll.outcome (s.polls id) future := by
    rw [pollOf, follows.state]
    rfl
  have silent : s.sent id = [] := by
    rw [← List.head?_eq_none_iff, ← follows.result, result_of_unresolved unresolved]
  refine ⟨?_, fun turn below => ?_, ?_, ?_, ?_⟩
  · rw [state, follows.state, polls, PollFn.after_succ]
    rfl
  · rw [polls] at below
    exact before turn (Nat.lt_of_succ_lt_succ below)
  · rw [sent, polls, values_succ, follows.sent, now]
  · rw [resolved, now, polls]
    constructor
    · exact fun ended => ⟨s.polls id, Nat.lt_succ_self _, ended⟩
    · rintro ⟨turn, below, ended⟩
      rcases Nat.lt_succ_iff_lt_or_eq.mp below with earlier | rfl
      · exact absurd (before turn earlier) ended
      · exact ended
  · rw [result, sent, silent, result_of_unresolved unresolved]
    cases (s.pollOf poll id).value <;> rfl

/-- Every step makes a task from its own future, or polls one as its future has it. -/
theorem Followed.step (followed : s.Followed poll)
    (step : Steps (next features poll) s act t) : t.Followed poll := by
  -- What is known of a task changes when it is made or polled, and in no other step.
  obtain ⟨pool, taken, rfl⟩ := Option.map_eq_some_iff.mp step
  have effect := Pool.step_effect taken
  -- A task that is polled was made before, and its future has not ended.
  have polledOld : ∀ id, s.polled features act.act = some id →
      id < s.pool.nextTask ∧ ¬ (s.pool.cells id).Resolved := by
    intro id polls
    obtain ⟨task, picked, rfl⟩ := Option.map_eq_some_iff.mp polls
    exact ⟨followed.tracked.made task (followed.tracked.polled picked),
      followed.tracked.unresolved followed.crashed picked⟩
  have unpolledNew : ∀ id, s.pool.nextTask ≤ id → s.polled features act.act ≠ some id :=
    fun id beyond polls => absurd (polledOld id polls).1 (Nat.not_lt.mpr beyond)
  have grown : s.pool.nextTask ≤ pool.nextTask := by
    rcases effect.all with ⟨same, -⟩ | ⟨more, -⟩
    · exact Nat.le_of_eq same.symm
    · exact more ▸ Nat.le_succ _
  have blank : ∀ id, s.pool.nextTask ≤ id →
      (s.polls id + if s.polled features act.act = some id then 1 else 0) = 0 ∧
        s.sent id ++ (s.sends features poll act.act id).toList = [] := by
    intro id beyond
    obtain ⟨polls, sent⟩ := followed.unmade id beyond
    have unpolled := unpolledNew id beyond
    rw [polls, sent, sends, if_neg unpolled, if_neg unpolled]
    exact ⟨rfl, rfl⟩
  refine ⟨effect.tracked followed.tracked, effect.crashed followed.crashed,
    fun id future given => ?_, fun id beyond => blank id (grown.trans beyond),
    fun id future given => ?_⟩
  · simp only at given
    split at given
    · rename_i new
      rw [new.1, new.2]
      exact Nat.lt_succ_self _
    · exact Nat.lt_of_lt_of_le (followed.made id future given) grown
  · simp only at given
    split at given
    · -- The step makes the task, from the future that it is given.
      rename_i new
      obtain rfl := Option.some.inj given
      obtain ⟨unpolled, silent⟩ := blank id (Nat.le_of_eq new.1.symm)
      refine .new (if_pos new) unpolled silent ?_
      rcases effect.makes with ⟨-, unresolved, -⟩ | ⟨same, -⟩
      · rw [new.1]
        exact unresolved
      · exact absurd (same.symm.trans new.2) (Nat.ne_of_lt (Nat.lt_succ_self _))
    · rename_i old
      have below := followed.made id future given
      have resolves := effect.resolves below
      rw [ends_iff] at resolves
      have result := effect.result below
      rw [← FuturePool.polled, polled_determined] at result
      by_cases polls : s.polled features act.act = some id
      · -- The task is polled, and what comes of it is up to its future.
        have unresolved := (polledOld id polls).2
        rw [if_pos polls, outcomeOf_determined polls] at result
        refine (followed.follows id future given).polled unresolved ?_ ?_ ?_ ?_ result
        · simp only [if_neg old, if_pos polls]
        · simp only [if_pos polls]
        · simp only [sends, if_pos polls]
        · rw [resolves]
          simp [unresolved, polls]
      · rw [if_neg polls] at result
        refine (followed.follows id future given).same ?_ ?_ ?_ ?_ result
        · simp only [if_neg old, if_neg polls]
        · simp only [if_neg polls, Nat.add_zero]
        · simp only [sends, if_neg polls, Option.toList_none, List.append_nil]
        · rw [resolves]
          simp [polls]

/-- Nothing was spawned on a fresh coordinator. -/
theorem Followed.init {start : Pool n V} (fresh : start.Fresh features) :
    (started start : FuturePool n σ V).Followed poll where
  tracked := fresh.tracked
  crashed := by
    -- Either way of starting leaves the record of crashes empty.
    rcases fresh with rfl | rfl
    all_goals exact List.Subset.refl _
  made := by simp [started]
  unmade := fun _ _ => ⟨rfl, rfl⟩
  follows := by simp [started]

end FuturePool

section Agreement

variable {n : Nat} {σ V : Type*} {features : Features} {poll : PollFn σ V} {start : Pool n V}
  {s : FuturePool n σ V} {acts : List (FutureAction n σ V)}

/--
A spawned task sends exactly the value that running its future on the calling thread returns.

It sends the value once, when the channel is empty, and it has sent it as soon as it has been
polled once more than its future is pending.
-/
theorem queued_agrees_with_blocking (fresh : start.Fresh features)
    (run : Run (Steps (FuturePool.next features poll)) (.started start) acts s) {id : TaskId}
    {future : σ} (spawned : s.spawned id = some future) :
    (∀ val ∈ s.sent id, ∀ other, SpawnBlocking poll future other ↔ other = val) ∧
      (s.sent id).length ≤ 1 ∧ (s.pool.cells id).result = (s.sent id).head? ∧
      (∀ act val, s.sends features poll act id = some val → (s.pool.cells id).result = none) ∧
      ∀ pendings val, poll.ReadyAfter pendings future val →
        s.sent id = if pendings < s.polls id then [val] else [] := by
  -- The queued task follows its future, which is all that running it in place does.
  have followed : s.Followed poll :=
    run.invariant (.init fresh) fun _ _ _ before step => before.step step
  have follows := followed.follows id future spawned
  refine ⟨fun val sent other => ?_, ?_, follows.result, fun act val sends => ?_,
    fun pendings val ready => follows.sent_eq ready⟩
  · obtain ⟨pendings, ready⟩ := follows.ready sent
    rw [PollFn.spawnBlocking_iff]
    -- The future is ready with one value only.
    constructor
    · rintro ⟨pendings', ready'⟩
      exact (ready.unique ready').2
    · rintro rfl
      exact ⟨pendings, ready⟩
  · cases found : s.sent id with
    | nil => exact Nat.zero_le _
    | cons val rest =>
      -- Whatever was sent first is all that was sent.
      obtain ⟨pendings, ready⟩ := follows.ready (found ▸ List.mem_cons_self)
      rw [← found, follows.sent_eq ready]
      split <;> simp
  · -- The step polls the task, whose future has not ended yet.
    obtain ⟨polls, -⟩ := Option.ite_none_right_eq_some.mp sends
    obtain ⟨task, picked, rfl⟩ := Option.map_eq_some_iff.mp polls
    exact FuturePool.result_of_unresolved (followed.tracked.unresolved followed.crashed picked)

/-- Counts down, and is ready with the given number when it gets to zero. -/
def countdown (result : Nat) : PollFn Nat Nat
  | 0 => (.ready result, 0)
  | left + 1 => (.pending, left)

/-- Two tasks on one executor, the first of which is pending once. -/
def twoCountdowns {n : Nat} (worker : Fin n) : List (FutureAction n Nat Nat) :=
  [⟨.call (.spawn .low), 0⟩, ⟨.store 0, 0⟩, ⟨.send 0, 1⟩, ⟨.call (.spawn .low), 0⟩, ⟨.store 1, 0⟩,
    ⟨.send 1, 0⟩, ⟨.call .poll, 0⟩, ⟨.store 2, 0⟩, ⟨.send 2, 0⟩, ⟨.call .poll, 0⟩, ⟨.store 3, 0⟩,
    ⟨.send 3, 0⟩, ⟨.call .poll, 0⟩, ⟨.store 4, 0⟩, ⟨.send 4, 0⟩] ++
  (List.replicate 5 [⟨.recv worker false .pending, 0⟩, ⟨.check worker, 0⟩]).flatten

/-- The first task sends its value at its second poll, after the other one was polled. -/
theorem queued_agrees_with_blocking_once :
    ∃ s : FuturePool 1 Nat Nat, Run (Steps (FuturePool.next ⟨false, false⟩ (countdown 7)))
        (.started (.initialized ⟨false, false⟩)) (twoCountdowns 0) s ∧ s.polls 0 = 2 ∧
      s.sent 0 = [7] ∧ (s.pool.cells 0).result = some 7 := by
  -- The run is replayed, and its last state is tested.
  have replayed : (replay (FuturePool.next ⟨false, false⟩ (countdown 7))
      (.started (.initialized ⟨false, false⟩) : FuturePool 1 Nat Nat) (twoCountdowns 0)).map
      (fun s => s.spawned 0 == some 1 && s.polls 0 == 2) = some true := by
    decide
  obtain ⟨s, run, final⟩ := Run.of_replay_test replayed
  simp only [Bool.and_eq_true, beq_iff_eq] at final
  obtain ⟨-, -, result, -, sent⟩ := queued_agrees_with_blocking (.inl rfl) run final.1
  have ready : (countdown 7).ReadyAfter 1 1 7 := by
    refine ⟨fun turn below => ?_, rfl⟩
    obtain rfl : turn = 0 := Nat.lt_one_iff.mp below
    rfl
  have once := sent 1 7 ready
  rw [final.2] at once
  exact ⟨s, run, final.2, once, result.trans (congrArg List.head? once)⟩

end Agreement

end Imputio
