import Imputio.Executor.Agreement

/-! What the handles of spawned tasks return to those who wait on them. -/

namespace Imputio

open Transition

/-- The error of a receive: the channel is empty, and every sender is gone. -/
inductive RecvError where
  | disconnected
  deriving DecidableEq, Repr

/-- A coordinator with the futures of its tasks, and the handles of these tasks. -/
structure HandlePool (n : Nat) (σ V : Type*) where
  base : FuturePool n σ V
  -- The value has been taken out of the channel.
  taken : TaskId → Bool
  -- Nobody can wait on the handle any more.
  dropped : TaskId → Bool
  -- History: what was returned to those who have waited on each handle, in order.
  returned : TaskId → List (Except RecvError V)

/-- A step of the coordinator, or of somebody who has the handle of a task. -/
inductive HandleAction (n : Nat) (σ V : Type*) where
  | step (act : FutureAction n σ V)
  | asyncAwait (id : TaskId)
  | blockingAwait (id : TaskId)
  | dropHandle (id : TaskId)

namespace HandlePool

variable {n : Nat} {σ V : Type*}

/-- A coordinator on which nothing was spawned yet. -/
def started (pool : Pool n V) : HandlePool n σ V where
  base := .started pool
  taken := fun _ => false
  dropped := fun _ => false
  returned := fun _ => []

/-- What a receive on the channel of a handle returns; there is no result while it waits. -/
def receive (s : HandlePool n σ V) (id : TaskId) : Option (Except RecvError V) :=
  let cell := s.base.pool.cells id
  match cell.result, s.taken id with
  | some val, false => some (.ok val)
  | _, _ => if cell.sender then none else some (.error .disconnected)

/-- Somebody has the handle of a task. -/
def HasHandle (s : HandlePool n σ V) (id : TaskId) : Prop :=
  id < s.base.pool.nextTask ∧ s.dropped id = false

instance (s : HandlePool n σ V) (id : TaskId) : Decidable (s.HasHandle id) :=
  inferInstanceAs (Decidable (_ ∧ _))

/-- Who waits on a handle is given what the receive returns. -/
def giveTo (s : HandlePool n σ V) (id : TaskId) (result : Except RecvError V) :
    HandlePool n σ V :=
  { s with
    taken := Function.update s.taken id (s.taken id || result.isOk)
    returned := Function.update s.returned id (s.returned id ++ [result]) }

/-- `ImputioTaskHandle::async_await`: wait on a handle that is kept. -/
def asyncAwait (s : HandlePool n σ V) (id : TaskId) : Option (HandlePool n σ V) :=
  if s.HasHandle id then (s.receive id).map (s.giveTo id) else none

/-- A handle is gone, and with it the only receiver of its channel. -/
def dropHandle (s : HandlePool n σ V) (id : TaskId) : Option (HandlePool n σ V) :=
  if s.HasHandle id then some { s with dropped := Function.update s.dropped id true } else none

/-- What each action does, where it is possible. -/
def next (features : Features) (poll : PollFn σ V) (s : HandlePool n σ V) :
    HandleAction n σ V → Option (HandlePool n σ V)
  | .step act => (s.base.next features poll act).map fun base => { s with base := base }
  | .asyncAwait id => s.asyncAwait id
  -- `ImputioTaskHandle::blocking_await` takes the handle itself.
  | .blockingAwait id => (s.asyncAwait id).bind (·.dropHandle id)
  | .dropHandle id => s.dropHandle id

end HandlePool

/-- A channel that has had its value has no sender any more. -/
def TaskCell.Closed {V : Type*} (cell : TaskCell V) : Prop :=
  cell.result.isSome → cell.sender = false

/-- Dropping tasks keeps what dropping one task keeps. -/
theorem dropTasks_keeps {V : Type*} {prop : TaskCell V → Prop}
    (drops : ∀ cell, prop cell → prop cell.drop) (tasks : List ImputioTask)
    (cells : TaskId → TaskCell V) (holds : ∀ id, prop (cells id)) (id : TaskId) :
    prop (dropTasks cells tasks id) := by
  -- The tasks are dropped one after the other.
  induction tasks generalizing cells with
  | nil => exact holds id
  | cons task tasks ih =>
    refine ih _ fun other => ?_
    simp only [Function.update_apply]
    split
    · exact drops _ (holds _)
    · exact holds other

namespace Pool

variable {n : Nat} {V : Type*} {features : Features} {s t : Pool n V} {act : PoolAction n V}

/-- What a new cell has, and every poll and every drop keeps, all cells have. -/
theorem Effect.cells {prop : TaskCell V → Prop} (new : prop .new)
    (polls : ∀ outcome cell, prop cell → prop (cell.pollTask outcome))
    (drops : ∀ cell, prop cell → prop cell.drop) (effect : s.Effect features act t)
    (holds : ∀ id, prop (s.cells id)) (id : TaskId) : prop (t.cells id) := by
  -- One case for each effect, with the cells that it makes, polls or drops.
  have updated : ∀ (changed : TaskId) (cell : TaskCell V), prop cell →
      ∀ id, prop (Function.update s.cells changed cell id) := by
    intro changed cell kept id
    rw [Function.update_apply]
    split
    · exact kept
    · exact holds id
  have dropped := @dropTasks_keeps V prop drops
  cases effect with
  -- Cells are made with tasks, and changed by polling and by dropping these.
  | quiet same =>
    rw [same.cells]
    exact holds id
  | spawned => exact updated _ _ new id
  -- A task that cannot be sent is dropped by its spawner.
  | refused => exact dropped _ _ (updated _ _ new) id
  | enqueued => exact holds id
  | @polled worker coin outcome task =>
    have polled := updated task.innerTask _ (polls outcome _ (holds task.innerTask))
    cases outcome with
    | ready value => exact dropped _ _ polled id
    | pending => exact polled id
    | panicked =>
      -- The task is dropped first, then its executor with its queues and its channel.
      exact dropped _ _ (dropped _ _ (dropped _ _ polled)) id
  | left => exact dropped _ _ (dropped _ _ holds) id
  | released => exact dropped _ _ holds id

end Pool

/-- A poll that leaves a value in the channel gives up the sender. -/
theorem TaskCell.pollTask_closed {V : Type*} (outcome : FutureStep V) (cell : TaskCell V)
    (closed : cell.Closed) : (cell.pollTask outcome).Closed := by
  -- Only a pending future keeps its sender, and it sends nothing.
  cases outcome with
  | ready val => exact fun _ => rfl
  | pending => exact closed
  | panicked => exact fun _ => rfl

namespace HandlePool

variable {n : Nat} {σ V : Type*} {features : Features} {poll : PollFn σ V}
  {s t : HandlePool n σ V} {id : TaskId}

/-- What has been returned to those who waited on a handle is what its channel has had. -/
structure Yielded (s : HandlePool n σ V) (id : TaskId) : Prop where
  taken : s.taken id = true → ∃ val rest, (s.base.pool.cells id).result = some val ∧
    s.returned id = .ok val :: rest ∧ ∀ later ∈ rest, later = .error .disconnected
  untaken : s.taken id = false → (∀ result ∈ s.returned id, result = .error .disconnected) ∧
    (s.returned id ≠ [] →
      (s.base.pool.cells id).Resolved ∧ (s.base.pool.cells id).result = none)

/-- Every handle returns what its channel has, and the channels are closed with their values. -/
structure Yielding (poll : PollFn σ V) (s : HandlePool n σ V) : Prop where
  followed : s.base.Followed poll
  closed : ∀ id, (s.base.pool.cells id).Closed
  yielded : ∀ id, s.Yielded id
  unmade : ∀ id, s.base.pool.nextTask ≤ id → s.taken id = false ∧ s.returned id = []

/-- The channel of a handle that is resolved has what it had after every step. -/
theorem resolved_kept {f : FuturePool n σ V} {pool : Pool n V} {act : PoolAction n V}
    (followed : f.Followed poll) (effect : f.pool.Effect features act pool)
    (old : id < f.pool.nextTask) (resolved : (f.pool.cells id).Resolved) :
    (pool.cells id).Resolved ∧ (pool.cells id).result = (f.pool.cells id).result := by
  -- A task whose future has ended is not polled again.
  have unpolled : (f.pool.polledTask features act).map ImputioTask.innerTask ≠ some id := by
    intro polls
    obtain ⟨task, picked, rfl⟩ := Option.map_eq_some_iff.mp polls
    exact followed.tracked.unresolved followed.crashed picked resolved
  have result := effect.result old
  rw [if_neg unpolled] at result
  exact ⟨(effect.resolves old).mpr (.inl resolved), result⟩

/-- A step of the coordinator leaves what has been returned in line with the channels. -/
theorem Yielding.base_step {base : FuturePool n σ V} {act : FutureAction n σ V}
    (yielding : s.Yielding poll) (step : Steps (FuturePool.next features poll) s.base act base) :
    ({ s with base := base } : HandlePool n σ V).Yielding poll := by
  -- The coordinator knows nothing of what has been returned, so only its channels can move.
  have followed := yielding.followed.step step
  obtain ⟨pool, taken, rfl⟩ := Option.map_eq_some_iff.mp step
  have effect := Pool.step_effect taken
  have grown : s.base.pool.nextTask ≤ pool.nextTask := by
    rcases effect.all with ⟨same, -⟩ | ⟨more, -⟩
    · exact Nat.le_of_eq same.symm
    · exact more ▸ Nat.le_succ _
  refine ⟨followed, fun id => ?_, fun id => ?_, fun id beyond =>
    yielding.unmade id (grown.trans beyond)⟩
  · exact effect.cells (fun some => absurd some (by simp [TaskCell.new]))
      (fun outcome cell => cell.pollTask_closed outcome) (fun _ closed => closed)
      yielding.closed id
  by_cases old : id < s.base.pool.nextTask
  · -- What was resolved before keeps its channel.
    have kept := fun resolved => resolved_kept yielding.followed effect old resolved
    obtain ⟨hasTaken, untaken⟩ := yielding.yielded id
    refine ⟨fun marked => ?_, fun unmarked => ?_⟩
    · obtain ⟨val, rest, result, returned, later⟩ := hasTaken marked
      have resolved : (s.base.pool.cells id).Resolved := .inl (by simp [result])
      exact ⟨val, rest, (kept resolved).2.trans result, returned, later⟩
    · obtain ⟨errors, nothing⟩ := untaken unmarked
      refine ⟨errors, fun some => ?_⟩
      obtain ⟨resolved, result⟩ := nothing some
      exact ⟨(kept resolved).1, (kept resolved).2.trans result⟩
  -- Nobody can have waited for a task that is made in this step.
  · obtain ⟨unmarked, nothing⟩ := yielding.unmade id (Nat.le_of_not_lt old)
    exact ⟨fun marked => absurd marked (by simp [unmarked]), fun _ => by simp [nothing]⟩

/-- A receive returns the value of the channel, or there is no value and nobody to send one. -/
theorem receive_cases {result : Except RecvError V} (received : s.receive id = some result) :
    (∃ val, (s.base.pool.cells id).result = some val ∧ s.taken id = false ∧
      result = .ok val) ∨
    ((s.base.pool.cells id).sender = false ∧ result = .error .disconnected ∧
      (s.taken id = false → (s.base.pool.cells id).result = none)) := by
  -- A value that was taken is not there for the next receive.
  unfold receive at received
  simp only at received
  split at received
  · rename_i val found untaken
    exact .inl ⟨val, found, untaken, (Option.some.inj received).symm⟩
  -- There is no value to be had, so the receive ends only if nobody can send one.
  · rename_i other
    obtain ⟨gone, same⟩ := Option.ite_none_left_eq_some.mp received
    refine .inr ⟨by simpa using gone, (Option.some.inj same).symm, fun untaken => ?_⟩
    cases found : (s.base.pool.cells id).result with
    | none => rfl
    | some val => exact absurd untaken (other val found)

/-- A receive waits as long as the handle is not resolved. -/
theorem Yielding.receive_eq_none_iff (yielding : s.Yielding poll) (id : TaskId) :
    s.receive id = none ↔ ¬ (s.base.pool.cells id).Resolved := by
  -- A value in the channel comes with the end of its sender.
  have closed := yielding.closed id
  unfold receive TaskCell.Resolved
  unfold TaskCell.Closed at closed
  cases found : (s.base.pool.cells id).result with
  | none => simp [found]
  | some val =>
    rw [found] at closed
    cases s.taken id <;> simp [found, closed]

/-- A receive returns the value once, and an error when there is nothing to wait for. -/
theorem Yielding.giveTo {result : Except RecvError V} (yielding : s.Yielding poll)
    (made : id < s.base.pool.nextTask) (received : s.receive id = some result) :
    (s.giveTo id result).Yielding poll := by
  -- Only the handle that is waited on is given anything, a value or an error.
  have elsewhere : ∀ other, other ≠ id → (s.giveTo id result).taken other = s.taken other ∧
      (s.giveTo id result).returned other = s.returned other := fun other apart =>
    ⟨Function.update_of_ne apart .., Function.update_of_ne apart ..⟩
  have returned : (s.giveTo id result).returned id = s.returned id ++ [result] :=
    Function.update_self ..
  have marked : (s.giveTo id result).taken id = (s.taken id || result.isOk) :=
    Function.update_self ..
  obtain ⟨hasTaken, untaken⟩ := yielding.yielded id
  refine ⟨yielding.followed, yielding.closed, fun other => ?_, fun other beyond => ?_⟩
  · by_cases here : other = id
    · subst here
      rcases receive_cases received with ⟨val, found, fresh, rfl⟩ | ⟨gone, rfl, empty⟩
      · -- Nobody has been given anything before.
        have nothing : s.returned other = [] := by
          by_contra some
          simp [found] at untaken
          exact some (untaken fresh).2
        refine ⟨fun _ => ⟨val, [], found, by rw [returned, nothing]; rfl, by simp⟩, fun open' => ?_⟩
        rw [marked] at open'
        simp [Except.isOk, Except.toBool] at open'
      -- One more error is added to those that were returned before, if any.
      · have same : (s.giveTo other (.error .disconnected)).taken other = s.taken other := by
          rw [marked]
          exact Bool.or_false _
        have disconnected : ∀ {earlier : List (Except RecvError V)},
            (∀ result ∈ earlier, result = .error .disconnected) →
            ∀ result ∈ earlier ++ [.error .disconnected], result = .error .disconnected := by
          intro earlier errors result among
          rcases List.mem_append.mp among with old | new
          · exact errors result old
          · exact List.mem_singleton.mp new
        refine ⟨fun hadValue => ?_, fun noValue => ?_⟩
        · obtain ⟨val, rest, found, before, later⟩ := hasTaken (same ▸ hadValue)
          exact ⟨val, rest ++ [.error .disconnected], found, by rw [returned, before]; rfl,
            disconnected later⟩
        · rw [same] at noValue
          rw [returned]
          exact ⟨disconnected (untaken noValue).1, fun _ => ⟨.inr gone, empty noValue⟩⟩
    -- Other handles have their own channels.
    · obtain ⟨sameTaken, sameReturned⟩ := elsewhere other here
      obtain ⟨hasTaken, untaken⟩ := yielding.yielded other
      exact ⟨by rw [sameTaken, sameReturned]; exact hasTaken,
        by rw [sameTaken, sameReturned]; exact untaken⟩
  · have apart : other ≠ id := by
      rintro rfl
      exact absurd made (Nat.not_lt.mpr beyond)
    rw [(elsewhere other apart).1, (elsewhere other apart).2]
    exact yielding.unmade other beyond

/-- Every step leaves what has been returned in line with the channels. -/
theorem Yielding.step {act : HandleAction n σ V} (yielding : s.Yielding poll)
    (step : Steps (next features poll) s act t) : t.Yielding poll := by
  -- Waiting gives the handle something, and everything else leaves what was given alone.
  have awaited : ∀ {id : TaskId} {after : HandlePool n σ V}, s.asyncAwait id = some after →
      after.Yielding poll := by
    intro id after awaits
    obtain ⟨has, given⟩ := Option.ite_none_right_eq_some.mp awaits
    obtain ⟨result, received, rfl⟩ := Option.map_eq_some_iff.mp given
    exact yielding.giveTo has.1 received
  have dropped : ∀ {id : TaskId} {before after : HandlePool n σ V}, before.Yielding poll →
      before.dropHandle id = some after → after.Yielding poll := by
    intro id before after yields drops
    obtain ⟨-, rfl⟩ := enabled_iff.mp drops
    exact ⟨yields.followed, yields.closed, fun id => ⟨(yields.yielded id).taken,
      (yields.yielded id).untaken⟩, yields.unmade⟩
  cases act with
  | step act =>
    obtain ⟨base, taken, rfl⟩ := Option.map_eq_some_iff.mp step
    exact yielding.base_step taken
  | asyncAwait id => exact awaited step
  -- The value is returned first, and then the handle is dropped.
  | blockingAwait id =>
    obtain ⟨mid, awaits, drops⟩ := Option.bind_eq_some_iff.mp step
    exact dropped (awaited awaits) drops
  | dropHandle id => exact dropped yielding step

/-- Nothing has been returned by the handles of a fresh coordinator. -/
theorem Yielding.init {start : Pool n V} (fresh : start.Fresh features) :
    (started start : HandlePool n σ V).Yielding poll where
  followed := .init fresh
  closed := by
    -- Every cell is as it was made.
    intro id some
    rcases fresh with rfl | rfl
    -- No channel of a fresh coordinator has a value.
    all_goals exact absurd some (by simp [started, FuturePool.started, Pool.initialized,
      Pool.withExecutors, TaskCell.new])
  yielded := fun id => ⟨fun marked => absurd marked (by simp [started]), by simp [started]⟩
  unmade := fun _ _ => ⟨rfl, rfl⟩

end HandlePool

section Handles

variable {n : Nat} {σ V : Type*} {features : Features} {poll : PollFn σ V} {start : Pool n V}
  {s : HandlePool n σ V} {acts : List (HandleAction n σ V)} {id : TaskId} {future : σ}

/--
The handle of a task returns the value of its future once, and then only that the sender is gone.

Whoever waits on it, and however often, waits exactly as long as the future has not ended. The
first one who is given something is given the value that running the future on the calling thread
returns, and an error only if there is no such value.
-/
theorem handle_yields_once (fresh : start.Fresh features)
    (run : Run (Steps (HandlePool.next features poll)) (.started start) acts s)
    (spawned : s.base.spawned id = some future) :
    (∀ first rest, s.returned id = first :: rest →
      (∀ val, first = .ok val ↔ SpawnBlocking poll future val) ∧
        ∀ later ∈ rest, later = .error .disconnected) ∧
      (s.receive id = none ↔ ∀ turn < s.base.polls id, poll.outcome turn future = .pending) := by
  -- What the channel has is the value that the future sends at its end, if it sends one.
  have yielding : s.Yielding poll :=
    run.invariant (.init fresh) fun _ _ _ before step => before.step step
  have follows := yielding.followed.follows id future spawned
  refine ⟨fun first rest returned => ?_, ?_⟩
  · obtain ⟨hasTaken, untaken⟩ := yielding.yielded id
    -- Either the first one was given the value, or nobody was.
    cases marked : s.taken id with
    | true =>
      obtain ⟨val, rest', result, returned', later⟩ := hasTaken marked
      obtain ⟨rfl, rfl⟩ := List.cons.inj (returned.symm.trans returned')
      refine ⟨fun other => ?_, later⟩
      -- The value was sent by the future, which is ready with one value only.
      have sent : val ∈ s.base.sent id := List.mem_of_mem_head? (follows.result ▸ result)
      obtain ⟨pendings, ready⟩ := follows.ready sent
      rw [PollFn.spawnBlocking_iff, Except.ok.injEq]
      constructor
      · rintro rfl
        exact ⟨pendings, ready⟩
      · rintro ⟨pendings', ready'⟩
        exact (ready'.unique ready).2
    | false =>
      obtain ⟨errors, nothing⟩ := untaken marked
      obtain ⟨resolved, empty⟩ := nothing (by simp [returned])
      rw [returned] at errors
      have failed := errors first List.mem_cons_self
      refine ⟨fun val => ⟨fun ok => ?_, fun blocking => ?_⟩, fun later among =>
        errors later (List.mem_cons_of_mem _ among)⟩
      · simp [failed] at ok
      · -- A future that had been ready would have sent its value.
        exfalso
        obtain ⟨pendings, ready⟩ := PollFn.spawnBlocking_iff.mp blocking
        obtain ⟨turn, below, ended⟩ := follows.resolved.mp resolved
        have sent := follows.sent_eq ready
        rw [follows.result, List.head?_eq_none_iff] at empty
        rw [empty] at sent
        have late : ¬ pendings < s.base.polls id := by
          intro more
          simp [more] at sent
        exact ended (ready.1 turn (by omega))
  -- The channel is resolved with the first poll that is not pending.
  · rw [yielding.receive_eq_none_iff, follows.resolved]
    simp only [not_exists, not_and, ne_eq, not_not]

/-- Two countdowns are run to their ends, and somebody waits for the first one twice. -/
def awaitedTwice {n : Nat} (worker : Fin n) : List (HandleAction n Nat Nat) :=
  (twoCountdowns worker).map .step ++ [.asyncAwait 0, .asyncAwait 0, .dropHandle 1]

/-- The first wait is given the value, and the second one the error. -/
theorem handle_yields_once_awaited :
    ∃ s : HandlePool 1 Nat Nat, Run (Steps (HandlePool.next ⟨false, false⟩ (countdown 7)))
        (.started (.initialized ⟨false, false⟩)) (awaitedTwice 0) s ∧
      s.returned 0 = [.ok 7, .error .disconnected] ∧ SpawnBlocking (countdown 7) 1 7 := by
  -- The future is pending once, and the handle is waited on twice after its end.
  have replayed : (replay (HandlePool.next ⟨false, false⟩ (countdown 7))
      (.started (.initialized ⟨false, false⟩) : HandlePool 1 Nat Nat) (awaitedTwice 0)).map
      (fun s => s.base.spawned 0 == some 1 &&
        decide (s.returned 0 = [.ok 7, .error .disconnected])) = some true := by
    decide
  obtain ⟨s, run, final⟩ := Run.of_replay_test replayed
  simp only [Bool.and_eq_true, beq_iff_eq, decide_eq_true_eq] at final
  obtain ⟨spawned, returned⟩ := final
  obtain ⟨yields, -⟩ := handle_yields_once (.inl rfl) run spawned
  exact ⟨s, run, returned, ((yields _ _ returned).1 7).mp rfl⟩

end Handles

end Imputio
