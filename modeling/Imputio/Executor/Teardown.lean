import Imputio.Executor.Pollers
import Imputio.Executor.Sequential

/-! What a shutdown comes to: when the executors leave their loops, and what is left behind. -/

namespace Imputio

open Transition

/-- How many steps of its own an executor can still make once the flag is set. -/
def LoopState.turnsLeft : LoopState → Nat
  | .receiving => 2
  | .checking => 1
  | .exited => 0

/-- The executor whose own step an action is. -/
def PoolAction.worker {n : Nat} {V : Type*} : PoolAction n V → Option (Fin n)
  | .recv worker _ _ => some worker
  | .check worker => some worker
  | _ => none

namespace Pool

variable {n : Nat} {V : Type*} {features : Features} {s t : Pool n V} {act : PoolAction n V}

/-- How many steps of its own an executor makes along a list of actions. -/
def turns (acts : List (PoolAction n V)) (worker : Fin n) : Nat :=
  (acts.filterMap PoolAction.worker).count worker

/-- Leaving a loop concerns the state of one executor only. -/
theorem leave_state (s : Pool n V) (leaving worker : Fin n) :
    ((s.leave leaving).executors worker).state =
      if worker = leaving then .exited else (s.executors worker).state := by
  -- Dropping the channel comes after the executor has been replaced.
  unfold leave
  rw [(dropChannels_executors _ _ worker).2.1]
  by_cases here : worker = leaving
  · subst here
    simp [setExecutor, Executor.leave]
  · simp [setExecutor, here]

/-- Where an executor stands in its loop after a step, and whether the step was its own. -/
inductive Turn (s : Pool n V) (worker : Fin n) (act : PoolAction n V) (t : Pool n V) : Prop
  | other (apart : act.worker ≠ some worker)
      (same : (t.executors worker).state = (s.executors worker).state)
  | received (own : act.worker = some worker)
      (before : (s.executors worker).state = .receiving)
      (after : (t.executors worker).state = .checking ∨ (t.executors worker).state = .exited)
  | checked (own : act.worker = some worker) (before : (s.executors worker).state = .checking)
      (silent : s.takes worker act = none)
      (after : (t.executors worker).state = if s.shutdown then .exited else .receiving)

/-- An executor that is replaced stands where the new one does, and the others stay. -/
theorem setExecutor_state (s : Pool n V) (replaced worker : Fin n) (exec : Executor) :
    ((s.setExecutor replaced exec).executors worker).state =
      if worker = replaced then exec.state else (s.executors worker).state := by
  rw [setExecutor_apply]
  split <;> rfl

/-- A step of which an executor is not the one that makes it leaves it where it stands. -/
theorem Turn.of_other {replaced worker : Fin n} {exec : Executor}
    (apart : act.worker ≠ some worker) (executors : t.executors =
      Function.update s.executors replaced exec)
    (same : exec.state = (s.executors replaced).state) : s.Turn worker act t := by
  -- If it is the one that is replaced, it is by one that stands where it stood.
  refine .other apart ?_
  rw [executors, Function.update_apply]
  split
  · rename_i here
    rw [same, here]
  · rfl

/-- An executor takes its step alone: whoever receives or checks, the others stay where they are. -/
theorem Turn.of_received {receiver worker : Fin n} {coin : Bool} {outcome : FutureStep V}
    (receiving : (s.executors receiver).state = .receiving)
    (after : (t.executors receiver).state = .checking ∨ (t.executors receiver).state = .exited)
    (others : ∀ other, other ≠ receiver →
      (t.executors other).state = (s.executors other).state) :
    s.Turn worker (.recv receiver coin outcome) t := by
  -- The executor is the one that receives, or another one.
  by_cases here : worker = receiver
  · subst here
    exact .received rfl receiving after
  · exact .other (by simpa [PoolAction.worker] using Ne.symm here) (others worker here)

/-- Every step is one of these for each executor. -/
theorem turn_of_step (worker : Fin n) (step : Steps (next features) s act t) :
    s.Turn worker act t := by
  -- A turn of the loop in which the executor stays ends where the flag is read.
  have stays : ∀ {receiver coin outcome exec}, act = .recv receiver coin outcome →
      (s.executors receiver).state = .receiving → exec.state = .checking →
      t.executors = Function.update s.executors receiver exec → s.Turn worker act t := by
    rintro receiver coin outcome exec rfl receiving checking executors
    refine .of_received receiving (.inl ?_) fun other apart => ?_
    · rw [executors, Function.update_self, checking]
    · rw [executors, Function.update_of_ne apart]
  cases step_next step with
  -- Callers may put messages into a channel, and make no step of the loop.
  | called => exact .other (by simp [PoolAction.worker]) rfl
  | stored => exact .other (by simp [PoolAction.worker]) rfl
  | spawned => exact .of_other (by simp [PoolAction.worker]) rfl rfl
  | refused => exact .other (by simp [PoolAction.worker]) rfl
  | pollSent => exact .of_other (by simp [PoolAction.worker]) rfl rfl
  | pollRefused => exact .other (by simp [PoolAction.worker]) rfl
  | opSent => exact .of_other (by simp [PoolAction.worker]) rfl rfl
  | opRefused => exact .other (by simp [PoolAction.worker]) rfl
  | outOfRange => exact .other (by simp [PoolAction.worker]) rfl
  | received => exact .other (by simp [PoolAction.worker]) rfl
  -- Whatever the message, the loop goes on to read the flag.
  | idled receiving => exact stays rfl receiving rfl rfl
  | enqueued receiving => exact stays rfl receiving rfl rfl
  | unpolled receiving => exact stays rfl receiving rfl rfl
  | @polled receiver coin outcome task level later rest exec receiving front picked popped ended =>
    have checking : exec.state = .checking := by
      rcases ended with ⟨-, rfl⟩ | ⟨-, rfl⟩ <;> rfl
    cases outcome with
    | ready value => exact stays rfl receiving checking rfl
    | pending => exact stays rfl receiving checking rfl
    -- A panic ends the thread before the flag is read.
    | panicked =>
      refine .of_received receiving (.inr ?_) fun other apart => ?_
      · exact (leave_state _ receiver receiver).trans (if_pos rfl)
      · refine (leave_state _ receiver other).trans ?_
        rw [if_neg apart]
        exact (setExecutor_state s receiver other exec).trans (if_neg apart)
  | served receiving front =>
    exact stays rfl receiving rfl (PollingPool.answer_executors _ _ _)
  | @left leaving checking flag =>
    by_cases here : worker = leaving
    · subst here
      refine .checked rfl checking rfl ?_
      -- The loop ends exactly where the flag is read as set.
      rw [leave_state, if_pos rfl, flag, if_pos rfl]
    · refine .other (by simpa [PoolAction.worker] using Ne.symm here) ?_
      rw [leave_state, if_neg here]
  | @stayed staying checking unset =>
    by_cases here : worker = staying
    · subst here
      refine .checked rfl checking rfl ?_
      rw [setExecutor_state, if_pos rfl, unset, if_neg (by simp)]
    · refine .other (by simpa [PoolAction.worker] using Ne.symm here) ?_
      rw [setExecutor_state, if_neg here]
  | flagged => exact .other (by simp [PoolAction.worker]) rfl
  | released =>
    exact .other (by simp [PoolAction.worker]) (dropChannels_executors _ _ worker).2.1
  | pollerTook => exact .of_other (by simp [PoolAction.worker]) rfl rfl
  | pollerLeft => exact .of_other (by simp [PoolAction.worker]) rfl rfl

/-- The flag stays set. -/
theorem flag_kept (step : Steps (next features) s act t) (flag : s.shutdown = true) :
    t.shutdown = true := by
  -- Only a call of `shutdown` writes the flag, and it sets it.
  cases step_next step with
  -- Nothing ever clears the flag.
  | @polled _ _ outcome => cases outcome <;> exact flag
  | served =>
    unfold answer
    split <;> exact flag
  | flagged => rfl
  | _ => exact flag

/-- Once the flag is set, an executor uses up a turn with every step of its own. -/
theorem turnsLeft_of_step (step : Steps (next features) s act t) (flag : s.shutdown = true)
    (worker : Fin n) :
    act.worker.toList.count worker + (t.executors worker).state.turnsLeft ≤
        (s.executors worker).state.turnsLeft ∧
      (s.takes worker act).toList.length + (t.executors worker).state.turnsLeft / 2 ≤
        (s.executors worker).state.turnsLeft / 2 := by
  -- A turn receives or checks, and from each of them it is one step less to the end.
  cases turn_of_step worker step with
  | other apart same =>
    -- Another thread's step takes nothing out of this channel.
    have untaken : s.takes worker act = none := by
      cases act with
      | recv receiver coin outcome =>
        have other : receiver ≠ worker := by simpa [PoolAction.worker] using apart
        simp [takes, other]
      | _ => rfl
    rw [count_toList, if_neg apart, untaken, same]
    simp
  | received own before after =>
    rw [count_toList, if_pos own, before]
    -- At most one message is taken, whether or not its task panics.
    rcases after with checking | exited
    · rw [checking]
      exact ⟨Nat.le_refl 2, by simp [LoopState.turnsLeft]⟩
    · rw [exited]
      exact ⟨by simp [LoopState.turnsLeft], by simp [LoopState.turnsLeft]⟩
  | checked own before silent after =>
    rw [flag, if_pos rfl] at after
    rw [count_toList, if_pos own, before, after, silent]
    -- The flag is read, and the loop ends.
    exact ⟨Nat.le_refl 1, Nat.le_refl 0⟩

/-- Along a run after the flag was set, an executor uses up the turns that it has left. -/
theorem turnsLeft_of_run {mid last : Pool n V} {acts : List (PoolAction n V)}
    (run : Run (Steps (next features)) mid acts last) (flag : mid.shutdown = true)
    (worker : Fin n) :
    last.shutdown = true ∧
      turns acts worker + (last.executors worker).state.turnsLeft ≤
        (mid.executors worker).state.turnsLeft ∧
      (observed (next features) (fun s => s.takes worker) mid acts).length +
          (last.executors worker).state.turnsLeft / 2 ≤
        (mid.executors worker).state.turnsLeft / 2 := by
  -- What a step uses up is gone for the rest of the run.
  induction run with
  | nil => simp [flag, turns, observed]
  | @snoc acts s t act earlier step ih =>
    obtain ⟨flag', used, taken⟩ := ih
    obtain ⟨used', taken'⟩ := turnsLeft_of_step step flag' worker
    have more : turns (acts ++ [act]) worker =
        turns acts worker + act.worker.toList.count worker := by
      rw [turns, List.filterMap_append, List.count_append, turns]
      cases own : act.worker <;> simp [own]
    rw [more, earlier.observed_snoc, List.length_append]
    exact ⟨flag_kept step flag', by omega, by omega⟩

/-- An executor that is about to receive does so, whatever its task comes to. -/
theorem recv_enabled {worker : Fin n} (stands : (s.executors worker).state = .receiving)
    (coin : Bool) (outcome : FutureStep V) :
    ∃ t, Steps (next features) s (.recv worker coin outcome) t := by
  -- With no message in the channel the turn is over at once.
  have taken : (s.recv features worker coin outcome).isSome = true := by
    simp only [recv, stands, if_true]
    split
    · rfl
    · -- Each kind of message is processed, whatever the queues hold.
      split
      · rfl
      · split <;> rfl
      · rfl
  exact Option.isSome_iff_exists.mp taken

/-- An executor that is in its loop can always make a step of its own. -/
theorem turn_enabled {worker : Fin n} (loops : s.InLoop worker) :
    ∃ act t, act.worker = some worker ∧ Steps (next features) s act t := by
  -- Receiving never waits, and neither does the check of the flag.
  cases stands : (s.executors worker).state with
  | receiving =>
    obtain ⟨t, step⟩ := recv_enabled stands false .pending
    exact ⟨.recv worker false .pending, t, rfl, step⟩
  | checking =>
    -- The flag decides where the step leads, not whether there is one.
    by_cases flag : s.shutdown = true
    · exact ⟨.check worker, s.leave worker, rfl, by simp [Steps, next, stands, flag]⟩
    · exact ⟨.check worker, _, rfl, by simp [Steps, next, stands, flag]; rfl⟩
  | exited => exact absurd stands loops

/-- An executor that has left its loop has empty queues, and its channel goes with the senders. -/
def Emptied (s : Pool n V) : Prop :=
  ∀ worker, (s.executors worker).state = .exited →
    (∀ level, (s.executors worker).tasks level = []) ∧
      (s.held = false → (s.executors worker).rx.queue = [])

/-- An executor that leaves its loop leaves nothing behind, and the others are as they were. -/
theorem Emptied.leave (emptied : s.Emptied) (leaving : Fin n) : (s.leave leaving).Emptied := by
  -- Only the executor that leaves is emptied in this step.
  intro worker exited
  obtain ⟨queue, tasks⟩ := leave_local s leaving worker
  by_cases here : worker = leaving
  · subst here
    refine ⟨fun level => ?_, fun gone => ?_⟩
    · unfold Pool.leave
      rw [(dropChannels_executors _ _ worker).2.2.1]
      simp [setExecutor, Executor.leave]
    -- Without a coordinator nobody holds the other end of the channel.
    · rw [queue, if_pos ⟨rfl, gone⟩]
  · rw [leave_state, if_neg here] at exited
    rw [queue, if_neg (fun both => here both.1), tasks here]
    exact emptied worker exited

/-- Replacing an executor that is in its loop leaves no other one with anything. -/
theorem Emptied.of_update {replaced : Fin n} {exec : Executor} (emptied : s.Emptied)
    (executors : t.executors = Function.update s.executors replaced exec) (held : t.held = s.held)
    (loops : exec.state ≠ .exited) : t.Emptied := by
  -- Whoever has exited is another executor than the one that is replaced.
  intro worker exited
  rw [executors, Function.update_apply] at exited ⊢
  rw [held]
  split at exited
  · exact absurd exited loops
  · rename_i apart
    rw [if_neg apart]
    exact emptied worker exited

/-- Every step keeps what has exited empty. -/
theorem Emptied.step (emptied : s.Emptied) (tracked : s.Tracked)
    (step : Steps (next features) s act t) : t.Emptied := by
  -- A message is sent only to an executor that listens, which is one in its loop.
  have sent : ∀ {replaced exec}, (s.executors replaced).rx.connected = true →
      t.executors = Function.update s.executors replaced exec → t.held = s.held →
      exec.state = (s.executors replaced).state → t.Emptied :=
    fun connected executors held same =>
      emptied.of_update executors held (same ▸ (tracked.connected _).mp connected)
  -- What concerns only the poller threads leaves tasks and messages alone.
  have polling : ∀ {replaced exec}, t.executors = Function.update s.executors replaced exec →
      t.held = s.held → exec.state = (s.executors replaced).state →
      exec.tasks = (s.executors replaced).tasks → exec.rx = (s.executors replaced).rx →
      t.Emptied := by
    intro replaced exec executors held state tasks rx worker exited
    rw [executors, Function.update_apply] at exited ⊢
    rw [held]
    split at exited
    · rename_i here
      rw [if_pos here, tasks, rx, ← here]
      rw [state, ← here] at exited
      exact emptied worker exited
    · rename_i apart
      rw [if_neg apart]
      exact emptied worker exited
  cases step_next step with
  | called => exact emptied
  | stored => exact emptied
  | spawned asked inRange connected => exact sent connected rfl rfl rfl
  | refused => exact emptied
  | pollSent asked inRange connected => exact sent connected rfl rfl rfl
  | pollRefused => exact emptied
  | opSent asked inRange connected => exact sent connected rfl rfl rfl
  | opRefused => exact emptied
  | outOfRange => exact emptied
  | received => exact emptied
  -- An executor in its loop may hold anything.
  | idled => exact emptied.of_update rfl rfl (by simp)
  | enqueued => exact emptied.of_update rfl rfl (by simp [Executor.take, Executor.spawn])
  | unpolled => exact emptied.of_update rfl rfl (by simp [Executor.take])
  | @polled receiver coin outcome task level later rest exec receiving front picked popped ended =>
    have loops : exec.state ≠ .exited := by
      rcases ended with ⟨-, rfl⟩ | ⟨-, rfl⟩ <;> simp [Executor.take, Executor.spawn]
    have replaced : (s.setExecutor receiver exec).Emptied := emptied.of_update rfl rfl loops
    cases outcome with
    | ready value => exact replaced
    | pending => exact replaced
    -- The thread unwinds with all that it holds.
    | panicked => exact Emptied.leave replaced receiver
  | served =>
    refine emptied.of_update (PollingPool.answer_executors _ _ _) ?_ ?_
    · unfold answer
      split <;> rfl
    · simp [Executor.pushToPoller, Executor.take]
  | left => exact emptied.leave _
  | stayed => exact emptied.of_update rfl rfl (by simp)
  | flagged => exact emptied
  | released =>
    -- The last sender is dropped, so the channels of those that have left are gone.
    intro worker exited
    obtain ⟨-, state, tasks, -⟩ := dropChannels_executors { s with held := false }
      (fun worker => (s.executors worker).state == LoopState.exited) worker
    rw [state] at exited
    refine ⟨fun level => ?_, fun _ => ?_⟩
    · rw [tasks]
      exact (emptied worker exited).1 level
    · rw [dropChannels_queue, if_pos (by simpa using exited)]
  | pollerTook => exact polling rfl rfl rfl rfl rfl
  | pollerLeft => exact polling rfl rfl rfl rfl rfl

/-- In every reachable pool what has exited is empty. -/
theorem Emptied.of_run {start : Pool n V} {acts : List (PoolAction n V)}
    (fresh : start.Fresh features) (run : Run (Steps (next features)) start acts s) :
    s.Tracked ∧ s.Emptied := by
  -- Both are kept step by step, and in a fresh pool there is nothing to keep.
  induction run with
  | nil =>
    refine ⟨fresh.tracked, ?_⟩
    rcases fresh with rfl | rfl <;> exact fun _ _ => ⟨fun _ => rfl, fun _ => rfl⟩
  | snoc _ step ih =>
    exact ⟨(step_effect step).tracked ih.1, ih.2.step ih.1 step⟩

/-- All executors have left their loops, and nobody holds the coordinator. -/
def TornDown (s : Pool n V) : Prop :=
  s.held = false ∧ ∀ worker, (s.executors worker).state = .exited

/-- Nothing happens to the tasks of a pool that is torn down. -/
theorem TornDown.step (down : s.TornDown) (awaited : s.Awaited)
    (step : Steps (next features) s act t) : t.TornDown ∧ s.SameTasks t := by
  -- Every effect on a task starts at a caller, at an executor in its loop or at the coordinator.
  obtain ⟨dropped, exited⟩ := down
  have uncalled : ∀ {call request index}, s.calls call ≠ .stored request index := by
    intro call request index asked
    have calm := awaited.borrowed dropped call
    simp [asked, CallProgress.active] at calm
  cases step_effect step with
  | quiet same =>
    exact ⟨⟨same.held.trans dropped, fun worker => (same.exited worker).mpr (exited worker)⟩, same⟩
  -- No caller is left, and no executor makes a step.
  | spawned asked => exact absurd asked uncalled
  | refused asked => exact absurd asked uncalled
  | enqueued receiving => simp [exited] at receiving
  | polled receiving => simp [exited] at receiving
  | left checking => simp [exited] at checking
  | released held => simp [dropped] at held

/-- Whatever happens after a pool was torn down, its tasks and handles are as they were. -/
theorem TornDown.run {last : Pool n V} {acts : List (PoolAction n V)} (down : s.TornDown)
    (awaited : s.Awaited) (run : Run (Steps (next features)) s acts last) :
    last.cells = s.cells ∧ last.finished = s.finished ∧ last.discarded = s.discarded ∧
      last.nextTask = s.nextTask := by
  -- The induction carries that the pool is torn down and that no caller is left.
  have kept : last.TornDown ∧ last.Awaited ∧ last.cells = s.cells ∧ last.finished = s.finished ∧
      last.discarded = s.discarded ∧ last.nextTask = s.nextTask := by
    induction run with
    | nil => exact ⟨down, awaited, rfl, rfl, rfl, rfl⟩
    | snoc _ step ih =>
      obtain ⟨down', awaited', cells, finished, discarded, nextTask⟩ := ih
      obtain ⟨down'', same⟩ := down'.step awaited' step
      exact ⟨down'', awaited'.step step, same.cells.trans cells, same.finished.trans finished,
        same.discarded.trans discarded, same.nextTask.trans nextTask⟩
  exact kept.2.2

/-- In a pool that is torn down every task is at one of the two ends, once. -/
theorem TornDown.ends (down : s.TornDown) (emptied : s.Emptied) (conserves : s.Conserves)
    {id : TaskId} (spawned : id < s.nextTask) :
    (ids s.finished).count id + (ids s.discarded).count id = 1 := by
  -- No executor holds anything, so every task that is counted is at one of the ends.
  obtain ⟨dropped, exited⟩ := down
  have none : (Ledger.total fun worker => (s.executors worker).held) = 0 := by
    refine Finset.sum_eq_zero fun worker _ => ?_
    obtain ⟨tasks, queue⟩ := emptied worker (exited worker)
    simp [Executor.held, Executor.inChannel, queue dropped, tasks]
  have counted := s.count_all id
  rw [conserves.all, none, Multiset.count_zero, Nat.zero_add] at counted
  rw [← counted]
  exact Multiset.count_eq_one_of_mem (Multiset.nodup_range _) (Multiset.mem_range.mpr spawned)

end Pool

section Teardown

variable {n : Nat} {V : Type*} {features : Features} {start mid last : Pool n V}
  {before acts : List (PoolAction n V)}

/--
Once the flag is set, every executor leaves its loop, and in the end nothing is left.

An executor makes at most two more steps and takes at most one more message, and as long as it is in
its loop it can make a step. When all of them have left, and the coordinator is dropped, no call is
in progress, every queue and channel is empty, every task was either polled to its end or discarded,
and no step that is still possible changes the result of any handle.
-/
theorem shutdown_settles_pool (fresh : start.Fresh features)
    (first : Run (Steps (Pool.next features)) start before mid) (flag : mid.shutdown = true)
    (later : Run (Steps (Pool.next features)) mid acts last) :
    (∀ worker, Pool.turns acts worker ≤ 2 ∧
      (Pool.turns acts worker = 2 → (last.executors worker).state = .exited) ∧
      (observed (Pool.next features) (fun s => s.takes worker) mid acts).length ≤ 1 ∧
      ((last.executors worker).state ≠ .exited →
        ∃ act t, act.worker = some worker ∧ Steps (Pool.next features) last act t)) ∧
    (last.held = false → (∀ worker, (last.executors worker).state = .exited) →
      (∀ call, (last.calls call).active = false) ∧
      (∀ worker, (last.executors worker).queued = [] ∧ (last.executors worker).rx.queue = []) ∧
      ∀ id < last.nextTask,
        (ids last.finished).count id + (ids last.discarded).count id = 1 ∧
        ∀ rest t, Run (Steps (Pool.next features)) last rest t → t.cells id = last.cells id) := by
  -- The turns are counted from the raised flag, and the rest is what a torn down pool is like.
  refine ⟨fun worker => ?_, fun dropped exited => ?_⟩
  · obtain ⟨-, used, taken⟩ := Pool.turnsLeft_of_run later flag worker
    -- From any place in the loop it is two steps to its end at most.
    have few : (mid.executors worker).state.turnsLeft ≤ 2 := by
      cases (mid.executors worker).state <;> simp [LoopState.turnsLeft]
    refine ⟨by omega, fun both => ?_, by omega, fun loops => Pool.turn_enabled loops⟩
    -- No turn is left.
    have none : (last.executors worker).state.turnsLeft = 0 := by omega
    cases stands : (last.executors worker).state with
    | exited => rfl
    | receiving => simp [stands, LoopState.turnsLeft] at none
    | checking => simp [stands, LoopState.turnsLeft] at none
  · have run := first.append later
    have awaited : last.Awaited :=
      run.invariant fresh.awaited fun _ _ _ before step => before.step step
    have down : last.TornDown := ⟨dropped, exited⟩
    obtain ⟨tracked, emptied⟩ := Pool.Emptied.of_run fresh run
    refine ⟨awaited.borrowed dropped, fun worker => ?_, fun id spawned =>
      ⟨down.ends emptied tracked.conserves spawned, fun rest t after => ?_⟩⟩
    · obtain ⟨tasks, queue⟩ := emptied worker (exited worker)
      exact ⟨by simp [Executor.queued, tasks], queue dropped⟩
    · rw [(down.run awaited after).1]

/-- Two tasks are sent, the flag is set, and both executors leave their loops. -/
def sentAndShutDown {n : Nat} (first second : Fin n) : List (PoolAction n Nat) :=
  [.call (.spawn .high), .store 0, .send 0, .call (.spawn .high), .store 1, .send 1,
    .recv first false .pending, .check first, .call .poll, .store 2, .send 2, .shutdown,
    .recv first false (.ready 7), .check first, .recv second false .pending, .check second,
    .dropCoordinator]

/-- One task is finished, and the one that was still in its queue is discarded. -/
theorem shutdown_settles_pool_sent :
    ∃ mid last : Pool 2 Nat,
      Run (Steps (Pool.next ⟨false, false⟩)) (Pool.initialized ⟨false, false⟩)
        ((sentAndShutDown 1 0).take 12) mid ∧ mid.shutdown = true ∧
      Run (Steps (Pool.next ⟨false, false⟩)) mid ((sentAndShutDown 1 0).drop 12) last ∧
      last.finished = [⟨0, .high⟩] ∧ last.discarded = [⟨1, .high⟩] ∧
      ∀ worker, (last.executors worker).queued = [] := by
  -- After the flag each executor has one more turn: one polls its task, one enqueues it.
  have replayed : (replay (Pool.next ⟨false, false⟩) (Pool.initialized ⟨false, false⟩ : Pool 2 Nat)
      ((sentAndShutDown 1 0).take 12)).map (fun mid => mid.shutdown &&
        (replay (Pool.next ⟨false, false⟩) mid ((sentAndShutDown 1 0).drop 12)).any (fun last =>
          last.finished == [⟨0, .high⟩] && last.discarded == [⟨1, .high⟩] && !last.held &&
          decide (∀ worker, (last.executors worker).state = .exited))) = some true := by
    decide
  obtain ⟨mid, first, tested⟩ := Run.of_replay_test replayed
  obtain ⟨flag, rest⟩ := Bool.and_eq_true_iff.mp tested
  obtain ⟨last, reached, final⟩ := (Option.any_eq_true _ _).mp rest
  simp only [Bool.and_eq_true, beq_iff_eq, Bool.not_eq_true', decide_eq_true_eq] at final
  obtain ⟨⟨⟨finished, discarded⟩, dropped⟩, exited⟩ := final
  have later := Run.of_replay reached
  obtain ⟨-, settled⟩ := shutdown_settles_pool (.inl rfl) first flag later
  obtain ⟨-, empty, -⟩ := settled dropped exited
  exact ⟨mid, last, first, flag, later, finished, discarded, fun worker => (empty worker).1⟩

end Teardown

end Imputio
