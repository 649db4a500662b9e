import Imputio.Runtime.Completion
import Imputio.Runtime.Pools
import Imputio.Runtime.Running

/-! The runtimes of a process and the pools behind their coordinators agree with each other. -/

namespace Imputio

open Transition

namespace Pool

variable {n : Nat} {V : Type*} {features : Features} {s t : Pool n V} {act : PoolAction n V}

/-- The flag is set by a call of `shutdown`, and nobody clears it. -/
theorem flag_of_step (step : Steps (next features) s act t) :
    t.shutdown = true ↔ s.shutdown = true ∨ act = .shutdown := by
  -- No other step names the flag, and the effect of a poll depends on its outcome.
  cases step_next step with
  | flagged => simp
  | @polled worker coin outcome task level later rest exec =>
    have same : (s.polled worker exec task outcome).shutdown = s.shutdown := by
      cases outcome <;> rfl
    simp [same]
  | @served worker coin outcome call op rest =>
    -- An answer concerns the caller only.
    unfold answer
    split <;> simp [setExecutor, setCall]
  | _ => simp [setExecutor, setCall, create, accept, refuse, leave, dropChannels]

/-- A call is in progress after a step if it was before, or if it has just been made. -/
theorem active_of_step (step : Steps (next features) s act t) {call : CallId}
    (active : (t.calls call).active = true) :
    (s.calls call).active = true ∨ (∃ request, act = .call request) ∧ call = s.nextCall := by
  -- The number of the next call tells a call that was just made from all earlier ones.
  rcases calls_cases step call with ⟨-, same | before⟩ | ⟨-, more, new | same⟩
  · exact .inl (same ▸ active)
  · exact .inl before
  · refine .inr ⟨?_, new⟩
    -- No other step makes a call.
    cases step_next step with
    | called => exact ⟨_, rfl⟩
    | @polled worker coin outcome task level later rest exec =>
      simp [(s.polled_calls worker exec task outcome).2] at more
    | served =>
      unfold answer at more
      split at more <;> simp [setExecutor, setCall] at more
    | _ => simp [setExecutor, setCall, create, accept, refuse, leave, dropChannels] at more
  · exact .inl (same ▸ active)

end Pool

/-- A step that is no step of a driver that loads or polls leaves what the driver polls alone. -/
theorem Runtime.Effect.polling_iff {r : RuntimeId} {shared shared' : Shared} {rt rt' : Runtime}
    {step : RuntimeStep} (effect : rt.Effect r shared step shared' rt') (orderly : rt.Orderly)
    (apart : ∀ notice, step = .stepDriver notice →
      rt.driver ≠ .loading ∧ ∀ exec, rt.driver ≠ .polling exec) (exec : CoordinatorId) :
    rt'.driver = .polling exec ↔ rt.driver = .polling exec := by
  -- One case for each effect: the driver moves in its own steps and when it is started.
  cases effect with
  -- The driver that is started was not there before.
  | @started blocking before =>
    simp [(orderly.starts (by rw [before]; rfl)).2.1]
  | noticeSent _ sent => rw [Runtime.send_rest sent]; rfl
  | notified _ sent => rw [Runtime.send_rest sent]
  | driverLoaded before => exact absurd before (apart _ rfl).1
  | driverPanicked before => exact absurd before ((apart _ rfl).2 _)
  | driverPolled before => exact absurd before ((apart _ rfl).2 _)
  | noticed before => simp [before]
  | unnoticed before => simp [before]
  | exitLoaded before => simp [before]
  | exitFlagged before => simp [before]
  | exitCleared before => simp [before]
  | _ => exact Iff.rfl

namespace PooledProcess

variable {V : Type*} {features : Features} {s t : PooledProcess V} {act : PooledAction V}

/-- Building a runtime concerns no coordinator, and it adds a driver that was not started. -/
theorem built_rest {act : ProcessAction} {process : Process} {execs : Nat}
    (building : (∃ capacity, act = .build execs capacity) ∨
      ∃ other, act = .buildSupplied execs other)
    (taken : Steps Process.next s.process act process) :
    process.shared = s.process.shared ∧ ∀ r,
      (r = s.process.nextRuntime ∧ ∃ rt, process.runtimes r = some rt ∧ rt.execs = execs ∧
        rt.driver = .unstarted ∧ rt.call = .idle ∧ rt.nextShutdown = 0) ∨
      r ≠ s.process.nextRuntime ∧ (process.runtimes r = s.process.runtimes r ∨
        ∃ rt, s.process.runtimes r = some rt ∧
          process.runtimes r = some { rt with notifier := .supplied }) := by
  -- Both ways of building add a runtime under a new name, and sharing touches one more.
  have added : ∀ (before : Process) (fresh : Runtime) r, r = before.nextRuntime ∧
      (before.addRuntime fresh).runtimes r = some fresh ∨ r ≠ before.nextRuntime ∧
        (before.addRuntime fresh).runtimes r = before.runtimes r := by
    intro before fresh r
    rw [Process.addRuntime, Process.setRuntime_apply]
    split
    · exact .inl ⟨‹_›, rfl⟩
    · exact .inr ⟨‹_›, rfl⟩
  rcases building with ⟨capacity, rfl⟩ | ⟨other, rfl⟩
  · obtain ⟨-, rfl⟩ := enabled_iff.mp taken
    refine ⟨rfl, fun r => ?_⟩
    rcases added s.process (.build execs (.own ⟨[], capacity, true⟩)) r with
      ⟨new, there⟩ | ⟨old, there⟩
    · exact .inl ⟨new, _, there, rfl, rfl, rfl, rfl⟩
    · exact .inr ⟨old, .inl there⟩
  · obtain rfl := Option.some.inj taken
    refine ⟨s.process.share_shared other, fun r => ?_⟩
    rcases added (s.process.share other) (.build execs .supplied) r with
      ⟨new, there⟩ | ⟨old, there⟩
    · exact .inl ⟨new.trans (s.process.share_nextRuntime other), _, there, rfl, rfl, rfl, rfl⟩
    · refine .inr ⟨fun new => old (new.trans (s.process.share_nextRuntime other).symm), ?_⟩
      -- The runtime with the shared channel has a supplied one now.
      rw [there, Process.share]
      split
      · rename_i rt found
        rw [Process.setRuntime_apply]
        split
        · rename_i here
          exact .inr ⟨rt, here ▸ found, rfl⟩
        · exact .inl rfl
      · exact .inl rfl

/-- A driver polls what it has loaded, and its caller is the one that does it. -/
structure DriversCall (s : PooledProcess V) : Prop where
  holds : ∀ r exec, (s.callers (.driver r)).holds = some exec ↔
    (s.process.runtimes r).map Runtime.driver = some (.polling exec)
  polls : ∀ r request exec, s.callers (.driver r) = .loaded request exec → request = .poll

/-- A thread of a user that goes on is no driver. -/
theorem DriversCall.of_same (drivers : s.DriversCall)
    (callers : ∀ r, t.callers (.driver r) = s.callers (.driver r))
    (runtimes : ∀ r, (t.process.runtimes r).map Runtime.driver =
      (s.process.runtimes r).map Runtime.driver) : t.DriversCall where
  holds := fun r exec => by rw [callers, runtimes, drivers.holds]
  polls := fun r request exec loads => drivers.polls r request exec (callers r ▸ loads)

/-- A caller that goes on with the same coordinator leaves the drivers as they are. -/
theorem DriversCall.of_caller {caller : SlotCaller} {exec : CoordinatorId} {call : CallId}
    (drivers : s.DriversCall) (holds : (s.callers caller).holds = some exec)
    (callers : t.callers = Function.update s.callers caller (.calling exec call))
    (process : t.process = s.process) : t.DriversCall where
  holds := fun r other => by
    rw [callers, process, Function.update_apply, ← drivers.holds]
    split
    · rename_i here
      rw [here, holds]
      rfl
    · rfl
  polls := fun r request other loads => by
    rw [callers, Function.update_apply] at loads
    split at loads
    · simp at loads
    · exact drivers.polls r request other loads

/-- Every step keeps the drivers in line with their calls. -/
theorem Effect.driversCall (effect : s.Effect features act t)
    (orderly : ∀ r rt, s.process.runtimes r = some rt → rt.Orderly)
    (known : s.process.Known) (drivers : s.DriversCall) : t.DriversCall := by
  -- A driver holds a coordinator from its load until its call ends, and nobody else moves it.
  cases effect with
  | built _ building taken =>
    obtain ⟨-, runtimes⟩ := built_rest building taken
    refine ⟨fun r exec => ?_, drivers.polls⟩
    rw [drivers.holds]
    rcases runtimes r with ⟨new, rt, there, -, driver, -⟩ | ⟨-, same | ⟨rt, before, there⟩⟩
    · -- The new name was not in use.
      have unbuilt : s.process.runtimes r = none := by
        by_contra built
        obtain ⟨rt, there⟩ := Option.ne_none_iff_exists'.mp built
        exact absurd (known.built r rt there) (by simp [new])
      simp [there, driver, unbuilt]
    · simp [same]
    · simp [there, before]
  | @stepped r step rt now shared pools there _ effect follows apart =>
    refine ⟨fun other exec => (drivers.holds other exec).trans ?_, drivers.polls⟩
    change _ ↔ ((s.setRuntime r shared now).process.runtimes other).map Runtime.driver = _
    rw [setRuntime_apply]
    split
    · rename_i here
      rw [here, there]
      simp [effect.polling_iff (orderly r rt there) apart]
    · rfl
  | @driverLoaded r notice rt there before _ =>
    refine ⟨fun other exec => ?_, fun other request exec loads => ?_⟩
    · change ((s.setCaller _ _).callers _).holds = _ ↔
        ((s.setRuntime r _ _).process.runtimes other).map Runtime.driver = _
      rw [setRuntime_apply, setCaller_apply]
      by_cases here : other = r
      · simp [here, SlotCall.holds]
      · simp [here, drivers.holds]
    · rw [setCaller_apply] at loads
      split at loads
      · simpa using (SlotCall.loaded.inj loads).1.symm
      · exact drivers.polls other request exec loads
  | userLoaded =>
    exact drivers.of_same (fun r => by simp [setCaller]) fun _ => rfl
  | @called caller request exec pool loads =>
    exact drivers.of_caller (by rw [loads]; rfl) rfl rfl
  | continued => exact drivers.of_same (fun _ => rfl) fun _ => rfl
  | userEnded => exact drivers.of_same (fun r => by simp [setCaller]) fun _ => rfl
  | @driverEnded r rt now shared exec call calls done there _ effect =>
    -- The driver was polling, so it goes on to look for a notice, or panics.
    have polling : rt.driver = .polling exec := by
      have held := (drivers.holds r exec).mp (by rw [calls]; rfl)
      simpa [there] using held
    refine ⟨fun other exec' => ?_, fun other request exec' loads => ?_⟩
    · change ((s.setCaller _ _).callers _).holds = _ ↔
        ((s.setRuntime r shared now).process.runtimes other).map Runtime.driver = _
      rw [setRuntime_apply, setCaller_apply]
      by_cases here : other = r
      · cases effect <;> simp_all [SlotCall.holds]
      · simp [here, drivers.holds]
    · change (s.setCaller _ _).callers _ = _ at loads
      rw [setCaller_apply] at loads
      split at loads
      · simp at loads
      · exact drivers.polls other request exec' loads
  | worked => exact drivers.of_same (fun _ => rfl) fun _ => rfl
  | left => exact drivers.of_same (fun _ => rfl) fun _ => rfl
  | dropped => exact drivers.of_same (fun _ => rfl) fun _ => rfl

end PooledProcess

/-- What the runtimes know of a coordinator agrees with its pool. -/
structure Coordinator.Matches {V : Type*} (coordinator : Coordinator) (pool : SizedPool V) :
    Prop where
  handles : coordinator.handles = pool.execs
  shutdown : coordinator.shutdown = pool.pool.shutdown
  ended : ∀ worker (inRange : worker < pool.execs),
    coordinator.exited worker = true ∨ coordinator.crashed worker = true ↔
      (pool.pool.executors ⟨worker, inRange⟩).state = .exited

/-- What the runtimes see of a coordinator after a step of its pool. -/
def Coordinator.after {n : Nat} {V : Type*} (features : Features) (coordinator : Coordinator)
    (pool : Pool n V) : PoolAction n V → Coordinator
  | .shutdown => { coordinator with shutdown := true }
  | .check worker => if pool.shutdown then coordinator.leave worker false else coordinator
  | .recv worker coin .panicked =>
    if (pool.polledTask features (.recv worker coin .panicked)).isSome then
      coordinator.leave worker true
    else coordinator
  | _ => coordinator

section Matching

variable {n : Nat} {V : Type*} {features : Features} {coordinator : Coordinator}
  {s t : Pool n V} {act : PoolAction n V}

/-- A placeholder has no executor, and that is how the runtimes see it. -/
theorem Coordinator.matches_new : Coordinator.new.Matches (⟨1, .new⟩ : SizedPool V) where
  handles := rfl
  shutdown := rfl
  ended := fun _ _ => ⟨fun _ => rfl, fun _ => .inl rfl⟩

/-- The executors of a coordinator that was just made are in their loops. -/
theorem Coordinator.matches_started (r : RuntimeId) (pollers : Nat) :
    (Coordinator.started r n pollers).Matches (⟨n, .initialized features⟩ : SizedPool V) where
  handles := rfl
  shutdown := rfl
  ended := fun _ _ => by
    simp [Coordinator.started, Pool.initialized, Pool.withExecutors, Executor.initialized]

/-- What the runtimes see of the executors is which of them leave. -/
theorem Coordinator.after_ended (worker : Fin n) :
    (coordinator.after features s act).exited worker = true ∨
        (coordinator.after features s act).crashed worker = true ↔
      (coordinator.exited worker = true ∨ coordinator.crashed worker = true) ∨
        s.Leaves features act worker := by
  -- Two kinds of steps end an executor, and the runtimes see which of them it was.
  cases act with
  | check leaving =>
    cases flagged : s.shutdown with
    | true =>
      simp only [after, flagged, if_true, leave_exited_iff, leave_crashed_iff, Pool.Leaves,
        Bool.false_eq_true, false_and, or_false, true_and, and_true, Fin.ext_iff]
      rw [or_right_comm, eq_comm (a := (worker : Nat))]
    | false => simp [after, flagged, Pool.Leaves]
  | recv leaving coin outcome =>
    cases outcome with
    | panicked =>
      by_cases polls : (s.polledTask features (.recv leaving coin .panicked)).isSome = true
      · simp only [after, polls, if_true, leave_exited_iff, leave_crashed_iff, Pool.Leaves,
          Bool.true_eq_false, false_and, or_false, true_and, and_true, Fin.ext_iff]
        rw [or_assoc, eq_comm (a := (worker : Nat))]
      · simp [after, polls, Pool.Leaves]
    | _ => simp [after, Pool.Leaves]
  | _ => simp [after, Pool.Leaves]

/-- Neither the handles nor the flag change with an executor that ends. -/
theorem Coordinator.after_rest :
    (coordinator.after features s act).handles = coordinator.handles ∧
      ((coordinator.after features s act).shutdown = true ↔
        coordinator.shutdown = true ∨ act = .shutdown) := by
  -- Only a raised flag or a panic during a poll makes an executor leave.
  cases act with
  | check leaving => by_cases flagged : s.shutdown = true <;> simp [after, flagged]
  | recv leaving coin outcome =>
    cases outcome with
    | panicked =>
      by_cases polls : (s.polledTask features (.recv leaving coin .panicked)).isSome = true <;>
        simp [after, polls]
    | _ => simp [after]
  | _ => simp [after]

/-- A step of the pool is seen as it is. -/
theorem Coordinator.Matches.step (matched : coordinator.Matches ⟨n, s⟩)
    (step : Steps (Pool.next features) s act t) :
    (coordinator.after features s act).Matches ⟨n, t⟩ := by
  -- What the runtimes see of a pool are its handles, its flag and who is in the loop.
  obtain ⟨handles, shutdown, ended⟩ := matched
  have effect := Pool.step_effect step
  refine ⟨after_rest.1.trans handles, ?_, fun worker inRange => ?_⟩
  · -- The flag is set by a call of `shutdown`, and nobody clears it.
    rw [Bool.eq_iff_iff, after_rest.2, shutdown, Pool.flag_of_step step]
  · rw [(effect.loops ⟨worker, inRange⟩).1, ← ended worker inRange]
    exact after_ended ⟨worker, inRange⟩

end Matching

namespace PooledProcess

variable {V : Type*} {features : Features} {s t : PooledProcess V} {act : PooledAction V}

/-- Where a step of the pool of a coordinator comes from. -/
inductive Cause (s : PooledProcess V) (act : PooledAction V) (t : PooledProcess V)
    (exec : CoordinatorId) : PoolAction (s.pools exec).execs V → Prop
  | called {caller : SlotCaller} {request : CoordinatorCall}
      (holds : (s.callers caller).holds = some exec)
      (calling : t.callers caller = .calling exec (s.pools exec).pool.nextCall) :
      Cause s act t exec (.call request)
  | continued {caller : SlotCaller} {call : CallId} {act' : PoolAction (s.pools exec).execs V}
      (calls : s.callers caller = .calling exec call)
      (own : act' = .store call ∨ act' = .send call ∨ act' = .receive call) :
      Cause s act t exec act'
  | flagged {r : RuntimeId} {rt : Runtime} (there : s.process.runtimes r = some rt)
      (flags : rt.Flags exec) : Cause s act t exec .shutdown
  | worked {worker : Nat} {step : WorkerStep V} (works : act = .work exec worker step)
      (inRange : worker < (s.pools exec).execs) : Cause s act t exec (step.action ⟨worker, inRange⟩)
  | dropped (retired : s.Retired exec) : Cause s act t exec .dropCoordinator

/-- What a step does to one coordinator, as the runtimes see it, and to its pool. -/
inductive OnPool (features : Features) (s : PooledProcess V) (act : PooledAction V)
    (t : PooledProcess V) (exec : CoordinatorId) : Prop
  | same (coordinator : t.process.shared.coordinators exec = s.process.shared.coordinators exec)
      (pool : t.pools exec = s.pools exec)
  | made (new : exec = s.process.shared.nextCoordinator)
      (fresh : (t.process.shared.coordinators exec = .new ∧ t.pools exec = ⟨1, .new⟩) ∨
        ∃ r rt execs pollers, s.process.runtimes r = some rt ∧ execs ≤ rt.execs ∧
          t.process.shared.coordinators exec = .started r execs pollers ∧
          t.pools exec = ⟨execs, .initialized features⟩)
  | stepped {act' : PoolAction (s.pools exec).execs V} {pool : Pool (s.pools exec).execs V}
      (taken : Steps (Pool.next features) (s.pools exec).pool act' pool)
      (seen : t.process.shared.coordinators exec =
        (s.process.shared.coordinators exec).after features (s.pools exec).pool act')
      (now : t.pools exec = ⟨_, pool⟩) (cause : s.Cause act t exec act')

/-- What holds of coordinators that are made, and is kept by the steps of their pools, is kept. -/
theorem OnPool.keeps {P : Coordinator → SizedPool V → Prop} {exec : CoordinatorId}
    (pooled : s.OnPool features act t exec)
    (before : P (s.process.shared.coordinators exec) (s.pools exec))
    (placeholder : P .new ⟨1, .new⟩)
    (started : ∀ r rt execs pollers, s.process.runtimes r = some rt → execs ≤ rt.execs →
      P (.started r execs pollers) ⟨execs, .initialized features⟩)
    (stepped : ∀ act' pool, Steps (Pool.next features) (s.pools exec).pool act' pool →
      s.Cause act t exec act' →
      P ((s.process.shared.coordinators exec).after features (s.pools exec).pool act') ⟨_, pool⟩) :
    P (t.process.shared.coordinators exec) (t.pools exec) := by
  -- The coordinator is the one that it was, or new, or its pool has taken a step.
  cases pooled with
  | same coordinator pool =>
    rw [coordinator, pool]
    exact before
  | made _ fresh =>
    rcases fresh with
      ⟨coordinator, pool⟩ | ⟨r, rt, execs, pollers, there, fewer, coordinator, pool⟩
    · rw [coordinator, pool]
      exact placeholder
    · rw [coordinator, pool]
      exact started r rt execs pollers there fewer
  | stepped taken seen now cause =>
    rw [seen, now]
    exact stepped _ _ taken cause

/-- A step on one pool that the runtimes do not see leaves all other coordinators alone. -/
theorem OnPool.of_setPool {stepping exec : CoordinatorId}
    {act' : PoolAction (s.pools stepping).execs V} {pool : Pool (s.pools stepping).execs V}
    (taken : Steps (Pool.next features) (s.pools stepping).pool act' pool)
    (seen : t.process.shared.coordinators = Function.update s.process.shared.coordinators stepping
      ((s.process.shared.coordinators stepping).after features (s.pools stepping).pool act'))
    (pools : t.pools = Function.update s.pools stepping ⟨_, pool⟩)
    (cause : s.Cause act t stepping act') : s.OnPool features act t exec := by
  -- The functions are updated at the pool that steps and nowhere else.
  by_cases here : exec = stepping
  · subst here
    exact .stepped taken (by rw [seen, Function.update_self]) (by rw [pools, Function.update_self])
      cause
  · exact .same (by rw [seen, Function.update_of_ne here])
      (by rw [pools, Function.update_of_ne here])

/-- Where the pools follow the runtimes, each coordinator is kept, made or flagged. -/
theorem Follows.onPool {shared : Shared} {pools : CoordinatorId → SizedPool V}
    (follows : s.Follows features shared pools) (coordinators : t.process.shared = shared)
    (pooled : t.pools = pools) (exec : CoordinatorId) : s.OnPool features act t exec := by
  -- A coordinator that is made has a new name, so that the others are as they were.
  cases follows with
  | same same _ kept => exact .same (by rw [coordinators, same]) (by rw [pooled, kept])
  | @made coordinator pool fresh made _ added =>
    by_cases new : exec = s.process.shared.nextCoordinator
    · refine .made new ?_
      rw [coordinators, made, pooled, added, new, Function.update_self, Function.update_self]
      rcases fresh with ⟨rfl, rfl⟩ | ⟨r, rt, execs, pollers, there, fewer, rfl, rfl⟩
      · exact .inl ⟨rfl, rfl⟩
      · exact .inr ⟨r, rt, execs, pollers, there, fewer, rfl, rfl⟩
    · exact .same (by rw [coordinators, made, Function.update_of_ne new])
        (by rw [pooled, added, Function.update_of_ne new])
  | flagged there flags taken flagged _ flag =>
    exact .of_setPool taken (by rw [coordinators, flagged]; rfl) (by rw [pooled, flag])
      (.flagged there flags)

/-- Where the runtimes see nothing of a step of an executor, there is nothing to see. -/
theorem after_of_ends {coordinator : Coordinator} {exec : CoordinatorId} {n : Nat}
    {pool : Pool n V} {worker : Fin n} {step : WorkerStep V}
    (stays : step.ends features pool exec worker = none) :
    coordinator.after features pool (step.action worker) = coordinator := by
  -- An executor leaves at a raised flag or with a panicking task, and both would be seen.
  cases step with
  | check => simp_all [WorkerStep.ends, WorkerStep.action, Coordinator.after]
  | recv coin outcome =>
    cases outcome with
    | panicked => simp_all [WorkerStep.ends, WorkerStep.action, Coordinator.after]
    | _ => rfl
  | _ => rfl

/-- Where they see that an executor ends, it leaves in the way that they see. -/
theorem after_of_ends_some {coordinator : Coordinator} {exec : CoordinatorId} {n : Nat}
    {pool : Pool n V} {worker : Fin n} {step : WorkerStep V} {act : ProcessAction}
    {panics : Bool} (ends : step.ends features pool exec worker = some act)
    (how : if panics then act = .crashExecutor exec worker else act = .exitExecutor exec worker) :
    coordinator.after features pool (step.action worker) = coordinator.leave worker panics := by
  -- The kind of step that is seen tells a check of the flag from a panicking task.
  cases step with
  | check =>
    obtain ⟨flag, rfl⟩ : pool.shutdown = true ∧ ProcessAction.exitExecutor exec worker = act := by
      simpa [WorkerStep.ends] using ends
    obtain rfl : panics = false := by cases panics <;> simp_all
    simp [WorkerStep.action, Coordinator.after, flag]
  | recv coin outcome =>
    cases outcome with
    | panicked =>
      obtain ⟨polls, rfl⟩ : (pool.polledTask features (.recv worker coin .panicked)).isSome = true ∧
          ProcessAction.crashExecutor exec worker = act := by
        simpa [WorkerStep.ends] using ends
      obtain rfl : panics = true := by cases panics <;> simp_all
      simp [WorkerStep.action, Coordinator.after, polls]
    | _ => simp [WorkerStep.ends] at ends
  | _ => simp [WorkerStep.ends] at ends

/-- Every step does one of these to a coordinator. -/
theorem Effect.onPool (effect : s.Effect features act t) (drivers : s.DriversCall)
    (exec : CoordinatorId) : s.OnPool features act t exec := by
  -- A step that is seen as it was leaves what is known of the coordinator.
  have unseen : ∀ {shared : Shared} {stepping : CoordinatorId} {coordinator : Coordinator},
      coordinator = shared.coordinators stepping →
      shared.coordinators = Function.update shared.coordinators stepping coordinator := by
    rintro shared stepping coordinator rfl
    exact (Function.update_eq_self stepping _).symm
  cases effect with
  | built _ building taken =>
    obtain ⟨same, -⟩ := built_rest building taken
    exact .same (congrArg (·.coordinators exec) same) rfl
  | stepped _ _ _ follows => exact follows.onPool rfl rfl exec
  | driverLoaded => exact .same rfl rfl
  | userLoaded => exact .same rfl rfl
  | @called caller request loaded pool loads taken =>
    exact .of_setPool taken (unseen rfl) rfl
      (.called (by rw [loads]; rfl) (by rw [setCaller_apply, if_pos rfl]))
  | continued calls own taken =>
    refine .of_setPool taken (unseen ?_) rfl (.continued calls own)
    rcases own with rfl | rfl | rfl <;> rfl
  | userEnded => exact .same rfl rfl
  | @driverEnded r rt now shared polled call calls _ there _ effect =>
    have polling : rt.driver = .polling polled := by
      have held := (drivers.holds r polled).mp (by rw [calls]; rfl)
      simpa [there] using held
    -- The end of a poll adds to the history at most.
    refine .same ?_ rfl
    change shared.coordinators exec = _
    cases effect <;> simp_all [Shared.act]
  | @worked worked worker step pool inRange taken stays =>
    exact .of_setPool taken (unseen (after_of_ends stays)) rfl (.worked rfl inRange)
  | @left leaving worker step panics act pool inRange taken ends how =>
    refine .of_setPool taken ?_ rfl (.worked rfl inRange)
    rw [after_of_ends_some ends how]
    rfl
  | dropped retired taken => exact .of_setPool taken (unseen rfl) rfl (.dropped retired)

variable {exec : CoordinatorId}

/-- The runtimes take a step of their own, or none. -/
theorem Effect.process (effect : s.Effect features act t) : t.process = s.process ∨
    ∃ act' : ProcessAction, act'.Fits ∧ Steps Process.next s.process act' t.process := by
  -- Polls, loads by users and the steps of pools are no steps of the runtimes.
  cases effect with
  | built fits building taken =>
    rcases building with ⟨_, rfl⟩ | ⟨_, rfl⟩
    · exact .inr ⟨.build _ _, fits, taken⟩
    · exact .inr ⟨.buildSupplied _ _, fits, taken⟩
  | stepped _ taken => exact .inr ⟨.step _ _, trivial, taken⟩
  | driverLoaded _ _ taken => exact .inr ⟨.step _ _, trivial, taken⟩
  | driverEnded _ _ _ taken => exact .inr ⟨.step _ _, trivial, taken⟩
  | @left exec worker step panics act pool inRange taken ends how seen =>
    refine .inr ⟨act, ?_, seen⟩
    cases panics <;> (obtain rfl := how; trivial)
  | _ => exact .inl rfl

/-- No runtime has what nobody is going to use. -/
theorem Retired.unreachable (retired : s.Retired exec) (known : s.process.Known) :
    s.process.Unreachable exec :=
  ⟨retired.1, retired.2.1, fun r rt there => retired.2.2.1 r (known.built r rt there) rt there⟩

/-- What is retired stays retired, whatever a step does. -/
theorem Effect.retired (effect : s.Effect features act t) (sound : s.process.Sound)
    (retired : s.Retired exec) : t.Retired exec := by
  -- Being out of the slot and out of reach is a fact about the runtimes alone.
  have unreachable : t.process.Unreachable exec := by
    rcases effect.process with same | ⟨act', -, taken⟩
    · exact same ▸ retired.unreachable sound.known
    · exact ((Process.step_effect taken).unreachable sound (retired.unreachable sound.known)).1
  obtain ⟨-, apart, -, unused⟩ := retired
  refine ⟨unreachable.1, unreachable.2.1, fun r _ rt there => unreachable.2.2 r rt there,
    fun id made => ?_⟩
  -- A user gets another coordinator at most, and who has one goes on with it.
  cases effect with
  | userLoaded =>
    change ((s.setCaller _ _).callers _).holds ≠ _
    rw [setCaller_apply]
    split
    · simpa [SlotCall.holds] using apart
    · rename_i other
      refine unused id (Nat.lt_of_le_of_ne (Nat.le_of_lt_succ made) fun same => other ?_)
      rw [same]
  | @called caller request loaded pool loads =>
    by_cases here : SlotCaller.user id = caller
    · have before := unused id made
      rw [here, loads] at before
      rw [here]
      simpa [setCaller, SlotCall.holds] using before
    · have kept := unused id made
      simpa [setCaller, setPool, Function.update_of_ne here] using kept
  | userEnded =>
    rw [setCaller_apply]
    split
    · simp [SlotCall.holds]
    · exact unused id made
  | driverLoaded => simpa [setCaller, setRuntime] using unused id made
  | driverEnded => simpa [setCaller, setRuntime] using unused id made
  | _ => exact unused id made

end PooledProcess

/-- The pool has been fresh, and all that happened since were steps of a pool. -/
def SizedPool.Reached {V : Type*} (features : Features) (pool : SizedPool V) : Prop :=
  ∃ start acts, Pool.Fresh features start ∧ Run (Steps (Pool.next features)) start acts pool.pool

namespace PooledProcess

variable {V : Type*} {features : Features} {s t : PooledProcess V} {act : PooledAction V}
  {exec : CoordinatorId}

/-- What holds in every reachable state of the runtimes, of the pools and of the calls. -/
structure Coherent (features : Features) (s : PooledProcess V) : Prop where
  process : ∃ acts, Run (Guarded (fun _ => ProcessAction.Fits) (Steps Process.next)) .new acts
    s.process
  drivers : s.DriversCall
  matched : ∀ exec, (s.process.shared.coordinators exec).Matches (s.pools exec)
  reached : ∀ exec, (s.pools exec).Reached features
  execs : ∀ r rt, s.process.runtimes r = some rt → rt.execs ≤ isizeMax
  fits : ∀ exec, (s.pools exec).execs ≤ isizeMax
  users : ∀ id, s.nextUser ≤ id → s.callers (.user id) = .idle
  named : ∀ id exec, (s.callers (.user id)).holds = some exec →
    exec < s.process.shared.nextCoordinator
  attended : ∀ exec call, ((s.pools exec).pool.calls call).active = true →
    ∃ caller, s.callers caller = .calling exec call
  held : ∀ exec, (s.pools exec).pool.held = false → s.Retired exec

/-- A call that is made has its thread. -/
theorem Cause.calling {request : CoordinatorCall} (cause : s.Cause act t exec (.call request)) :
    ∃ caller, t.callers caller = .calling exec (s.pools exec).pool.nextCall := by
  -- Of all causes only a thread that calls has a call as its step on the pool.
  generalize made : PoolAction.call request = act' at cause
  cases cause with
  | called _ calling => exact ⟨_, calling⟩
  | continued _ own =>
    subst made
    simp at own
  | @worked worker step => cases step <;> simp [WorkerStep.action] at made
  | _ => simp at made

/-- A coordinator is dropped when nobody has it. -/
theorem Cause.retired (cause : s.Cause act t exec .dropCoordinator) : s.Retired exec := by
  -- Of all causes only dropping the coordinator has this step on the pool.
  generalize drops : PoolAction.dropCoordinator = act' at cause
  cases cause with
  | dropped retired => exact retired
  | continued _ own =>
    subst drops
    simp at own
  | @worked worker step => cases step <;> simp [WorkerStep.action] at drops
  | _ => simp at drops

/-- A task that panics does so in a step of its executor. -/
theorem Cause.work {worker : Fin (s.pools exec).execs} {coin : Bool} {outcome : FutureStep V}
    (cause : s.Cause act t exec (.recv worker coin outcome)) :
    act = .work exec worker (.recv coin outcome) := by
  -- Of all causes only the work of an executor receives from the channel.
  generalize received : PoolAction.recv worker coin outcome = act' at cause
  cases cause with
  | continued _ own =>
    subst received
    simp at own
  | @worked leaving step works inRange =>
    cases step with
    | recv coin' outcome' =>
      obtain ⟨rfl, rfl, rfl⟩ := PoolAction.recv.inj received
      exact works
    | _ => simp [WorkerStep.action] at received
  | _ => simp at received

/-- A call that is in progress has its thread, which stays with it until it is done. -/
theorem Effect.calling_kept (effect : s.Effect features act t) (drivers : s.DriversCall)
    (users : ∀ id, s.nextUser ≤ id → s.callers (.user id) = .idle) {caller : SlotCaller}
    {exec : CoordinatorId} {call : CallId} (calls : s.callers caller = .calling exec call) :
    t.callers caller = .calling exec call ∨ ((s.pools exec).pool.calls call).active = false := by
  -- A thread that is given something else to do was not in that call.
  have moved : ∀ {other now}, (caller = other → False) →
      (s.setCaller other now).callers caller = .calling exec call := by
    intro other now apart
    rw [setCaller_apply, if_neg apart, calls]
  cases effect with
  | built => exact .inl calls
  | stepped => exact .inl calls
  | @driverLoaded r notice rt there before =>
    refine .inl (moved ?_)
    rintro rfl
    have polling := (drivers.holds r exec).mp (by rw [calls]; rfl)
    simp [there, before] at polling
  | userLoaded =>
    refine .inl (moved ?_)
    rintro rfl
    simp [users s.nextUser (Nat.le_refl _)] at calls
  | @called other request loaded pool loads =>
    refine .inl (moved ?_)
    rintro rfl
    simp [loads] at calls
  | continued => exact .inl calls
  | @userEnded id ended done calls' inactive =>
    by_cases here : caller = .user id
    · subst here
      obtain ⟨rfl, rfl⟩ := SlotCall.calling.inj (calls.symm.trans calls')
      exact .inr inactive
    · exact .inl (moved here)
  | @driverEnded r rt now shared ended done calls' inactive =>
    by_cases here : caller = .driver r
    · subst here
      obtain ⟨rfl, rfl⟩ := SlotCall.calling.inj (calls.symm.trans calls')
      exact .inr inactive
    · exact .inl (moved here)
  | worked => exact .inl calls
  | left => exact .inl calls
  | dropped => exact .inl calls

/-- No runtime gets a larger configuration than a `Vec` can hold. -/
theorem Effect.execs (effect : s.Effect features act t)
    (execs : ∀ r rt, s.process.runtimes r = some rt → rt.execs ≤ isizeMax) :
    ∀ r rt, t.process.runtimes r = some rt → rt.execs ≤ isizeMax := by
  -- A configuration is fixed when its runtime is built, and steps move the rest of it.
  have moved : ∀ {r rt now shared other rt'}, s.process.runtimes r = some rt →
      (s.setRuntime r shared now).process.runtimes other = some rt' → now.execs = rt.execs →
      rt'.execs ≤ isizeMax := by
    intro r rt now shared other rt' there found same
    rw [setRuntime_apply] at found
    split at found
    · rw [← Option.some.inj found, same]
      exact execs r rt there
    · exact execs other rt' found
  intro r rt there
  cases effect with
  | built fits building taken =>
    rcases (built_rest building taken).2 r with
      ⟨-, rt', there', same, -⟩ | ⟨-, same | ⟨rt', before, there'⟩⟩
    · rw [← Option.some.inj (there'.symm.trans there), same]
      exact fits
    · exact execs r rt (same.symm.trans there)
    · rw [← Option.some.inj (there'.symm.trans there)]
      exact execs r rt' before
  | stepped found _ effect => exact moved found there effect.execs
  | driverLoaded found => exact moved found there rfl
  | driverEnded _ _ found _ effect => exact moved found there effect.execs
  | _ => exact execs r rt there

/-- A thread of a user that was not started yet is idle. -/
theorem Effect.users (effect : s.Effect features act t)
    (users : ∀ id, s.nextUser ≤ id → s.callers (.user id) = .idle) :
    ∀ id, t.nextUser ≤ id → t.callers (.user id) = .idle := by
  -- Names of users are given out in order, so that a step moves a user who has one.
  intro id new
  cases effect with
  | userLoaded =>
    have above : s.nextUser < id := new
    simpa [setCaller, above.ne'] using users id above.le
  | @called caller request exec pool loads =>
    have before := users id new
    have other : SlotCaller.user id ≠ caller := by
      rintro rfl
      simp [loads] at before
    simpa [setCaller, setPool, other] using before
  | driverLoaded => simpa [setCaller, setRuntime] using users id new
  | driverEnded => simpa [setCaller, setRuntime] using users id new
  | @userEnded ended =>
    rw [setCaller_apply]
    split
    · rfl
    · exact users id new
  | _ => exact users id new

/-- Whatever a thread of a user has was in the slot, and so it was made. -/
theorem Effect.named (effect : s.Effect features act t) (known : s.process.Known)
    (named : ∀ id exec, (s.callers (.user id)).holds = some exec →
      exec < s.process.shared.nextCoordinator) :
    ∀ id exec, (t.callers (.user id)).holds = some exec →
      exec < t.process.shared.nextCoordinator := by
  -- Coordinators are only ever added, and a name that was given out stays one.
  have more : s.process.shared.nextCoordinator ≤ t.process.shared.nextCoordinator := by
    rcases effect.process with same | ⟨act', -, taken⟩
    · rw [same]
    · exact (Process.step_effect taken).names
  -- A thread has what it has had, or it has just loaded the slot.
  have before : ∀ id exec, (t.callers (.user id)).holds = some exec →
      (s.callers (.user id)).holds = some exec ∨ exec = s.process.shared.executor := by
    intro id exec holds
    cases effect with
    | userLoaded =>
      change ((s.setCaller _ _).callers _).holds = _ at holds
      rw [setCaller_apply] at holds
      split at holds
      · exact .inr (Option.some.inj holds).symm
      · exact .inl holds
    | @called caller request loaded pool loads =>
      change ((PooledProcess.setCaller _ _ _).callers _).holds = _ at holds
      rw [setCaller_apply] at holds
      split at holds
      · rename_i here
        rw [here, loads]
        exact .inl holds
      · exact .inl holds
    | userEnded =>
      rw [setCaller_apply] at holds
      split at holds
      · simp [SlotCall.holds] at holds
      · exact .inl holds
    | driverLoaded => exact .inl (by simpa [setCaller, setRuntime] using holds)
    | driverEnded => exact .inl (by simpa [setCaller, setRuntime] using holds)
    | _ => exact .inl holds
  intro id exec holds
  rcases before id exec holds with had | rfl
  · exact (named id exec had).trans_le more
  · exact known.slot.trans_le more

/-- Before anything happens all is in order. -/
theorem new_coherent : (new : PooledProcess V).Coherent features where
  process := ⟨[], .nil⟩
  drivers := ⟨fun _ _ => by simp [new, SlotCall.holds, Process.new], fun _ _ _ => by simp [new]⟩
  matched := fun _ => Coordinator.matches_new
  reached := fun _ => ⟨_, [], .inr rfl, .nil⟩
  execs := fun _ _ there => by simp [new, Process.new] at there
  fits := fun _ => by simp [new, isizeMax]
  users := fun _ _ => rfl
  named := fun _ _ holds => by simp [new, SlotCall.holds] at holds
  attended := fun _ _ active => by
    simp [new, Pool.new, Pool.withExecutors, CallProgress.active] at active
  held := fun _ unheld => by simp [new, Pool.new, Pool.withExecutors] at unheld

/-- Every step keeps all in order. -/
theorem Coherent.step (coherent : s.Coherent features) (step : Steps (next features) s act t) :
    t.Coherent features := by
  -- Each part is kept by its own lemma, those about one pool by what a step does to a pool.
  have effect := step_effect step
  obtain ⟨acts, run⟩ := coherent.process
  have sound := Process.sound_of_run run.unguard
  have orderly := fun r rt there => (Process.orderly_of_run run.unguard r rt there).1
  have pooled := effect.onPool coherent.drivers
  refine ⟨?_, effect.driversCall orderly sound.known coherent.drivers, fun exec => ?_,
    fun exec => ?_, effect.execs coherent.execs, fun exec => ?_, effect.users coherent.users,
    effect.named sound.known coherent.named, fun exec => ?_, fun exec => ?_⟩
  · rcases effect.process with same | ⟨act', fits, taken⟩
    · exact ⟨acts, same ▸ run⟩
    · exact ⟨_, run.snoc ⟨fits, taken⟩⟩
  · exact (pooled exec).keeps (P := Coordinator.Matches) (coherent.matched exec)
      Coordinator.matches_new (fun r _ _ pollers _ _ => Coordinator.matches_started r pollers)
      fun _ _ taken _ => (coherent.matched exec).step taken
  · refine (pooled exec).keeps (P := fun _ pool => pool.Reached features) (coherent.reached exec)
      ⟨_, [], .inr rfl, .nil⟩ (fun _ _ _ _ _ _ => ⟨_, [], .inl rfl, .nil⟩) fun _ _ taken _ => ?_
    obtain ⟨start, before, fresh, earlier⟩ := coherent.reached exec
    exact ⟨start, _, fresh, earlier.snoc taken⟩
  · exact (pooled exec).keeps (P := fun _ pool => pool.execs ≤ isizeMax) (coherent.fits exec)
      (by decide : 1 ≤ isizeMax)
      (fun r rt _ _ there fewer => fewer.trans (coherent.execs r rt there))
      fun _ _ _ _ => coherent.fits exec
  · -- A call that goes on has kept its thread, and one that was made has just got it.
    have kept : ∀ call, ((s.pools exec).pool.calls call).active = true →
        ∃ caller, t.callers caller = .calling exec call := by
      intro call before
      obtain ⟨caller, calls⟩ := coherent.attended exec call before
      rcases effect.calling_kept coherent.drivers coherent.users calls with still | done
      · exact ⟨caller, still⟩
      · simp [before] at done
    refine (pooled exec).keeps (P := fun _ pool => ∀ call, (pool.pool.calls call).active = true →
      ∃ caller, t.callers caller = .calling exec call) kept ?_ ?_ ?_
    · simp [Pool.new, Pool.withExecutors, CallProgress.active]
    · simp [Pool.initialized, Pool.withExecutors, CallProgress.active]
    · intro act' pool taken cause call active
      rcases Pool.active_of_step taken active with before | ⟨⟨request, rfl⟩, rfl⟩
      · exact kept call before
      · exact cause.calling
  · refine (pooled exec).keeps (P := fun _ pool => pool.pool.held = false → t.Retired exec)
      (fun unheld => effect.retired sound (coherent.held exec unheld)) ?_ ?_ ?_
    · simp [Pool.new, Pool.withExecutors]
    · simp [Pool.initialized, Pool.withExecutors]
    · intro act' pool taken cause unheld
      rcases (Pool.step_effect taken).holds.mp unheld with before | rfl
      · exact effect.retired sound (coherent.held exec before)
      · exact effect.retired sound cause.retired

/-- A coordinator that somebody may still use is held. -/
theorem Coherent.held_true (coherent : s.Coherent features) (used : ¬ s.Retired exec) :
    (s.pools exec).pool.held = true := by
  by_contra unheld
  exact used (coherent.held exec (by simpa using unheld))

/-- No runtime is about to set the flag of a coordinator that nobody has. -/
theorem Coherent.not_flags (coherent : s.Coherent features) (retired : s.Retired exec)
    {r : RuntimeId} {rt : Runtime} (there : s.process.runtimes r = some rt) : ¬ rt.Flags exec := by
  -- What is retired cannot be reached, and whoever sets a flag has the coordinator.
  obtain ⟨acts, run⟩ := coherent.process
  have sound := Process.sound_of_run run.unguard
  have free := (retired.unreachable sound.known).2.2 r rt there
  exact free.not_flags (sound.borrowed r rt there)

/-- No thread calls a coordinator that nobody has. -/
theorem Coherent.not_holds (coherent : s.Coherent features) (retired : s.Retired exec)
    (caller : SlotCaller) : (s.callers caller).holds ≠ some exec := by
  -- A user has what it loaded, and a driver what its own runtime records.
  obtain ⟨acts, run⟩ := coherent.process
  have known := (Process.sound_of_run run.unguard).known
  intro holds
  cases caller with
  | user id =>
    by_cases made : id < s.nextUser
    · exact retired.2.2.2 id made holds
    · rw [coherent.users id (Nat.not_lt.mp made)] at holds
      simp [SlotCall.holds] at holds
  | driver r =>
    obtain ⟨rt, there, polling⟩ :=
      Option.map_eq_some_iff.mp ((coherent.drivers.holds r exec).mp holds)
    refine (retired.2.2.1 r (known.built r rt there) rt there).1 ?_
    rw [polling]
    rfl

end PooledProcess

end Imputio
