import Imputio.Executor.Teardown
import Imputio.Runtime.Coherence

/-! Whatever the runtimes of a process do by themselves can happen with real pools behind them. -/

namespace Imputio

open Transition

namespace Pool

variable {n : Nat} {V : Type*} {features : Features} {s t : Pool n V} {act : PoolAction n V}

/-- Dropping channels leaves those that stay, and none gets another capacity. -/
theorem dropChannels_capacity (s : Pool n V) (gone : Fin n → Bool) (worker : Fin n) :
    ((s.dropChannels gone).executors worker).rx.capacity =
      (s.executors worker).rx.capacity := by
  -- A channel that is dropped is only disconnected.
  unfold dropChannels
  simp only
  split <;> rfl

/-- Neither does leaving a loop. -/
theorem leave_capacity (s : Pool n V) (leaving worker : Fin n) :
    ((s.leave leaving).executors worker).rx.capacity = (s.executors worker).rx.capacity := by
  -- The channel of the executor that leaves is disconnected, which keeps its capacity.
  unfold leave
  rw [dropChannels_capacity]
  by_cases here : worker = leaving
  · subst here
    simp [setExecutor, Executor.leave, Channel.disconnect]
  · simp [setExecutor, here]

/-- The channel of an executor keeps its capacity. -/
theorem capacity_of_step (step : Steps (next features) s act t) (worker : Fin n) :
    (t.executors worker).rx.capacity = (s.executors worker).rx.capacity := by
  -- An executor that is replaced keeps its channel, but for the messages.
  have replaced : ∀ {u : Pool n V} {other exec},
      u.executors = Function.update s.executors other exec →
      exec.rx.capacity = (s.executors other).rx.capacity →
      (u.executors worker).rx.capacity = (s.executors worker).rx.capacity := by
    intro u other exec executors same
    rw [executors, Function.update_apply]
    split
    · rename_i here
      rw [same, here]
    · rfl
  cases step_next step with
  | spawned => exact replaced rfl rfl
  | pollSent => exact replaced rfl rfl
  | opSent => exact replaced rfl rfl
  | idled => exact replaced rfl rfl
  | enqueued => exact replaced rfl rfl
  | unpolled => exact replaced rfl rfl
  | @polled receiver coin outcome task level later rest exec receiving front picked popped ended =>
    have same : exec.rx.capacity = (s.executors receiver).rx.capacity := by
      rcases ended with ⟨-, rfl⟩ | ⟨-, rfl⟩ <;> rfl
    cases outcome with
    | ready value => exact replaced rfl same
    | pending => exact replaced rfl same
    | panicked => exact (leave_capacity _ receiver worker).trans (replaced rfl same)
  | served => exact replaced (PollingPool.answer_executors _ _ _) rfl
  | left => exact leave_capacity _ _ worker
  | stayed => exact replaced rfl rfl
  | released => exact dropChannels_capacity _ _ worker
  | pollerTook => exact replaced rfl rfl
  | pollerLeft => exact replaced rfl rfl
  | _ => rfl

/-- Whoever sends to an executor does so at once. -/
def SendsAtOnce (s : Pool n V) : Prop := ∀ worker, (s.executors worker).rx.NeverWaits

/-- Every step keeps it so. -/
theorem SendsAtOnce.step (sends : s.SendsAtOnce) (step : Steps (next features) s act t) :
    t.SendsAtOnce := by
  -- A channel that is connected now was so before, and capacities never change.
  intro worker connected
  rw [capacity_of_step step]
  exact sends worker (((step_effect step).loops worker).2.mp connected).1

/-- The channel of an executor is unbounded, and the one of a placeholder has no receiver. -/
theorem Fresh.sendsAtOnce (fresh : s.Fresh features) : s.SendsAtOnce := by
  -- The two kinds of fresh pools are looked at one after the other.
  intro worker connected
  rcases fresh with rfl | rfl
  · rfl
  · simp [withExecutors, Executor.absent, Channel.disconnect] at connected

/-- A poll of a pool that has executors goes through, with nobody in between. -/
theorem poll_goes_through (features : Features) (range : s.DispatchesInRange)
    (held : s.held = true) (sends : s.SendsAtOnce) :
    ∃ index loaded stored sent, Steps (next features) s (.call .poll) loaded ∧
      loaded.calls s.nextCall = .loaded .poll index ∧
      Steps (next features) loaded (.store s.nextCall) stored ∧
      stored.calls s.nextCall = .stored .poll index ∧
      Steps (next features) stored (.send s.nextCall) sent ∧
      sent.calls s.nextCall = .returned (.ok ()) := by
  -- The three steps are taken one after the other, each state written out for the next.
  have positive : 0 < n := Nat.pos_of_ne_zero range.modulus
  have inRange : (s.index + 1) % n < n := Nat.mod_lt _ positive
  have index : nextIndex s.index n = some ((s.index + 1) % n) :=
    if_pos ⟨range.addition, positive⟩
  let loaded : Pool n V :=
    { s.setCall s.nextCall (.loaded .poll ((s.index + 1) % n)) with nextCall := s.nextCall + 1 }
  let stored : Pool n V := { loaded.setCall s.nextCall (.stored .poll ((s.index + 1) % n)) with
    index := (s.index + 1) % n }
  have loads : loaded.calls s.nextCall = .loaded .poll ((s.index + 1) % n) :=
    Function.update_self ..
  have stores : stored.calls s.nextCall = .stored .poll ((s.index + 1) % n) :=
    Function.update_self ..
  -- Whether the executor listens or not, the message is not waited for.
  obtain ⟨sent, sending, returned⟩ : ∃ sent,
      stored.sendTo s.nextCall .poll ⟨(s.index + 1) % n, inRange⟩ = some sent ∧
        sent.calls s.nextCall = .returned (.ok ()) := by
    have never := sends ⟨(s.index + 1) % n, inRange⟩
    have same : (stored.executors ⟨(s.index + 1) % n, inRange⟩).rx =
      (s.executors ⟨(s.index + 1) % n, inRange⟩).rx := rfl
    unfold sendTo
    simp only [same, never.send_eq]
    split
    · rename_i outcome _ sending
      exact ⟨_, rfl, Function.update_self ..⟩
    · rename_i full
      split at full <;> simp at full
    · exact ⟨_, rfl, Function.update_self ..⟩
  refine ⟨(s.index + 1) % n, loaded, stored, sent, ?_, loads, ?_, stores, ?_, returned⟩
  · simp only [Steps, next, held, if_true, index]
    rfl
  · simp only [Steps, next, loads]
    rfl
  · simp only [Steps, next, stores, dif_pos inRange]
    exact sending

end Pool

/-- Every call that was made on the pool has panicked. -/
def Pool.Unanswered {n : Nat} {V : Type*} (s : Pool n V) : Prop :=
  ∀ call, s.calls call = .unused ∨ s.calls call = .panicked

/-- Without executors every call panics when it is made, and none gets further. -/
theorem Pool.Unanswered.step {V : Type*} {features : Features} {s t : Pool 0 V}
    {act : PoolAction 0 V} (unanswered : s.Unanswered)
    (step : Steps (Pool.next features) s act t) : t.Unanswered := by
  -- A call that panics at its index is over, so that only a new one could be any different.
  intro call
  rcases calls_cases step call with ⟨-, same | active⟩ | ⟨-, more, rfl | same⟩
  · exact same ▸ unanswered call
  · rcases unanswered call with unused | panics
    · simp [unused, CallProgress.active] at active
    · simp [panics, CallProgress.active] at active
  · cases step_next step with
    | called => exact .inr (by simp [setCall, asked, nextIndex])
    -- There is no executor that could be sent anything, or make a step.
    | spawned _ inRange => exact absurd inRange (Nat.not_lt_zero _)
    | pollSent _ inRange => exact absurd inRange (Nat.not_lt_zero _)
    | opSent _ inRange => exact absurd inRange (Nat.not_lt_zero _)
    | @idled worker => exact worker.elim0
    | @enqueued worker => exact worker.elim0
    | @unpolled worker => exact worker.elim0
    | @polled worker => exact worker.elim0
    | @served worker => exact worker.elim0
    | @left worker => exact worker.elim0
    | @stayed worker => exact worker.elim0
    | @pollerTook worker => exact worker.elim0
    | @pollerLeft worker => exact worker.elim0
    | _ => simp [setCall, create, refuse, dropChannels] at more
  · exact same ▸ unanswered call

section Reached

variable {V : Type*} {features : Features} {pool : SizedPool V}

/-- Nobody waits to send to an executor of a pool that was ever made. -/
theorem SizedPool.Reached.sendsAtOnce (reached : pool.Reached features) :
    pool.pool.SendsAtOnce := by
  obtain ⟨start, acts, fresh, run⟩ := reached
  exact run.invariant fresh.sendsAtOnce fun _ _ _ sends step => sends.step step

/-- A pool that has executors, and not too many, dispatches in range. -/
theorem SizedPool.Reached.inRange (reached : pool.Reached features) (fits : pool.execs ≤ isizeMax)
    (positive : 0 < pool.execs) : pool.pool.DispatchesInRange := by
  -- A fresh pool dispatches in range, and every step keeps it so.
  obtain ⟨start, acts, fresh, run⟩ := reached
  have init : start.DispatchesInRange := by
    rcases fresh with rfl | rfl
    all_goals exact ⟨positive.ne', positive, (by decide : 0 < usizeMax), fun _ => trivial⟩
  exact run.invariant init fun _ _ _ range step => range.step fits step

/-- A call on a pool that has executors does not panic. -/
theorem SizedPool.Reached.not_panicked (reached : pool.Reached features)
    (fits : pool.execs ≤ isizeMax) (positive : 0 < pool.execs) (call : CallId) :
    pool.pool.calls call ≠ .panicked := by
  -- A call that has panicked is not in range.
  intro panics
  have inRange := (reached.inRange fits positive).calls call
  rw [panics] at inRange
  exact inRange

/-- A call on a pool without executors does not return. -/
theorem SizedPool.Reached.not_returned (reached : pool.Reached features) (empty : pool.execs = 0)
    (call : CallId) (result : ExecResult Unit) : pool.pool.calls call ≠ .returned result := by
  -- The induction over the run of the pool carries that no call was ever answered.
  obtain ⟨n, pool⟩ := pool
  obtain rfl : n = 0 := empty
  obtain ⟨start, acts, fresh, run⟩ := reached
  have init : start.Unanswered := by
    rcases fresh with rfl | rfl <;> exact fun _ => .inl rfl
  have unanswered : Pool.Unanswered pool :=
    run.invariant init fun _ _ _ before step => before.step step
  rcases unanswered call with unused | panics
  · simp [unused]
  · simp [panics]

end Reached

/-- A task panics in the step. -/
def PooledAction.Panics {V : Type*} : PooledAction V → Prop
  | .work _ _ (.recv _ .panicked) => True
  | _ => False

/-- A task panics in the step, as the runtimes see it. -/
def ProcessAction.Panics : ProcessAction → Prop
  | .crashExecutor _ _ => True
  | _ => False

namespace PooledProcess

variable {V : Type*} {features : Features} {s t : PooledProcess V} {act : PooledAction V}
  {process process' : Process} {r : RuntimeId}

/-- A step in which no task panics. -/
def gentle (features : Features) : PooledProcess V → PooledAction V → PooledProcess V → Prop :=
  Guarded (fun _ act => ¬ act.Panics) (Steps (next features))

/-- The runtimes with the pools behind them, while no driver is in the middle of a call. -/
structure Lifts (features : Features) (process : Process) (s : PooledProcess V) : Prop where
  coherent : s.Coherent features
  same : s.process = process
  idle : ∀ r exec call, s.callers (.driver r) ≠ .calling exec call

/-- What a step of a runtime does to the pools can be done, but for a poll of its driver. -/
theorem Coherent.prepared (coherent : s.Coherent features) {rt : Runtime} {step : RuntimeStep}
    (there : s.process.runtimes r = some rt)
    (apart : ∀ notice, step = .stepDriver notice → ∀ exec, rt.driver ≠ .polling exec) :
    ∃ mid, s.prepare features r rt step = some mid := by
  -- Whoever sets a flag has the coordinator, which is held for that reason.
  have flag : ∀ {exec}, rt.Flags exec → ∃ mid, s.onPool features exec .shutdown = some mid := by
    intro exec flags
    have held := coherent.held_true fun retired => coherent.not_flags retired there flags
    exact ⟨_, onPool_eq_some.mpr ⟨_, if_pos held, rfl⟩⟩
  unfold prepare
  repeat' split
  all_goals first
    | exact ⟨_, rfl⟩
    | exact flag (.inr ⟨_, by assumption⟩)
    | exact flag (.inl (by assumption))
    | exact absurd (by assumption) (apart _ rfl _)

/-- A step of the runtimes that is no poll of a driver is one of the process as well. -/
theorem Lifts.stepped {step : RuntimeStep} (lifts : s.Lifts features process)
    (apart : ∀ notice, step = .stepDriver notice → ∀ rt exec,
      process.runtimes r = some rt → rt.driver ≠ .polling exec)
    (taken : Steps Process.next process (.step r step) process') :
    ∃ t, gentle features s (.process (.step r step)) t ∧ t.Lifts features process' := by
  -- What a driver has loaded is put in place first, and then the runtimes take their step.
  obtain ⟨coherent, rfl, idle⟩ := lifts
  obtain ⟨rt, there, -⟩ := Option.bind_eq_some_iff.mp taken
  obtain ⟨mid, prepared⟩ := coherent.prepared there fun notice driver exec =>
    apart notice driver rt exec there
  have advanced : mid.advance (.step r step) = some { mid with process := process' } :=
    advance_eq_some.mpr ⟨process', (prepare_process prepared).symm ▸ taken, rfl⟩
  have step : gentle features s (.process (.step r step)) { mid with process := process' } := by
    refine ⟨id, ?_⟩
    simp only [Steps, next, stepProcess, there, Option.bind_some, prepared, advanced]
  refine ⟨_, step, coherent.step step.2, rfl, fun other exec call calls => ?_⟩
  -- A driver may have loaded what it is going to call.
  generalize ends : ({ mid with process := process' } : PooledProcess V) = t at step calls
  cases step_effect step.2 with
  | built _ building => rcases building with ⟨_, other⟩ | ⟨_, other⟩ <;> simp at other
  | stepped => exact idle other exec call calls
  | driverLoaded =>
    rw [setCaller_apply] at calls
    split at calls
    · simp at calls
    · exact idle other exec call calls

/-- Building a runtime is a step of the process as well. -/
theorem Lifts.built {act : ProcessAction} (lifts : s.Lifts features process) (fits : act.Fits)
    (building : (∃ execs capacity, act = .build execs capacity) ∨
      ∃ execs other, act = .buildSupplied execs other)
    (taken : Steps Process.next process act process') :
    ∃ t, gentle features s (.process act) t ∧ t.Lifts features process' := by
  -- No pool and no caller has to do with a new runtime.
  obtain ⟨coherent, rfl, idle⟩ := lifts
  have advanced : s.advance act = some { s with process := process' } :=
    advance_eq_some.mpr ⟨process', taken, rfl⟩
  have step : gentle features s (.process act) { s with process := process' } := by
    refine ⟨id, ?_⟩
    rcases building with ⟨execs, capacity, rfl⟩ | ⟨execs, other, rfl⟩
    all_goals exact (if_pos fits).trans advanced
  exact ⟨_, step, coherent.step step.2, rfl, idle⟩

/-- A step of an executor is one of the process as well; the runtimes see nothing if it stays. -/
theorem worked_of_step {exec : CoordinatorId} {worker n : Nat} {pool pool' : Pool n V}
    (there : s.pools exec = ⟨n, pool⟩) (inRange : worker < n) (step : WorkerStep V)
    (taken : Steps (Pool.next features) pool (step.action ⟨worker, inRange⟩) pool')
    (stays : step.ends features pool exec ⟨worker, inRange⟩ = none) :
    Steps (next features) s (.work exec worker step) (s.setPool exec ⟨n, pool'⟩) := by
  -- The number of the executor is in range, so that the step is one of its pool.
  simp only [Steps, next, onPool]
  rw [there]
  simp only [dif_pos inRange, show pool.next features _ = some pool' from taken, Option.map_some,
    Option.bind_some, stays]

/-- An executor that reads the flag leaves, and the runtimes see it. -/
theorem left_of_step {exec : CoordinatorId} {worker n : Nat} {pool pool' : Pool n V}
    (there : s.pools exec = ⟨n, pool⟩) (inRange : worker < n)
    (taken : Steps (Pool.next features) pool (.check ⟨worker, inRange⟩) pool')
    (flag : pool.shutdown = true)
    (exits : Steps Process.next s.process (.exitExecutor exec worker) process') :
    Steps (next features) s (.work exec worker .check)
      { s.setPool exec ⟨n, pool'⟩ with process := process' } := by
  -- The pool checks the flag first, and what it shows of that is a step of the runtimes.
  have advanced : (s.setPool exec ⟨n, pool'⟩).advance (.exitExecutor exec worker) =
      some { s.setPool exec ⟨n, pool'⟩ with process := process' } :=
    advance_eq_some.mpr ⟨process', exits, rfl⟩
  simp only [Steps, next, onPool]
  rw [there]
  simp only [dif_pos inRange, WorkerStep.action,
    show pool.next features (.check ⟨worker, inRange⟩) = some pool' from taken, Option.map_some,
    Option.bind_some, WorkerStep.ends, flag, if_true, advanced]

/-- An executor that reads the flag as set leaves its loop. -/
theorem Lifts.leaves {exec : CoordinatorId} {worker n : Nat} {pool : Pool n V}
    (lifts : s.Lifts features process) (there : s.pools exec = ⟨n, pool⟩) (inRange : worker < n)
    (stands : (pool.executors ⟨worker, inRange⟩).state = .checking) (flag : pool.shutdown = true)
    (taken : Steps Process.next process (.exitExecutor exec worker) process') :
    ∃ t, gentle features s (.work exec worker .check) t ∧ t.Lifts features process' := by
  -- Between two turns an executor stands where it checks the flag.
  obtain ⟨coherent, rfl, idle⟩ := lifts
  have leaving : Steps (Pool.next features) pool (.check ⟨worker, inRange⟩)
      (pool.leave ⟨worker, inRange⟩) := by
    simp [Steps, Pool.next, stands, flag]
  have step : gentle features s (.work exec worker .check) _ :=
    ⟨id, left_of_step there inRange leaving flag taken⟩
  exact ⟨_, step, coherent.step step.2, rfl, idle⟩

/-- An executor that is still in its loop goes on to read the flag, and leaves. -/
theorem Lifts.exited {exec : CoordinatorId} {worker : Nat} (lifts : s.Lifts features process)
    (taken : Steps Process.next process (.exitExecutor exec worker) process') :
    ∃ acts t, Run (gentle features) s acts t ∧ t.Lifts features process' := by
  -- An executor that receives has to come to its check first, with one more turn.
  obtain ⟨⟨flag, inRange, unseen, uncrashed⟩, -⟩ := enabled_iff.mp taken
  have matched := lifts.coherent.matched exec
  rw [lifts.same] at matched
  have below : worker < (s.pools exec).execs := matched.handles ▸ inRange
  have flagged : (s.pools exec).pool.shutdown = true := matched.shutdown ▸ flag
  cases stands : ((s.pools exec).pool.executors ⟨worker, below⟩).state with
  | exited =>
    -- Whoever has left was seen.
    rcases (matched.ended worker below).mpr stands with out | out
    · cases unseen.symm.trans out
    · cases uncrashed.symm.trans out
  | checking =>
    obtain ⟨t, step, lifts'⟩ := lifts.leaves rfl below stands flagged taken
    exact ⟨_, t, .single step, lifts'⟩
  | receiving =>
    obtain ⟨pool, received⟩ : ∃ pool, Steps (Pool.next features) (s.pools exec).pool
        (.recv ⟨worker, below⟩ false .pending) pool := Pool.recv_enabled stands false .pending
    have step : gentle features s (.work exec worker (.recv false .pending)) _ :=
      ⟨id, worked_of_step rfl below (.recv false .pending) received rfl⟩
    have lifts' : (s.setPool exec ⟨_, pool⟩).Lifts features process :=
      ⟨lifts.coherent.step step.2, lifts.same, lifts.idle⟩
    -- The task that it may have polled is pending, so that it is still in its loop.
    have checking : (pool.executors ⟨worker, below⟩).state = .checking := by
      cases Pool.turn_of_step ⟨worker, below⟩ received with
      | other apart => simp [PoolAction.worker] at apart
      | received _ _ after =>
        refine after.resolve_right fun exited => ?_
        rcases ((Pool.step_effect received).loops _).1.mp exited with before | leaves
        · simp [stands] at before
        · simp [Pool.Leaves] at leaves
      | checked _ before => simp [stands] at before
    have flag' : pool.shutdown = true := (Pool.flag_of_step received).mpr (.inl flagged)
    obtain ⟨t, leaving, lifts''⟩ :=
      lifts'.leaves (setPool_self _ _ _) below checking flag' taken
    exact ⟨_, t, (Run.single step).snoc leaving, lifts''⟩

/-- A thread that has loaded the slot calls the coordinator that it has found. -/
theorem called_of_step {caller : SlotCaller} {request : CoordinatorCall} {exec : CoordinatorId}
    {n : Nat} {pool pool' : Pool n V} (loads : s.callers caller = .loaded request exec)
    (there : s.pools exec = ⟨n, pool⟩)
    (taken : Steps (Pool.next features) pool (.call request) pool') :
    Steps (next features) s (.move caller)
      ((s.setPool exec ⟨n, pool'⟩).setCaller caller (.calling exec pool.nextCall)) := by
  -- What the thread has loaded says which pool is called.
  simp only [Steps, next, move, loads, onPool]
  rw [there]
  simp only [show pool.next features (.call request) = some pool' from taken, Option.map_some]

/-- A call that was made goes on where it is. -/
theorem continued_of_step {caller : SlotCaller} {request : CoordinatorCall}
    {exec : CoordinatorId} {call : CallId} {n index : Nat} {act : PoolAction n V}
    {pool pool' : Pool n V} (calls : s.callers caller = .calling exec call)
    (there : s.pools exec = ⟨n, pool⟩)
    (own : pool.calls call = .loaded request index ∧ act = .store call ∨
      pool.calls call = .stored request index ∧ act = .send call)
    (taken : Steps (Pool.next features) pool act pool') :
    Steps (next features) s (.move caller) (s.setPool exec ⟨n, pool'⟩) := by
  -- Where the call is says which step of the pool is its next one.
  simp only [Steps, next, move, calls, onPool]
  rw [there]
  rcases own with ⟨progress, rfl⟩ | ⟨progress, rfl⟩
  · simp only [progress, show pool.next features (.store call) = some pool' from taken,
      Option.map_some]
  · simp only [progress, show pool.next features (.send call) = some pool' from taken,
      Option.map_some]

/-- A driver whose call is done goes on with its loop, or panics with its call. -/
theorem Coherent.ends {exec : CoordinatorId} {call : CallId} {n : Nat} {pool : Pool n V}
    (coherent : s.Coherent features) (calls : s.callers (.driver r) = .calling exec call)
    (there : s.pools exec = ⟨n, pool⟩)
    (done : (∃ result, pool.calls call = .returned result) ∨ pool.calls call = .panicked)
    (others : ∀ other ≠ r, ∀ exec call, s.callers (.driver other) ≠ .calling exec call)
    (taken : Steps Process.next s.process (.step r (.stepDriver false)) process') :
    ∃ t, gentle features s (.move (.driver r)) t ∧ t.Lifts features process' := by
  -- The driver's own step is what the runtimes see, and the other drivers are idle still.
  have advanced : s.finish (.driver r) =
      some { s.setCaller (.driver r) .idle with process := process' } :=
    advance_eq_some.mpr ⟨process', taken, rfl⟩
  have step : gentle features s (.move (.driver r))
      { s.setCaller (.driver r) .idle with process := process' } := by
    refine ⟨id, ?_⟩
    have same : (s.pools exec).pool.calls = pool.calls := by rw [there]
    simp only [Steps, next, move, calls, same]
    rcases done with ⟨result, done⟩ | done
    · simp only [done, advanced]
    · simp only [done, advanced]
  refine ⟨_, step, coherent.step step.2, rfl, fun other exec call calls => ?_⟩
  change (s.setCaller _ _).callers _ = _ at calls
  rw [setCaller_apply] at calls
  split at calls
  · simp at calls
  · rename_i apart
    exact others other (fun same => apart (same ▸ rfl)) exec call calls

/-- A driver that is about to poll has loaded the coordinator, and has not called it yet. -/
theorem Lifts.has_loaded {rt : Runtime} {exec : CoordinatorId} (lifts : s.Lifts features process)
    (there : process.runtimes r = some rt) (polling : rt.driver = .polling exec) :
    s.callers (.driver r) = .loaded .poll exec := by
  -- What a driver polls is what it holds, and between steps no driver is within a call.
  obtain ⟨coherent, rfl, idle⟩ := lifts
  have holds : (s.callers (.driver r)).holds = some exec :=
    (coherent.drivers.holds r exec).mpr (by rw [there, Option.map_some, polling])
  cases progress : s.callers (.driver r) with
  | idle => simp [progress, SlotCall.holds] at holds
  | loaded request other =>
    obtain rfl : other = exec := by simpa [progress, SlotCall.holds] using holds
    rw [coherent.drivers.polls r request other progress]
  | calling other call => exact absurd progress (idle r other call)

/-- A driver that polls makes its call, from its start to its end. -/
theorem Lifts.polled {notice : Bool} {rt : Runtime} {exec : CoordinatorId}
    (lifts : s.Lifts features process) (there : process.runtimes r = some rt)
    (polling : rt.driver = .polling exec)
    (taken : Steps Process.next process (.step r (.stepDriver notice)) process') :
    ∃ acts t, Run (gentle features) s acts t ∧ t.Lifts features process' := by
  -- The runtimes poll in one step, for which the pool needs the whole call of the driver.
  have loads := lifts.has_loaded there polling
  obtain ⟨coherent, rfl, idle⟩ := lifts
  -- A poll does not look for a notice.
  have taken : Steps Process.next s.process (.step r (.stepDriver false)) process' := by
    simpa [Steps, Process.next, there, Runtime.next, Runtime.stepDriver, polling] using taken
  have held := coherent.held_true fun retired =>
    coherent.not_holds retired (.driver r) (by rw [loads]; rfl)
  have reached := coherent.reached exec
  have fits := coherent.fits exec
  obtain ⟨n, pool, pooled⟩ : ∃ n pool, s.pools exec = ⟨n, pool⟩ := ⟨_, _, rfl⟩
  rw [pooled] at held reached fits
  change pool.held = true at held
  -- Whoever else polls is not moved.
  have others : ∀ {now : SizedPool V} {call : CallId}, ∀ other ≠ r, ∀ exec' call',
      ((s.setPool exec now).setCaller (.driver r) (.calling exec call)).callers (.driver other) ≠
        .calling exec' call' := by
    intro now call other apart exec' call'
    rw [setCaller_apply, if_neg (by simpa using apart)]
    exact idle other exec' call'
  have calling : ∀ {now : SizedPool V} {call : CallId},
      ((s.setPool exec now).setCaller (.driver r) (.calling exec call)).callers (.driver r) =
        .calling exec call := by
    intro now call
    rw [setCaller_apply, if_pos rfl]
  by_cases empty : n = 0
  · subst empty
    -- There is no executor to poll, so that the call panics, and its thread with it.
    have asked : Steps (Pool.next features) pool (.call .poll)
        { pool.setCall pool.nextCall .panicked with nextCall := pool.nextCall + 1 } := by
      simp [Steps, Pool.next, held, nextIndex]
    have first : gentle features s (.move (.driver r)) _ :=
      ⟨id, called_of_step loads pooled asked⟩
    obtain ⟨t, last, lifts⟩ := (coherent.step first.2).ends calling (setPool_self _ _ _)
      (.inr (Function.update_self ..)) others taken
    exact ⟨_, t, (Run.single first).snoc last, lifts⟩
  · -- The call computes an index, stores it, sends its message and returns, with nobody in between.
    obtain ⟨index, loaded, stored, sent, asked, progress, stores, progress', sends, returned⟩ :=
      Pool.poll_goes_through features (reached.inRange fits (Nat.pos_of_ne_zero empty)) held
        reached.sendsAtOnce
    let mid := (s.setPool exec ⟨n, loaded⟩).setCaller (.driver r) (.calling exec pool.nextCall)
    have first : gentle features s (.move (.driver r)) mid :=
      ⟨id, called_of_step loads pooled asked⟩
    have second : gentle features mid (.move (.driver r)) (mid.setPool exec ⟨n, stored⟩) :=
      ⟨id, continued_of_step calling (setPool_self _ _ _) (.inl ⟨progress, rfl⟩) stores⟩
    have third : gentle features (mid.setPool exec ⟨n, stored⟩) (.move (.driver r))
        ((mid.setPool exec ⟨n, stored⟩).setPool exec ⟨n, sent⟩) :=
      ⟨id, continued_of_step calling (setPool_self _ _ _) (.inr ⟨progress', rfl⟩) sends⟩
    have coherent' := ((coherent.step first.2).step second.2).step third.2
    obtain ⟨t, last, lifts⟩ :=
      coherent'.ends calling (setPool_self _ _ _) (.inl ⟨_, returned⟩) others taken
    exact ⟨_, t, (((Run.single first).snoc second).snoc third).snoc last, lifts⟩

/-- Every step of the runtimes can happen with the pools behind them, but for a panic of a task. -/
theorem Lifts.step {act : ProcessAction} (lifts : s.Lifts features process) (fits : act.Fits)
    (unpanicked : ¬ act.Panics) (taken : Steps Process.next process act process') :
    ∃ acts t, Run (gentle features) s acts t ∧ t.Lifts features process' := by
  -- One case for each kind of step, of which two take more than one step of the pools.
  cases act with
  | build execs capacity =>
    obtain ⟨t, step, lifts'⟩ := lifts.built fits (.inl ⟨execs, capacity, rfl⟩) taken
    exact ⟨_, t, .single step, lifts'⟩
  | buildSupplied execs other =>
    obtain ⟨t, step, lifts'⟩ := lifts.built fits (.inr ⟨execs, other, rfl⟩) taken
    exact ⟨_, t, .single step, lifts'⟩
  | exitExecutor exec worker => exact lifts.exited taken
  | crashExecutor exec worker => exact absurd trivial unpanicked
  | step r step =>
    -- Only a poll of a driver is more than one step.
    by_cases polls : (∃ notice, step = .stepDriver notice) ∧ ∃ rt exec,
      process.runtimes r = some rt ∧ rt.driver = .polling exec
    · obtain ⟨⟨notice, rfl⟩, rt, exec, there, polling⟩ := polls
      exact lifts.polled there polling taken
    · obtain ⟨t, step, lifts'⟩ := lifts.stepped
        (fun notice driver rt exec there polling =>
          polls ⟨⟨notice, driver⟩, rt, exec, there, polling⟩) taken
      exact ⟨_, t, .single step, lifts'⟩

/-- Before anything happens all is in order, and no driver is there. -/
theorem new_lifts : (new : PooledProcess V).Lifts features .new where
  coherent := new_coherent
  same := rfl
  idle := fun _ _ _ => by simp [new]

end PooledProcess

/--
The runtimes do with real pools behind them what they do by themselves, and nothing else.

Whatever a process with its pools has done, its runtimes could have done it alone. They see of every
coordinator what its pool is like: its handles, its flag, and which executors have left their loops,
with a task that has panicked or without. A call on it panics exactly if there are no handles, and
it is dropped only when nobody is going to use it. The other way round, whatever the runtimes do
alone can happen with the pools as long as no task panics, in a run in which none does.
-/
theorem pools_behind_runtimes (features : Features) (V : Type*) :
    (∀ acts (last : PooledProcess V), Run (Steps (PooledProcess.next features)) .new acts last →
      (∃ acts', Run (Guarded (fun _ => ProcessAction.Fits) (Steps Process.next)) .new acts'
        last.process) ∧
      ∀ exec, (last.process.shared.coordinators exec).Matches (last.pools exec) ∧
        (last.pools exec).Reached features ∧
        (∀ call, ((last.pools exec).pool.calls call = .panicked →
            (last.process.shared.coordinators exec).handles = 0) ∧
          ((last.process.shared.coordinators exec).handles = 0 →
            ∀ result, (last.pools exec).pool.calls call ≠ .returned result)) ∧
        ((last.pools exec).pool.held = false → last.Retired exec)) ∧
    ∀ acts process,
      Run (Guarded (fun _ act => act.Fits ∧ ¬ act.Panics) (Steps Process.next)) .new acts
          process →
        ∃ (acts' : List (PooledAction V)) (last : PooledProcess V),
          Run (PooledProcess.gentle features) .new acts' last ∧ last.process = process := by
  -- One direction keeps an invariant of the joined system, the other lifts step by step.
  refine ⟨fun acts last run => ?_, fun acts process run => ?_⟩
  · have coherent : last.Coherent features :=
      run.invariant PooledProcess.new_coherent fun _ _ _ before step => before.step step
    refine ⟨coherent.process, fun exec => ?_⟩
    have matched := coherent.matched exec
    have reached := coherent.reached exec
    refine ⟨matched, reached, fun call => ⟨fun panics => ?_, fun empty => ?_⟩, coherent.held exec⟩
    · rw [matched.handles]
      by_contra some
      exact reached.not_panicked (coherent.fits exec) (Nat.pos_of_ne_zero some) call panics
    · exact reached.not_returned (matched.handles ▸ empty) call
  · have sim : ∀ (process : Process) act process' (s : PooledProcess V), s.Lifts features process →
        Guarded (fun _ act => act.Fits ∧ ¬ act.Panics) (Steps Process.next) process act process' →
        ∃ acts t, Run (PooledProcess.gentle features) s acts t ∧ t.Lifts features process' :=
      fun _ _ _ _ lifts step => lifts.step step.1.1 step.1.2 step.2
    obtain ⟨acts', last, lifted, lifts⟩ := run.simulate_runs sim PooledProcess.new_lifts
    exact ⟨acts', last, lifted, lifts.same⟩

end Imputio
