import Imputio.Runtime.Completion
import Imputio.Runtime.Config

/-! A whole process: runtimes, users who load the slot, and the pools behind its coordinators. -/

namespace Imputio

open Transition

/-- A coordinator with its executors, as many as it happens to have. -/
structure SizedPool (V : Type*) where
  execs : Nat
  pool : Pool execs V

/-- A thread that calls the coordinator in the slot: one of a user, or the driver of a runtime. -/
inductive SlotCaller where
  | user (id : Nat)
  | driver (r : RuntimeId)
  deriving DecidableEq, Repr

/-- What users can ask for: they cannot poll, nor submit an operation without the feature. -/
def CoordinatorCall.offered (features : Features) : CoordinatorCall → Bool
  | .spawn _ => true
  | .poll => false
  | .submitIoOp _ => features.io

/-- Where such a thread is: it loads the slot before it calls the coordinator that it finds. -/
inductive SlotCall where
  | idle
  | loaded (request : CoordinatorCall) (exec : CoordinatorId)
  | calling (exec : CoordinatorId) (call : CallId)
  deriving DecidableEq, Repr

/-- The coordinator that the thread has loaded. -/
def SlotCall.holds : SlotCall → Option CoordinatorId
  | .idle => none
  | .loaded _ exec => some exec
  | .calling exec _ => some exec

/-- The list of thread configurations that a builder is given is a `Vec`. -/
def ProcessAction.Fits : ProcessAction → Prop
  | .build execs _ => execs ≤ isizeMax
  | .buildSupplied execs _ => execs ≤ isizeMax
  | _ => True

/-- The runtimes of a process, the pool of every coordinator, and the calls on loaded ones. -/
structure PooledProcess (V : Type*) where
  process : Process
  pools : CoordinatorId → SizedPool V
  callers : SlotCaller → SlotCall
  nextUser : Nat

/-- A step of an executor or of its poller thread. -/
inductive WorkerStep (V : Type*) where
  | recv (coin : Bool) (outcome : FutureStep V)
  | check
  | pollerRecv
  | pollerExit

/-- The step of one executor of a pool. -/
def WorkerStep.action {n : Nat} {V : Type*} (worker : Fin n) : WorkerStep V → PoolAction n V
  | .recv coin outcome => .recv worker coin outcome
  | .check => .check worker
  | .pollerRecv => .pollerRecv worker
  | .pollerExit => .pollerExit worker

/-- An executor that ends in a step is gone for the runtimes as well. -/
def WorkerStep.ends {n : Nat} {V : Type*} (features : Features) (pool : Pool n V)
    (exec : CoordinatorId) (worker : Fin n) : WorkerStep V → Option ProcessAction
  | .check => if pool.shutdown then some (.exitExecutor exec worker) else none
  | .recv coin .panicked =>
    if (pool.polledTask features (.recv worker coin .panicked)).isSome then
      some (.crashExecutor exec worker)
    else none
  | _ => none

/-- One atomic step of a process with its pools. -/
inductive PooledAction (V : Type*) where
  -- A step of the runtimes; the call that a driver makes is not one of them.
  | process (act : ProcessAction)
  -- `imputio_spawn` and `add_operation_to_io_poller` load the slot.
  | load (request : CoordinatorCall)
  -- The next step of a call on a coordinator that was loaded.
  | move (caller : SlotCaller)
  | work (exec : CoordinatorId) (worker : Nat) (step : WorkerStep V)
  | dropCoordinator (exec : CoordinatorId)

namespace PooledProcess

variable {V : Type*}

/-- A process that has not built a runtime yet. -/
def new : PooledProcess V where
  process := .new
  pools := fun _ => ⟨1, .new⟩
  callers := fun _ => .idle
  nextUser := 0

/-- Replace the pool of one coordinator. -/
def setPool (s : PooledProcess V) (exec : CoordinatorId) (pool : SizedPool V) : PooledProcess V :=
  { s with pools := Function.update s.pools exec pool }

/-- Change where one of the threads is. -/
def setCaller (s : PooledProcess V) (caller : SlotCaller) (now : SlotCall) : PooledProcess V :=
  { s with callers := Function.update s.callers caller now }

/-- The process after a step of one of its runtimes. -/
def setRuntime (s : PooledProcess V) (r : RuntimeId) (shared : Shared) (now : Runtime) :
    PooledProcess V :=
  { s with process := { s.process with shared := shared }.setRuntime r now }

/-- A step on the pool of one coordinator. -/
def onPool (features : Features) (s : PooledProcess V) (exec : CoordinatorId)
    (act : PoolAction (s.pools exec).execs V) : Option (PooledProcess V) :=
  ((s.pools exec).pool.next features act).map fun pool => s.setPool exec ⟨_, pool⟩

/-- A step of the runtimes. -/
def advance (s : PooledProcess V) (act : ProcessAction) : Option (PooledProcess V) :=
  (s.process.next act).map fun process => { s with process := process }

/-- What a step of a runtime does to the pools, or to the thread that calls one. -/
def prepare (features : Features) (s : PooledProcess V) (r : RuntimeId) (rt : Runtime) :
    RuntimeStep → Option (PooledProcess V)
  | .stepRun =>
    match rt.call with
    | .initializing _ =>
      some (s.setPool s.process.shared.nextCoordinator ⟨rt.execs, .initialized features⟩)
    | _ => some s
  | .failRun execs poller =>
    match rt.call with
    | .initializing _ =>
      -- The executors that were started are there, though nobody can call them.
      if 0 < execs ∨ poller = true then
        some (s.setPool s.process.shared.nextCoordinator ⟨execs, .initialized features⟩)
      else some s
    | _ => some s
  | .stepShutdown call =>
    match rt.shutdowns call with
    | .flagging exec => s.onPool features exec .shutdown
    | .storing => some (s.setPool s.process.shared.nextCoordinator ⟨1, .new⟩)
    | _ => some s
  | .stepDriver _ =>
    match rt.driver with
    | .loading => some (s.setCaller (.driver r) (.loaded .poll s.process.shared.executor))
    -- The call that the driver makes is taken step by step.
    | .polling _ => none
    | .exitFlagging exec => s.onPool features exec .shutdown
    | .exitStoring => some (s.setPool s.process.shared.nextCoordinator ⟨1, .new⟩)
    | _ => some s
  | _ => some s

/-- A step of the runtimes, with what it does to the pools. -/
def stepProcess (features : Features) (s : PooledProcess V) :
    ProcessAction → Option (PooledProcess V)
  -- A configuration is a `Vec`.
  | .build execs capacity =>
    if execs ≤ isizeMax then s.advance (.build execs capacity) else none
  | .buildSupplied execs other =>
    if execs ≤ isizeMax then s.advance (.buildSupplied execs other) else none
  | .step r step =>
    (s.process.runtimes r).bind fun rt =>
      (s.prepare features r rt step).bind (·.advance (.step r step))
  -- Executors leave by their own steps.
  | .exitExecutor _ _ => none
  | .crashExecutor _ _ => none

/-- A call has come to its end; a driver goes on with its loop, or panics with its call. -/
def finish (s : PooledProcess V) : SlotCaller → Option (PooledProcess V)
  | .user id => some (s.setCaller (.user id) .idle)
  | .driver r => (s.setCaller (.driver r) .idle).advance (.step r (.stepDriver false))

/-- The next step of a call on a coordinator that was loaded. -/
def move (features : Features) (s : PooledProcess V) (caller : SlotCaller) :
    Option (PooledProcess V) :=
  match s.callers caller with
  | .idle => none
  | .loaded request exec =>
    (s.onPool features exec (.call request)).map fun t =>
      t.setCaller caller (.calling exec (s.pools exec).pool.nextCall)
  | .calling exec call =>
    match (s.pools exec).pool.calls call with
    | .loaded _ _ => s.onPool features exec (.store call)
    | .stored _ _ => s.onPool features exec (.send call)
    | .answered _ => s.onPool features exec (.receive call)
    | .returned _ => s.finish caller
    | .panicked => s.finish caller
    | _ => none

/-- Nobody is going to use a coordinator that was made, nor can load it: it has left the slot. -/
def Retired (s : PooledProcess V) (exec : CoordinatorId) : Prop :=
  exec < s.process.shared.nextCoordinator ∧ s.process.shared.executor ≠ exec ∧
    (∀ r < s.process.nextRuntime, ∀ rt ∈ s.process.runtimes r, rt.Free exec) ∧
    ∀ id < s.nextUser, (s.callers (.user id)).holds ≠ some exec

instance (s : PooledProcess V) (exec : CoordinatorId) : Decidable (s.Retired exec) :=
  inferInstanceAs (Decidable (_ ∧ _ ∧ _ ∧ _))

/-- What each action does, where it is possible. -/
def next (features : Features) (s : PooledProcess V) :
    PooledAction V → Option (PooledProcess V)
  | .process act => s.stepProcess features act
  | .load request =>
    if request.offered features then
      some { s.setCaller (.user s.nextUser) (.loaded request s.process.shared.executor) with
        nextUser := s.nextUser + 1 }
    else none
  | .move caller => s.move features caller
  | .work exec worker step =>
    if inRange : worker < (s.pools exec).execs then
      (s.onPool features exec (step.action ⟨worker, inRange⟩)).bind fun t =>
        -- Who sees the flag leaves, and so does whose task panics.
        match step.ends features (s.pools exec).pool exec ⟨worker, inRange⟩ with
        | some act => t.advance act
        | none => some t
    else none
  | .dropCoordinator exec =>
    -- A thread may keep it for a while after its last use, and then it is dropped later.
    if s.Retired exec then s.onPool features exec .dropCoordinator else none

/-- How the pools follow a step of the runtimes: one may be made, or its flag may be set. -/
inductive Follows (features : Features) (s : PooledProcess V) (shared : Shared)
    (pools : CoordinatorId → SizedPool V) : Prop
  | same (coordinators : shared.coordinators = s.process.shared.coordinators)
      (names : shared.nextCoordinator = s.process.shared.nextCoordinator)
      (kept : pools = s.pools)
  | made {coordinator : Coordinator} {pool : SizedPool V}
      (fresh : coordinator = .new ∧ pool = ⟨1, .new⟩ ∨
        ∃ r rt execs pollers, s.process.runtimes r = some rt ∧ execs ≤ rt.execs ∧
          coordinator = .started r execs pollers ∧ pool = ⟨execs, .initialized features⟩)
      (coordinators : shared.coordinators = Function.update s.process.shared.coordinators
        s.process.shared.nextCoordinator coordinator)
      (names : shared.nextCoordinator = s.process.shared.nextCoordinator + 1)
      (added : pools = Function.update s.pools s.process.shared.nextCoordinator pool)
  | flagged {r : RuntimeId} {rt : Runtime} {exec : CoordinatorId}
      {pool : Pool (s.pools exec).execs V} (there : s.process.runtimes r = some rt)
      (flags : rt.Flags exec)
      (taken : Steps (Pool.next features) (s.pools exec).pool .shutdown pool)
      (coordinators : shared.coordinators = Function.update s.process.shared.coordinators exec
        { s.process.shared.coordinators exec with shutdown := true })
      (names : shared.nextCoordinator = s.process.shared.nextCoordinator)
      (flag : pools = Function.update s.pools exec ⟨_, pool⟩)

/-- What each kind of step of a process with its pools does. -/
inductive Effect (features : Features) (s : PooledProcess V) :
    PooledAction V → PooledProcess V → Prop
  | built {act : ProcessAction} {process : Process} {execs : Nat} (fits : execs ≤ isizeMax)
      (building : (∃ capacity, act = .build execs capacity) ∨
        ∃ other, act = .buildSupplied execs other)
      (taken : Steps Process.next s.process act process) :
      Effect features s (.process act) { s with process := process }
  | stepped {r : RuntimeId} {step : RuntimeStep} {rt now : Runtime} {shared : Shared}
      {pools : CoordinatorId → SizedPool V} (there : s.process.runtimes r = some rt)
      (taken : Steps Process.next s.process (.step r step)
        (s.setRuntime r shared now).process)
      (effect : rt.Effect r s.process.shared step shared now)
      (follows : s.Follows features shared pools)
      (apart : ∀ notice, step = .stepDriver notice →
        rt.driver ≠ .loading ∧ ∀ exec, rt.driver ≠ .polling exec) :
      Effect features s (.process (.step r step))
        { s.setRuntime r shared now with pools := pools }
  | driverLoaded {r : RuntimeId} {notice : Bool} {rt : Runtime}
      (there : s.process.runtimes r = some rt) (before : rt.driver = .loading)
      (taken : Steps Process.next s.process (.step r (.stepDriver notice))
        (s.setRuntime r s.process.shared
          { rt with driver := .polling s.process.shared.executor }).process) :
      Effect features s (.process (.step r (.stepDriver notice)))
        ((s.setRuntime r s.process.shared
            { rt with driver := .polling s.process.shared.executor }).setCaller (.driver r)
          (.loaded .poll s.process.shared.executor))
  | userLoaded {request : CoordinatorCall} (offered : request.offered features = true) :
      Effect features s (.load request)
        { s.setCaller (.user s.nextUser) (.loaded request s.process.shared.executor) with
          nextUser := s.nextUser + 1 }
  | called {caller : SlotCaller} {request : CoordinatorCall} {exec : CoordinatorId}
      {pool : Pool (s.pools exec).execs V} (loads : s.callers caller = .loaded request exec)
      (taken : Steps (Pool.next features) (s.pools exec).pool (.call request) pool) :
      Effect features s (.move caller)
        ((s.setPool exec ⟨_, pool⟩).setCaller caller (.calling exec (s.pools exec).pool.nextCall))
  | continued {caller : SlotCaller} {exec : CoordinatorId} {call : CallId}
      {act : PoolAction (s.pools exec).execs V} {pool : Pool (s.pools exec).execs V}
      (calls : s.callers caller = .calling exec call)
      (own : act = .store call ∨ act = .send call ∨ act = .receive call)
      (taken : Steps (Pool.next features) (s.pools exec).pool act pool) :
      Effect features s (.move caller) (s.setPool exec ⟨_, pool⟩)
  | userEnded {id : Nat} {exec : CoordinatorId} {call : CallId}
      (calls : s.callers (.user id) = .calling exec call)
      (done : ((s.pools exec).pool.calls call).active = false) :
      Effect features s (.move (.user id)) (s.setCaller (.user id) .idle)
  | driverEnded {r : RuntimeId} {rt now : Runtime} {shared : Shared} {exec : CoordinatorId}
      {call : CallId} (calls : s.callers (.driver r) = .calling exec call)
      (done : ((s.pools exec).pool.calls call).active = false)
      (there : s.process.runtimes r = some rt)
      (taken : Steps Process.next s.process (.step r (.stepDriver false))
        (s.setRuntime r shared now).process)
      (effect : rt.Effect r s.process.shared (.stepDriver false) shared now) :
      Effect features s (.move (.driver r))
        ((s.setRuntime r shared now).setCaller (.driver r) .idle)
  | worked {exec : CoordinatorId} {worker : Nat} {step : WorkerStep V}
      {pool : Pool (s.pools exec).execs V} (inRange : worker < (s.pools exec).execs)
      (taken : Steps (Pool.next features) (s.pools exec).pool (step.action ⟨worker, inRange⟩) pool)
      (stays : step.ends features (s.pools exec).pool exec ⟨worker, inRange⟩ = none) :
      Effect features s (.work exec worker step) (s.setPool exec ⟨_, pool⟩)
  | left {exec : CoordinatorId} {worker : Nat} {step : WorkerStep V} {panics : Bool}
      {act : ProcessAction} {pool : Pool (s.pools exec).execs V}
      (inRange : worker < (s.pools exec).execs)
      (taken : Steps (Pool.next features) (s.pools exec).pool (step.action ⟨worker, inRange⟩) pool)
      (ends : step.ends features (s.pools exec).pool exec ⟨worker, inRange⟩ = some act)
      (how : if panics then act = .crashExecutor exec worker else act = .exitExecutor exec worker)
      (seen : Steps Process.next s.process act (s.process.leaveExecutor exec worker panics)) :
      Effect features s (.work exec worker step)
        { s.setPool exec ⟨_, pool⟩ with process := s.process.leaveExecutor exec worker panics }
  | dropped {exec : CoordinatorId} {pool : Pool (s.pools exec).execs V}
      (retired : s.Retired exec)
      (taken : Steps (Pool.next features) (s.pools exec).pool .dropCoordinator pool) :
      Effect features s (.dropCoordinator exec) (s.setPool exec ⟨_, pool⟩)

variable {features : Features} {s t : PooledProcess V} {act : PooledAction V}

/-- The pool of the coordinator is the new one. -/
theorem setPool_self (s : PooledProcess V) (exec : CoordinatorId) (pool : SizedPool V) :
    (s.setPool exec pool).pools exec = pool :=
  Function.update_self ..

/-- Only the one thread changes. -/
theorem setCaller_apply (s : PooledProcess V) (caller : SlotCaller) (now : SlotCall)
    (other : SlotCaller) :
    (s.setCaller caller now).callers other = if other = caller then now else s.callers other :=
  Function.update_apply ..

/-- Only the one runtime changes. -/
theorem setRuntime_apply (s : PooledProcess V) (r : RuntimeId) (shared : Shared) (now : Runtime)
    (other : RuntimeId) : (s.setRuntime r shared now).process.runtimes other =
      if other = r then some now else s.process.runtimes other :=
  Process.setRuntime_apply ..

/-- A step on the pool of a coordinator replaces that pool. -/
theorem onPool_eq_some {exec : CoordinatorId} {act : PoolAction (s.pools exec).execs V} :
    s.onPool features exec act = some t ↔
      ∃ pool, Steps (Pool.next features) (s.pools exec).pool act pool ∧
        s.setPool exec ⟨_, pool⟩ = t :=
  Option.map_eq_some_iff

/-- A step of the runtimes by itself concerns them only. -/
theorem advance_eq_some {act : ProcessAction} :
    s.advance act = some t ↔
      ∃ process, Steps Process.next s.process act process ∧ { s with process := process } = t :=
  Option.map_eq_some_iff

/-- A step of a runtime is the step that its effect tells of. -/
theorem step_runtime {process : Process} {r : RuntimeId} {step : RuntimeStep} {rt : Runtime}
    (there : s.process.runtimes r = some rt)
    (taken : Steps Process.next s.process (.step r step) process) :
    ∃ shared now, rt.Effect r s.process.shared step shared now ∧
      process = { s.process with shared := shared }.setRuntime r now := by
  -- A step of the process is one of the runtime it names.
  obtain ⟨rt', there', moved⟩ := Option.bind_eq_some_iff.mp taken
  obtain ⟨⟨shared, now⟩, next, rfl⟩ := Option.map_eq_some_iff.mp moved
  obtain rfl := Option.some.inj (there.symm.trans there')
  exact ⟨shared, now, Runtime.next_effect next, rfl⟩

/-- What is done to the pools before a step of a runtime leaves the runtimes as they are. -/
theorem prepare_process {r : RuntimeId} {rt : Runtime} {step : RuntimeStep}
    (prepared : s.prepare features r rt step = some t) : t.process = s.process := by
  -- Before its own step a runtime moves a pool or a caller, and never a runtime.
  have pooled : ∀ {exec act}, s.onPool features exec act = some t → t.process = s.process := by
    intro exec act taken
    obtain ⟨pool, -, rfl⟩ := onPool_eq_some.mp taken
    rfl
  unfold prepare at prepared
  -- Some branches set a pool or a caller, and in two of them a pool takes a step of its own.
  repeat' split at prepared
  all_goals first
    | exact pooled prepared
    | (obtain rfl := Option.some.inj prepared; rfl)
    | simp at prepared

/-- The steps of a runtime have the effects listed for them. -/
theorem stepped_effect {r : RuntimeId} {rt : Runtime} {step : RuntimeStep} {mid : PooledProcess V}
    (there : s.process.runtimes r = some rt) (prepared : s.prepare features r rt step = some mid)
    (advanced : mid.advance (.step r step) = some t) :
    s.Effect features (.process (.step r step)) t := by
  -- One case for each effect of the step: seven of them reach the pools or their callers.
  obtain ⟨process, taken, rfl⟩ := advance_eq_some.mp advanced
  rw [prepare_process prepared] at taken
  obtain ⟨shared, now, effect, rfl⟩ := step_runtime there taken
  -- Where nothing is done to the pools, the coordinators are the same as well.
  have quiet : mid = s → shared.coordinators = s.process.shared.coordinators →
      shared.nextCoordinator = s.process.shared.nextCoordinator →
      (∀ notice, step = .stepDriver notice →
        rt.driver ≠ .loading ∧ ∀ exec, rt.driver ≠ .polling exec) →
      s.Effect features (.process (.step r step))
        { mid with process := { s.process with shared := shared }.setRuntime r now } := by
    rintro rfl coordinators names apart
    exact .stepped there taken effect (.same coordinators names rfl) apart
  cases effect with
  | @created blocking before =>
    simp only [prepare, before, Option.some.injEq] at prepared
    subst prepared
    exact .stepped there taken (.created before)
      (.made (.inr ⟨r, rt, _, _, there, Nat.le_refl _, rfl, rfl⟩) rfl rfl rfl) (by simp)
  | @abandoned execs poller blocking before fewer some =>
    simp only [prepare, before, if_pos some, Option.some.injEq] at prepared
    subst prepared
    exact .stepped there taken (.abandoned before fewer some)
      (.made (.inr ⟨r, rt, _, _, there, fewer.le, rfl, rfl⟩) rfl rfl rfl) (by simp)
  | @cleared call before =>
    simp only [prepare, before, Option.some.injEq] at prepared
    subst prepared
    exact .stepped there taken (.cleared before) (.made (.inl ⟨rfl, rfl⟩) rfl rfl rfl) (by simp)
  | @exitCleared notice before =>
    simp only [prepare, before, Option.some.injEq] at prepared
    subst prepared
    exact .stepped there taken (.exitCleared before) (.made (.inl ⟨rfl, rfl⟩) rfl rfl rfl)
      (by simp [before])
  | @flagged call exec before =>
    simp only [prepare, before] at prepared
    obtain ⟨pool, flag, rfl⟩ := onPool_eq_some.mp prepared
    exact .stepped there taken (.flagged before)
      (.flagged there (.inr ⟨call, before⟩) flag rfl rfl rfl) (by simp)
  | @exitFlagged notice exec before =>
    simp only [prepare, before] at prepared
    obtain ⟨pool, flag, rfl⟩ := onPool_eq_some.mp prepared
    exact .stepped there taken (.exitFlagged before)
      (.flagged there (.inl before) flag rfl rfl rfl) (by simp [before])
  | @driverLoaded notice before =>
    simp only [prepare, before, Option.some.injEq] at prepared
    subst prepared
    exact .driverLoaded there before taken
  -- The call of the driver is none of these steps.
  | driverPanicked before => simp [prepare, before] at prepared
  | driverPolled before => simp [prepare, before] at prepared
  | replaced => exact quiet (by simpa [prepare] using prepared.symm) rfl rfl (by simp)
  | runCalled => exact quiet (by simpa [prepare] using prepared.symm) rfl rfl (by simp)
  | swapped before => exact quiet (by simpa [prepare, before] using prepared.symm) rfl rfl (by simp)
  | stored before => exact quiet (by simpa [prepare, before] using prepared.symm) rfl rfl (by simp)
  | started before => exact quiet (by simpa [prepare, before] using prepared.symm) rfl rfl (by simp)
  | failed before =>
    refine quiet ?_ rfl rfl (by simp)
    rcases before with ⟨before, rfl, rfl⟩ | before <;> simpa [prepare, before] using prepared.symm
  | returned before =>
    exact quiet (by simpa [prepare, before] using prepared.symm) rfl rfl (by simp)
  | unblocked before =>
    exact quiet (by simpa [prepare, before] using prepared.symm) rfl rfl (by simp)
  | shutdownCalled => exact quiet (by simpa [prepare] using prepared.symm) rfl rfl (by simp)
  | dropped => exact quiet (by simpa [prepare] using prepared.symm) rfl rfl (by simp)
  | noticeSent before =>
    exact quiet (by simpa [prepare, before] using prepared.symm) rfl rfl (by simp)
  | slotLoaded before =>
    exact quiet (by simpa [prepare, before] using prepared.symm) rfl rfl (by simp)
  | noticed before =>
    exact quiet (by simpa [prepare, before] using prepared.symm) rfl rfl (by simp [before])
  | unnoticed before =>
    exact quiet (by simpa [prepare, before] using prepared.symm) rfl rfl (by simp [before])
  | exitLoaded before =>
    exact quiet (by simpa [prepare, before] using prepared.symm) rfl rfl (by simp [before])
  | notified => exact quiet (by simpa [prepare] using prepared.symm) rfl rfl (by simp)

/-- A call that is done ends the thread of a user, or brings the driver on. -/
theorem finish_effect {caller : SlotCaller} {exec : CoordinatorId} {call : CallId}
    (calls : s.callers caller = .calling exec call)
    (done : ((s.pools exec).pool.calls call).active = false) (taken : s.finish caller = some t) :
    s.Effect features (.move caller) t := by
  -- A user's thread is done with its call, and a driver's is in the middle of its loop.
  cases caller with
  | user id =>
    obtain rfl := Option.some.inj taken
    exact .userEnded calls done
  | driver r =>
    obtain ⟨process, stepped, rfl⟩ := advance_eq_some.mp taken
    -- Only a runtime that is there has a driver.
    obtain ⟨rt, there, -⟩ := Option.bind_eq_some_iff.mp stepped
    obtain ⟨shared, now, effect, rfl⟩ := step_runtime there stepped
    exact .driverEnded calls done there stepped effect

/-- The steps of a call have the effects listed for them. -/
theorem move_effect {caller : SlotCaller} (taken : s.move features caller = some t) :
    s.Effect features (.move caller) t := by
  -- A caller is about to call, in a call, or has nothing to do.
  unfold move at taken
  split at taken
  · simp at taken
  · rename_i request exec loads
    obtain ⟨mid, stepped, rfl⟩ := Option.map_eq_some_iff.mp taken
    obtain ⟨pool, called, rfl⟩ := onPool_eq_some.mp stepped
    exact .called loads called
  · rename_i exec call calls
    -- Where the call is decides what its next step is.
    split at taken
    · obtain ⟨pool, stepped, rfl⟩ := onPool_eq_some.mp taken
      exact .continued calls (.inl rfl) stepped
    · obtain ⟨pool, stepped, rfl⟩ := onPool_eq_some.mp taken
      exact .continued calls (.inr (.inl rfl)) stepped
    · obtain ⟨pool, stepped, rfl⟩ := onPool_eq_some.mp taken
      exact .continued calls (.inr (.inr rfl)) stepped
    · rename_i done
      exact finish_effect calls (by rw [done]; rfl) taken
    · rename_i done
      exact finish_effect calls (by rw [done]; rfl) taken
    · simp at taken

/-- What the runtimes see of an executor that ends is that it leaves. -/
theorem left_of_ends {exec : CoordinatorId} {n : Nat} {pool : Pool n V} {worker : Fin n}
    {step : WorkerStep V} {act : ProcessAction} {before after : Process}
    (ends : step.ends features pool exec worker = some act)
    (taken : Steps Process.next before act after) :
    ∃ panics : Bool,
      (if panics then act = .crashExecutor exec worker else act = .exitExecutor exec worker) ∧
        after = before.leaveExecutor exec worker panics := by
  -- Only a look at the flag and a poll can end an executor.
  unfold WorkerStep.ends at ends
  split at ends
  · obtain ⟨-, same⟩ := Option.ite_none_right_eq_some.mp ends
    obtain rfl := Option.some.inj same
    obtain ⟨-, rfl⟩ := enabled_iff.mp taken
    exact ⟨false, by simp, rfl⟩
  · obtain ⟨-, same⟩ := Option.ite_none_right_eq_some.mp ends
    obtain rfl := Option.some.inj same
    obtain ⟨-, rfl⟩ := enabled_iff.mp taken
    exact ⟨true, by simp, rfl⟩
  · simp at ends

/-- Every step has one of the listed effects. -/
theorem step_effect (step : Steps (next features) s act t) : s.Effect features act t := by
  -- The cases follow the actions, and each joined step is taken apart into its two parts.
  cases act with
  | process act =>
    cases act with
    | build execs capacity =>
      obtain ⟨fits, taken⟩ := Option.ite_none_right_eq_some.mp step
      obtain ⟨process, built, rfl⟩ := advance_eq_some.mp taken
      exact .built fits (.inl ⟨capacity, rfl⟩) built
    | buildSupplied execs other =>
      obtain ⟨fits, taken⟩ := Option.ite_none_right_eq_some.mp step
      obtain ⟨process, built, rfl⟩ := advance_eq_some.mp taken
      exact .built fits (.inr ⟨other, rfl⟩) built
    | step r step' =>
      obtain ⟨rt, there, rest⟩ := Option.bind_eq_some_iff.mp step
      obtain ⟨mid, prepared, advanced⟩ := Option.bind_eq_some_iff.mp rest
      exact stepped_effect there prepared advanced
    | exitExecutor exec worker => simp [Steps, next, stepProcess] at step
    | crashExecutor exec worker => simp [Steps, next, stepProcess] at step
  | load request =>
    obtain ⟨offered, rfl⟩ := enabled_iff.mp step
    exact .userLoaded offered
  | move caller => exact move_effect step
  | work exec worker step' =>
    simp only [Steps, next] at step
    split at step
    · rename_i inRange
      obtain ⟨mid, stepped, seen⟩ := Option.bind_eq_some_iff.mp step
      obtain ⟨pool, taken, rfl⟩ := onPool_eq_some.mp stepped
      split at seen
      · rename_i act ends
        obtain ⟨process, exits, rfl⟩ := advance_eq_some.mp seen
        obtain ⟨panics, how, rfl⟩ := left_of_ends ends exits
        exact .left inRange taken ends how exits
      · rename_i stays
        obtain rfl := Option.some.inj seen
        exact .worked inRange taken stays
    · simp at step
  | dropCoordinator exec =>
    obtain ⟨retired, taken⟩ := Option.ite_none_right_eq_some.mp step
    obtain ⟨pool, stepped, rfl⟩ := onPool_eq_some.mp taken
    exact .dropped retired stepped

end PooledProcess

end Imputio
