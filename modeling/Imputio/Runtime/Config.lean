import Imputio.Executor.Submitters

/-! Configurations of a runtime, and the range of the index that its coordinator dispatches with. -/

namespace Imputio

open Transition

/-- The largest `isize`, which bounds the bytes of a `Vec` and so its length. -/
def isizeMax : Nat := 2 ^ 63 - 1

/-- A `Vec` of values that take up space. -/
structure Vec (α : Type*) where
  items : List α
  fits : items.length ≤ isizeMax

/-- `vec![item]`. -/
def Vec.single {α : Type*} (item : α) : Vec α := ⟨[item], by simp [isizeMax]⟩

/-- How a thread is started, and how long it parks. -/
structure ThreadConfig where
  threadName : String
  stackSize : Nat
  coreId : Option Nat
  parking : Option Nat
  deriving DecidableEq, Repr

namespace ThreadConfig

/-- `ThreadConfig::default`. -/
def default : ThreadConfig where
  threadName := "imputio-thread"
  stackSize := 131072
  coreId := none
  parking := some 10

/-- Name the thread. -/
def withName (cfg : ThreadConfig) (name : String) : ThreadConfig := { cfg with threadName := name }

/-- Pin the thread to a core. -/
def withCoreAffinity (cfg : ThreadConfig) (coreId : Nat) : ThreadConfig :=
  { cfg with coreId := some coreId }

end ThreadConfig

/-- How many events the poller takes at once. -/
structure PollerCfg where
  eventSize : Nat
  deriving DecidableEq, Repr

/-- `PollerCfg::default`. -/
def PollerCfg.default : PollerCfg where
  eventSize := 256

/-- The configuration of a poller and of its thread. -/
structure PollThreadConfig where
  threadCfg : ThreadConfig
  pollCfg : PollerCfg
  deriving DecidableEq, Repr

namespace PollThreadConfig

/-- `PollThreadConfig::default`. -/
def default : PollThreadConfig where
  threadCfg := { ThreadConfig.default with threadName := "imputio-io-actor-thread" }
  pollCfg := .default

/-- Name the thread of the poller. -/
def withName (cfg : PollThreadConfig) (name : String) : PollThreadConfig :=
  { cfg with threadCfg := cfg.threadCfg.withName name }

/-- Pin the thread of the poller to a core. -/
def withCoreAffinity (cfg : PollThreadConfig) (coreId : Nat) : PollThreadConfig :=
  { cfg with threadCfg := cfg.threadCfg.withCoreAffinity coreId }

end PollThreadConfig

/-- The configuration of one executor and of its poller. -/
structure ExecThreadConfig where
  threadCfg : ThreadConfig
  pollThreadCfg : PollThreadConfig
  deriving DecidableEq, Repr

namespace ExecThreadConfig

/-- `ExecThreadConfig::default`. -/
def default : ExecThreadConfig where
  threadCfg := { ThreadConfig.default with threadName := "imputio-exec-thread" }
  pollThreadCfg := .default

/-- Configure the poller of the executor. -/
def withPollThreadCfg (cfg : ExecThreadConfig) (pollCfg : PollThreadConfig) : ExecThreadConfig :=
  { cfg with pollThreadCfg := pollCfg }

/-- Name the thread of the executor. -/
def withName (cfg : ExecThreadConfig) (name : String) : ExecThreadConfig :=
  { cfg with threadCfg := cfg.threadCfg.withName name }

/-- Pin the thread of the executor to a core. -/
def withCoreAffinity (cfg : ExecThreadConfig) (coreId : Nat) : ExecThreadConfig :=
  { cfg with threadCfg := cfg.threadCfg.withCoreAffinity coreId }

end ExecThreadConfig

/-- The executors that a runtime starts, and a flag that the coordinator does not use. -/
structure ExecConfig where
  execThreadConfig : Vec ExecThreadConfig
  shutdown : Bool

namespace ExecConfig

/-- `ExecConfig::default`: one executor. -/
def default : ExecConfig where
  execThreadConfig := .single .default
  shutdown := false

/-- Configure the executors; nothing is asked of the list. -/
def withCfg (cfg : ExecConfig) (execThreadConfig : Vec ExecThreadConfig) : ExecConfig :=
  { cfg with execThreadConfig := execThreadConfig }

/-- Replace the flag. -/
def withShutdown (cfg : ExecConfig) (shutdown : Bool) : ExecConfig :=
  { cfg with shutdown := shutdown }

/-- There is no executor to start. -/
def isEmpty (cfg : ExecConfig) : Bool := cfg.execThreadConfig.items.isEmpty

/-- `ExecHandleCoordinator::initialize`: one handle for each thread configuration. -/
def initialized {V : Type*} (features : Features) (cfg : ExecConfig) :
    Pool cfg.execThreadConfig.items.length V :=
  .initialized features

end ExecConfig

/-- The part of a runtime that its coordinator is made from. -/
structure RuntimeConfig where
  cfg : ExecConfig
  runtimeCore : Option Nat
  reservedCoreIds : List Nat

/-- The builder of a runtime; what was not set yet is filled in when it builds. -/
structure ImputioRuntimeBuilder where
  cfg : Option ExecConfig
  runtimeCore : Option (Option Nat)
  reservedCoreIds : Option (List Nat)

namespace ImputioRuntimeBuilder

/-- `ImputioRuntimeBuilder::default`. -/
def default : ImputioRuntimeBuilder := ⟨none, none, none⟩

/-- Take a configuration of the user as it is. -/
def withExecConfig (builder : ImputioRuntimeBuilder) (cfg : ExecConfig) : ImputioRuntimeBuilder :=
  { builder with cfg := some (cfg.withShutdown false) }

/-- The executor for one core, and its poller on the same core. -/
def execOnCore (core : Nat) : ExecThreadConfig :=
  let pollerCfg := (PollThreadConfig.default.withCoreAffinity core).withName
    ("imputio-io-" ++ toString core)
  ((ExecThreadConfig.default.withCoreAffinity core).withPollThreadCfg pollerCfg).withName
    ("imputio-exec-" ++ toString core)

/-- One executor for each core that the system lists. -/
def useAllAvailableCoresWithExecutorPerCore (builder : ImputioRuntimeBuilder)
    (availableCores : Vec Nat) : ImputioRuntimeBuilder :=
  let execs : Vec ExecThreadConfig :=
    ⟨availableCores.items.map execOnCore, by simpa using availableCores.fits⟩
  -- The system may list no cores at all.
  let execCfg :=
    if execs.items.isEmpty then ExecConfig.default.withShutdown false
    else (ExecConfig.default.withCfg execs).withShutdown false
  { builder with cfg := some execCfg }

/-- Reserve cores, which nothing looks at yet. -/
def withReservedCores (builder : ImputioRuntimeBuilder) (reserved : List Nat) :
    ImputioRuntimeBuilder :=
  { builder with reservedCoreIds := some reserved }

/-- Pin the thread that runs the runtime to a core. -/
def pinMainRuntimeToCore (builder : ImputioRuntimeBuilder) (runtimeCore : Nat) :
    ImputioRuntimeBuilder :=
  { builder with runtimeCore := some (some runtimeCore) }

/-- Build a runtime, with defaults for whatever was not set. -/
def build (builder : ImputioRuntimeBuilder) : RuntimeConfig where
  cfg := builder.cfg.getD (ExecConfig.default.withShutdown false)
  runtimeCore := builder.runtimeCore.getD none
  reservedCoreIds := builder.reservedCoreIds.getD []

end ImputioRuntimeBuilder

/-- A call that has computed an index has one that is in range, and no call has panicked. -/
def CallProgress.InRange (n : Nat) : CallProgress → Prop
  | .loaded _ index => index < n
  | .stored _ index => index < n
  | .panicked => False
  | _ => True

/--
Dispatch is in range: there is a remainder to take, the next addition does not overflow, and every
index that is used is that of a handle.
-/
structure Pool.DispatchesInRange {n : Nat} {V : Type*} (s : Pool n V) : Prop where
  modulus : n ≠ 0
  index : s.index < n
  addition : s.index < usizeMax
  calls : ∀ call, (s.calls call).InRange n

namespace Pool

variable {n : Nat} {V : Type*} {features : Features} {s t : Pool n V} {act : PoolAction n V}

/-- With handles, and not too many of them, every step keeps the dispatch in range. -/
theorem DispatchesInRange.step (fits : n ≤ isizeMax) (range : s.DispatchesInRange)
    (step : Steps (next features) s act t) : t.DispatchesInRange := by
  -- The moves are gone through; an index is computed in one of them and read in a few.
  obtain ⟨modulus, index, addition, calls⟩ := range
  have positive : 0 < n := Nat.pos_of_ne_zero modulus
  have small : n ≤ usizeMax := fits.trans (by decide)
  -- Most steps leave the index alone and change one call at most, to a state without an index.
  have same : t.index = s.index → t.calls = s.calls → t.DispatchesInRange := by
    intro index' calls'
    refine ⟨modulus, index' ▸ index, index' ▸ addition, ?_⟩
    rw [calls']
    exact calls
  have changed : ∀ {call state}, t.index < n → t.calls = Function.update s.calls call state →
      state.InRange n → t.DispatchesInRange := by
    intro call state index' calls' inRange
    refine ⟨modulus, index', index'.trans_le small, fun other => ?_⟩
    rw [calls', Function.update_apply]
    split
    · exact inRange
    · exact calls other
  cases step_next step with
  | @called request held =>
    have next : s.asked request = .loaded request ((s.index + 1) % n) := by
      rw [asked, nextIndex, if_pos ⟨addition, positive⟩]
    refine changed index rfl ?_
    rw [next]
    exact Nat.mod_lt _ positive
  | @stored call request index' loaded =>
    have inRange : index' < n := by simpa [loaded, CallProgress.InRange] using calls call
    exact changed inRange rfl inRange
  | spawned => exact changed index rfl trivial
  | refused => exact changed index rfl trivial
  | pollSent => exact changed index rfl trivial
  | pollRefused => exact changed index rfl trivial
  | opSent => exact changed index rfl trivial
  | opRefused => exact changed index rfl trivial
  | @outOfRange call request index' asked outside =>
    exact absurd (by simpa [asked, CallProgress.InRange] using calls call) outside
  | received => exact changed index rfl trivial
  | idled => exact same rfl rfl
  | enqueued => exact same rfl rfl
  | unpolled => exact same rfl rfl
  | @polled worker coin outcome task level later rest exec =>
    refine same ?_ (polled_calls ..).1
    cases outcome <;> rfl
  | @served worker coin outcome call op rest =>
    -- An answer reaches a caller that waits, or nobody.
    by_cases waits : (s.setExecutor worker
        (((s.executors worker).take rest).pushToPoller op).2).calls call = .waiting
    · refine changed ?_ (congrArg Pool.calls (answer_waiting waits)) trivial
      rw [answer_waiting waits]
      exact index
    · refine same ?_ ?_ <;> rw [answer_silent waits] <;> rfl
  | left => exact same rfl rfl
  | stayed => exact same rfl rfl
  | flagged => exact same rfl rfl
  | released => exact same rfl rfl
  | pollerTook => exact same rfl rfl
  | pollerLeft => exact same rfl rfl

end Pool

/-- Whatever is called on the coordinator that a runtime makes, its dispatch stays in range. -/
def RuntimeConfig.AlwaysInRange (features : Features) (V : Type*) (rt : RuntimeConfig) : Prop :=
  ∀ (acts : List (PoolAction rt.cfg.execThreadConfig.items.length V)) last,
    Run (Steps (Pool.next features)) (rt.cfg.initialized features) acts last →
      last.DispatchesInRange

/-- No call on the coordinator that a runtime makes ever panics, those of its driver included. -/
def RuntimeConfig.NeverPanics (features : Features) (V : Type*) (rt : RuntimeConfig) : Prop :=
  ∀ (acts : List (PoolAction rt.cfg.execThreadConfig.items.length V)) last,
    Run (Steps (Pool.next features)) (rt.cfg.initialized features) acts last →
      ∀ call, last.calls call ≠ .panicked

section Range

variable {features : Features} {V : Type*} {rt : RuntimeConfig}

/-- What is in range does not panic. -/
theorem RuntimeConfig.AlwaysInRange.neverPanics (always : rt.AlwaysInRange features V) :
    rt.NeverPanics features V := by
  intro acts last run call panics
  -- A call that has panicked is not in range.
  have inRange := (always acts last run).calls call
  rw [panics] at inRange
  exact inRange

/-- The first call on a coordinator without handles panics. -/
theorem first_poll_panics (empty : rt.cfg.isEmpty = true) :
    ∃ last, Run (Steps (Pool.next features)) (rt.cfg.initialized features : Pool _ V)
      [.call .poll] last ∧ last.calls 0 = .panicked := by
  -- There is no remainder by zero.
  have none : rt.cfg.execThreadConfig.items.length = 0 :=
    List.length_eq_zero_iff.mpr (List.isEmpty_iff.mp empty)
  refine ⟨_, .single rfl, ?_⟩
  simp [ExecConfig.initialized, Pool.initialized, Pool.withExecutors, Pool.setCall, nextIndex, none]

/-- A runtime on which no call ever panics has an executor to start. -/
theorem RuntimeConfig.NeverPanics.filled (never : rt.NeverPanics features V) :
    rt.cfg.isEmpty = false := by
  -- With an empty configuration there is a run in which a call panics.
  rw [← Bool.not_eq_true]
  intro empty
  obtain ⟨last, run, panics⟩ := @first_poll_panics features V rt empty
  exact never _ last run 0 panics

/-- A runtime dispatches in range exactly when it has an executor to start. -/
theorem alwaysInRange_iff : rt.AlwaysInRange features V ↔ rt.cfg.isEmpty = false := by
  -- Without executors the first call already panics, and with them the range is an invariant.
  constructor
  · intro always
    exact always.neverPanics.filled
  · intro filled acts last run
    have positive : 0 < rt.cfg.execThreadConfig.items.length :=
      List.length_pos_iff.mpr (List.isEmpty_eq_false_iff.mp filled)
    have start : (rt.cfg.initialized features : Pool _ V).DispatchesInRange :=
      ⟨positive.ne', positive, show 0 < usizeMax by decide, fun _ => trivial⟩
    exact run.invariant start fun _ _ _ range step => range.step rt.cfg.execThreadConfig.fits step

/-- No call panics exactly when there is an executor to start. -/
theorem neverPanics_iff : rt.NeverPanics features V ↔ rt.cfg.isEmpty = false := by
  -- With executors a call is in range, and without them the first one panics.
  constructor
  · intro never
    exact never.filled
  · intro filled
    exact (alwaysInRange_iff.mpr filled).neverPanics

/--
Dispatch is in range in every run of what a runtime makes from a configuration of the user, and no
call panics, exactly if the configuration is not empty. The other ways to configure a runtime never
leave it empty.
-/
theorem dispatch_in_range_iff (features : Features) (V : Type*) (builder : ImputioRuntimeBuilder)
    (cfg : ExecConfig) (availableCores : Vec Nat) :
    ((builder.withExecConfig cfg).build.AlwaysInRange features V ↔ cfg.isEmpty = false) ∧
      ((builder.withExecConfig cfg).build.NeverPanics features V ↔ cfg.isEmpty = false) ∧
      (builder.useAllAvailableCoresWithExecutorPerCore availableCores).build.AlwaysInRange
        features V ∧
      ImputioRuntimeBuilder.default.build.AlwaysInRange features V := by
  -- All parts come down to whether the list of the configuration is empty.
  refine ⟨alwaysInRange_iff, neverPanics_iff, alwaysInRange_iff.mpr ?_,
    alwaysInRange_iff.mpr rfl⟩
  -- An empty list of cores is replaced by the default.
  by_cases none : availableCores.items = []
  · simp [ImputioRuntimeBuilder.useAllAvailableCoresWithExecutorPerCore, none,
      ImputioRuntimeBuilder.build, ExecConfig.withShutdown, ExecConfig.isEmpty,
      ExecConfig.default, Vec.single]
  · simp [ImputioRuntimeBuilder.useAllAvailableCoresWithExecutorPerCore, none,
      ImputioRuntimeBuilder.build, ExecConfig.withShutdown, ExecConfig.isEmpty,
      ExecConfig.withCfg]

/-- The configuration of a user who asks for no executors. -/
def noExecutors : ExecConfig := ExecConfig.default.withCfg ⟨[], by simp⟩

/-- The driver of a runtime without executors panics at its first poll. -/
theorem empty_config_panics :
    ∃ last, Run (Steps (Pool.next ⟨false, true⟩)) ((ImputioRuntimeBuilder.default.withExecConfig
        noExecutors).build.cfg.initialized ⟨false, true⟩ : Pool _ Nat) [.call .poll] last ∧
      last.calls 0 = .panicked ∧ ¬ last.DispatchesInRange := by
  -- The run is the one that shows that a runtime without executors panics.
  have empty : (ImputioRuntimeBuilder.default.withExecConfig noExecutors).build.cfg.isEmpty =
    true := rfl
  obtain ⟨last, run, panics⟩ := first_poll_panics empty
  refine ⟨last, run, panics, fun range => ?_⟩
  -- A call that has panicked is not in range.
  have inRange := range.calls 0
  rw [panics] at inRange
  exact inRange

end Range

end Imputio
