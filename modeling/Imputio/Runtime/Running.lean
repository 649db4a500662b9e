import Imputio.Runtime.Ownership
import Imputio.Runtime.Shutdown

/-! What the flag of a runtime says when `run` returns: that it runs, unless it was ever stopped. -/

namespace Imputio

open Transition

namespace Runtime

variable {r : RuntimeId} {shared shared' : Shared} {rt rt' : Runtime} {step : RuntimeStep}

/-- The configuration of a runtime stays. -/
theorem Effect.execs (effect : rt.Effect r shared step shared' rt') : rt'.execs = rt.execs := by
  -- Only the channel operations hide what they leave alone.
  cases effect with
  | noticeSent _ sent => rw [send_rest sent]; rfl
  | notified _ sent => rw [send_rest sent]
  | noticed _ taken => rw [tryRecv_rest taken]
  | _ => rfl

/-- That a call of `run` has panicked is not forgotten. -/
theorem Effect.good_before (effect : rt.Effect r shared step shared' rt')
    (good : rt'.failed = false) : rt.failed = false := by
  -- Only the two steps in which `run` panics set the mark, and none takes it back.
  cases effect with
  | noticeSent _ sent =>
    rw [send_rest sent] at good
    exact good
  | notified _ sent =>
    rw [send_rest sent] at good
    exact good
  | noticed _ taken =>
    rw [tryRecv_rest taken] at good
    exact good
  | failed => simp at good
  | abandoned => simp at good
  | _ => exact good

/-- The flag of a runtime stays set, and only the call that has set it starts executors. -/
theorem Effect.begun (effect : rt.Effect r shared step shared' rt') (set : rt.state = true)
    (past : ∀ blocking, rt.call ≠ .initializing blocking) :
    rt'.state = true ∧ ∀ blocking, rt'.call ≠ .initializing blocking := by
  -- After the swap a call goes on to the executors only if the flag was not set.
  cases effect with
  | swapped => exact ⟨rfl, fun blocking => by simp [set]⟩
  | @returned blocking => exact ⟨set, fun _ => by cases blocking <;> simp⟩
  | noticeSent _ sent =>
    rw [send_rest sent]
    exact ⟨set, past⟩
  | notified _ sent =>
    rw [send_rest sent]
    exact ⟨set, past⟩
  | noticed _ taken =>
    rw [tryRecv_rest taken]
    exact ⟨set, past⟩
  | created before => exact absurd before (past _)
  | runCalled => exact ⟨set, by simp⟩
  | stored => exact ⟨set, by simp⟩
  | started => exact ⟨set, by simp⟩
  | failed => exact ⟨set, by simp⟩
  | abandoned => exact ⟨set, by simp⟩
  | unblocked => exact ⟨set, by simp⟩
  | _ => exact ⟨set, past⟩

/-- What a runtime keeps: its configuration, that `run` has panicked, and that it has begun. -/
structure Keeps (rt now : Runtime) : Prop where
  execs : now.execs = rt.execs
  good : now.failed = false → rt.failed = false
  begun : rt.state = true → (∀ blocking, rt.call ≠ .initializing blocking) →
    now.state = true ∧ ∀ blocking, now.call ≠ .initializing blocking

/-- A runtime that takes no step keeps it all. -/
theorem Keeps.refl (rt : Runtime) : rt.Keeps rt := ⟨rfl, id, fun set past => ⟨set, past⟩⟩

/-- Neither does a step take anything of it away. -/
theorem Effect.keeps (effect : rt.Effect r shared step shared' rt') : rt.Keeps rt' :=
  ⟨effect.execs, effect.good_before, effect.begun⟩

/-- A send adds to the notices. -/
theorem send_le (sent : rt.send = some rt') : rt.sent ≤ rt'.sent := by
  -- A full channel blocks the sender, and a notice that is refused is not counted.
  unfold send at sent
  split at sent
  · obtain rfl := Option.some.inj sent
    exact Nat.le_succ _
  · split at sent
    · obtain rfl := Option.some.inj sent
      exact Nat.le_succ _
    · simp at sent
    · obtain rfl := Option.some.inj sent
      exact Nat.le_refl _

/-- Notices are not taken back. -/
theorem Effect.sent_le (effect : rt.Effect r shared step shared' rt') : rt.sent ≤ rt'.sent := by
  -- Only two steps send on the channel, and one receives from it.
  cases effect with
  | @noticeSent _ after _ sent =>
    have more : rt.sent ≤ after.sent := send_le sent
    exact more
  | notified _ sent => exact send_le sent
  | noticed _ taken => rw [tryRecv_rest taken]
  | _ => exact Nat.le_refl _

/-- A channel that is the runtime's own has been its own before. -/
theorem Effect.own (effect : rt.Effect r shared step shared' rt') {notices : Channel Unit}
    (own : rt'.notifier = .own notices) : ∃ before, rt.notifier = .own before := by
  -- A channel is exchanged for a supplied one at most, never the other way.
  cases effect with
  | replaced => simp at own
  | noticeSent _ sent =>
    cases supplied : rt.notifier with
    | own before => exact ⟨before, rfl⟩
    | supplied =>
      simp only [send, supplied, Option.some.injEq] at sent
      subst sent
      simp [setShutdown] at own
  | notified _ sent =>
    cases supplied : rt.notifier with
    | own before => exact ⟨before, rfl⟩
    | supplied =>
      simp only [send, supplied, Option.some.injEq] at sent
      subst sent
      simp at own
  | noticed _ taken =>
    cases supplied : rt.notifier with
    | own before => exact ⟨before, rfl⟩
    | supplied =>
      simp only [tryRecv, supplied] at taken
      obtain ⟨-, same⟩ := Option.ite_none_right_eq_some.mp taken
      obtain rfl := Option.some.inj same
      simp [supplied] at own
  | _ => exact ⟨notices, own⟩

/-- A notice that goes through an own channel counts. -/
theorem Counted.send_pos (counted : rt.Counted) {notices : Channel Unit}
    (own : rt.notifier = .own notices) (sent : rt.send = some rt') : 0 < rt'.sent := by
  -- The channel is connected, so that a send that went through is counted.
  have connected := (counted notices own).1
  unfold Runtime.send at sent
  rw [own] at sent
  simp only at sent
  split at sent
  · obtain rfl := Option.some.inj sent
    exact Nat.succ_pos _
  · simp at sent
  · rename_i refused
    cases connected.symm.trans (Channel.send_eq_disconnected_iff.mp refused)

/-- Before the first notice nothing waits and the driver has taken nothing. -/
theorem Counted.silent (counted : rt.Counted) {notices : Channel Unit}
    (own : rt.notifier = .own notices) (quiet : rt.sent = 0) :
    notices.queue = [] ∧ rt.driver.received = 0 := by
  -- Every notice that waits or was taken has been sent.
  obtain ⟨-, count, -⟩ := counted notices own
  rw [quiet] at count
  exact ⟨List.length_eq_zero_iff.mp (by omega), by omega⟩

end Runtime

namespace Process

variable {s t : Process} {act : ProcessAction}

/-- The slot holds a coordinator whose executors are alive, and the driver is in its loop. -/
def Running (s : Process) (rt : Runtime) : Prop :=
  (s.shared.coordinators s.shared.executor).shutdown = false ∧
    0 < (s.shared.coordinators s.shared.executor).handles ∧
    (∀ worker < (s.shared.coordinators s.shared.executor).handles,
      (s.shared.coordinators s.shared.executor).InLoop worker) ∧
    rt.driver.listens = true

/-- A placeholder has no executor, and the coordinator of a runtime has those it asks for. -/
structure Shaped (s : Process) (coordinator : Coordinator) : Prop where
  placeholder : coordinator.owner = none → ∀ worker, coordinator.exited worker = true
  -- It has fewer if `run` has panicked.
  owned : ∀ r, coordinator.owner = some r → ∃ rt, s.runtimes r = some rt ∧
    coordinator.handles ≤ rt.execs ∧ (rt.failed = false → coordinator.handles = rt.execs)

/--
As long as a runtime that is alone has sent no notice, nothing has been shut down.

Its own coordinator is in the slot from the store on, and its driver finds no other one.
-/
structure Calm (s : Process) (r : RuntimeId) (rt : Runtime) : Prop where
  shutdowns : ∀ call, rt.shutdowns call = .unused ∨ rt.shutdowns call = .sending
  flags : ∀ exec, (s.shared.coordinators exec).shutdown = false
  storing : ∀ blocking exec, rt.call = .storing blocking exec →
    (s.shared.coordinators exec).owner = some r
  slot : (rt.driver ≠ .unstarted ∨ ∃ blocking, rt.call = .starting blocking) →
    (s.shared.coordinators s.shared.executor).owner = some r
  polling : ∀ exec, rt.driver = .polling exec → (s.shared.coordinators exec).owner = some r
  panicked : rt.driver = .panicked → rt.execs = 0

/-- Calm is a matter of the slot, of the calls in progress and of the driver. -/
theorem Calm.congr {r : RuntimeId} {rt now : Runtime} (calm : s.Calm r rt)
    (coordinators : t.shared.coordinators = s.shared.coordinators)
    (executor : t.shared.executor = s.shared.executor) (execs : now.execs = rt.execs)
    (shutdowns : ∀ call, now.shutdowns call = rt.shutdowns call ∨ now.shutdowns call = .sending)
    (storing : ∀ blocking exec, now.call = .storing blocking exec →
      rt.call = .storing blocking exec)
    (slot : (now.driver ≠ .unstarted ∨ ∃ blocking, now.call = .starting blocking) →
      rt.driver ≠ .unstarted ∨ ∃ blocking, rt.call = .starting blocking)
    (polling : ∀ exec, now.driver = .polling exec →
      rt.driver = .polling exec ∨ exec = s.shared.executor ∧ rt.driver ≠ .unstarted)
    (panicked : now.driver = .panicked → rt.driver = .panicked) : t.Calm r now := by
  -- Each field of the invariant is carried over by the hypothesis about what it reads.
  refine ⟨fun call => ?_, ?_, fun blocking exec stores => ?_, fun there => ?_, fun exec polls => ?_,
    fun bad => ?_⟩
  · rcases shutdowns call with same | sending
    · exact same ▸ calm.shutdowns call
    · exact .inr sending
  · exact coordinators ▸ calm.flags
  · exact coordinators ▸ calm.storing blocking exec (storing blocking exec stores)
  · rw [coordinators, executor]
    exact calm.slot (slot there)
  · rw [coordinators]
    rcases polling exec polls with before | ⟨rfl, started⟩
    · exact calm.polling exec before
    · exact calm.slot (.inl started)
  · exact execs ▸ calm.panicked (panicked bad)

/-- Calm is no matter of the executors that have left. -/
theorem Calm.leave {r : RuntimeId} {rt : Runtime} {exec : CoordinatorId} {worker : Nat}
    {panics : Bool} (calm : s.Calm r rt) : (s.leaveExecutor exec worker panics).Calm r rt := by
  -- Every part of calm is about flags, owners and what runtimes do.
  refine ⟨calm.shutdowns, fun other => ?_, fun blocking other stores => ?_, fun there => ?_,
    fun other polls => ?_, calm.panicked⟩
  · rw [leaveExecutor_shutdown]
    exact calm.flags other
  · rw [leaveExecutor_owner]
    exact calm.storing blocking other stores
  · rw [leaveExecutor_owner]
    exact calm.slot there
  · rw [leaveExecutor_owner]
    exact calm.polling other polls

/-- A step of a runtime that has sent no notice yet. -/
theorem Calm.stepped {r : RuntimeId} {step : RuntimeStep} {rt now : Runtime} {shared : Shared}
    {notices : Channel Unit} (shaped : ∀ exec, s.Shaped (s.shared.coordinators exec))
    (orderly : rt.Orderly) (counted : rt.Counted) (there : s.runtimes r = some rt)
    (calm : s.Calm r rt) (effect : rt.Effect r s.shared step shared now)
    (own : now.notifier = .own notices) (silent : now.sent = 0) :
    ({ s with shared := shared }.setRuntime r now).Calm r now := by
  -- Before the first notice only `run` and the loop of the driver take steps.
  obtain ⟨before, ownBefore⟩ := effect.own own
  -- No call of `shutdown` has got past its send.
  have waiting : ∀ {call now}, rt.shutdowns call = now → now ≠ .unused → now ≠ .sending →
      False := by
    intro call now here unused sending
    rcases calm.shutdowns call with early | early
    · exact unused (here.symm.trans early)
    · exact sending (here.symm.trans early)
  -- A call that is made now waits to send.
  have called : ∀ call, (rt.setShutdown rt.nextShutdown .sending).shutdowns call =
      rt.shutdowns call ∨ (rt.setShutdown rt.nextShutdown .sending).shutdowns call = .sending := by
    intro call
    by_cases here : call = rt.nextShutdown
    · exact .inr (by simp [Runtime.setShutdown, here])
    · exact .inl (by simp [Runtime.setShutdown, here])
  cases effect with
  | replaced unused => simp at own
  | runCalled unused =>
    exact calm.congr rfl rfl rfl (fun _ => .inl rfl) (by simp)
      (fun there => .inl (by simpa using there)) (fun _ => .inl) id
  | swapped before =>
    refine calm.congr rfl rfl rfl (fun _ => .inl rfl) ?_ ?_ (fun _ => .inl) id
    · cases rt.state <;> simp
    · cases rt.state <;> exact fun there => .inl (by simpa using there)
  | @created blocking before =>
    -- Nothing is polled yet, and the new coordinator belongs to the runtime.
    obtain ⟨-, driver, -⟩ := orderly.starts (by simp [before, RunCall.starts])
    refine ⟨calm.shutdowns, fun exec => ?_, fun blocking exec stores => ?_, fun there => ?_,
      fun exec polls => (by cases driver.symm.trans polls),
      fun bad => (by cases driver.symm.trans bad)⟩
    · by_cases here : exec = s.shared.nextCoordinator
      · simp [setRuntime, Shared.create, here, Coordinator.initialized, Coordinator.started]
      · simpa [setRuntime, Shared.create, here] using calm.flags exec
    · obtain ⟨-, rfl⟩ := RunCall.storing.inj stores
      simp [setRuntime, Shared.create, Coordinator.initialized, Coordinator.started]
    · rcases there with started | ⟨_, starting⟩
      · exact absurd driver started
      · simp at starting
  | stored before =>
    obtain ⟨-, driver, -⟩ := orderly.starts (by simp [before, RunCall.starts])
    exact ⟨calm.shutdowns, calm.flags, (by simp), fun _ => calm.storing _ _ before,
      fun exec polls => (by cases driver.symm.trans polls),
      fun bad => (by cases driver.symm.trans bad)⟩
  | started before =>
    exact ⟨calm.shutdowns, calm.flags, by simp, fun _ => calm.slot (.inr ⟨_, before⟩), by simp,
      by simp⟩
  | failed before =>
    exact calm.congr rfl rfl rfl (fun _ => .inl rfl) (by simp)
      (fun there => .inl (by simpa using there)) (fun _ => .inl) id
  | abandoned before =>
    -- What was made is in no slot, and there is no driver that could poll anything.
    obtain ⟨-, driver, -⟩ := orderly.starts (by simp [before, RunCall.starts])
    refine ⟨calm.shutdowns, fun exec => ?_, by simp, fun there => ?_,
      fun exec polls => (by cases driver.symm.trans polls),
      fun bad => (by cases driver.symm.trans bad)⟩
    · by_cases here : exec = s.shared.nextCoordinator
      · simp [setRuntime, Shared.create, here, Coordinator.abandoned, Coordinator.started]
      · simpa [setRuntime, Shared.create, here] using calm.flags exec
    · rcases there with started | ⟨_, starting⟩
      · exact absurd driver started
      · simp at starting
  | @returned blocking before =>
    refine calm.congr rfl rfl rfl (fun _ => .inl rfl) ?_ ?_ (fun _ => .inl) id
    · cases blocking <;> simp
    · cases blocking <;> exact fun there => .inl (by simpa using there)
  | unblocked before =>
    exact calm.congr rfl rfl rfl (fun _ => .inl rfl) (by simp)
      (fun there => .inl (by simpa using there)) (fun _ => .inl) id
  | shutdownCalled idle kept =>
    exact calm.congr rfl rfl rfl called (fun _ _ => id) id (fun _ => .inl) id
  | dropped unused => exact calm.congr rfl rfl rfl called (fun _ _ => id) id (fun _ => .inl) id
  | @noticeSent _ after _ sent =>
    have positive : 0 < after.sent := counted.send_pos ownBefore sent
    exact absurd silent (Nat.ne_of_gt positive)
  | slotLoaded before => exact (waiting before (by simp) (by simp)).elim
  | flagged before => exact (waiting before (by simp) (by simp)).elim
  | cleared before => exact (waiting before (by simp) (by simp)).elim
  | driverLoaded before =>
    refine calm.congr rfl rfl rfl (fun _ => .inl rfl) (fun _ _ => id)
      (fun _ => .inl (by simp [before])) (fun exec polls => ?_) (by simp)
    exact .inr ⟨(Driver.polling.inj polls).symm, by simp [before]⟩
  | @driverPanicked _ exec before empty =>
    -- The driver polls the coordinator of its own runtime, so that has no executors.
    obtain ⟨rt', there', -, whole⟩ := (shaped exec).owned r (calm.polling exec before)
    obtain rfl := Option.some.inj (there.symm.trans there')
    have good : rt.failed = false := by
      by_contra failed
      cases before.symm.trans (orderly.failed (by simpa using failed))
    exact ⟨calm.shutdowns, calm.flags, calm.storing, fun _ => calm.slot (.inl (by simp [before])),
      (by simp), fun _ => (whole good).symm.trans empty⟩
  | driverPolled before =>
    exact calm.congr rfl rfl rfl (fun _ => .inl rfl) (fun _ _ => id)
      (fun _ => .inl (by simp [before])) (by simp) (by simp)
  | noticed before taken =>
    have same := Runtime.tryRecv_rest taken
    have quiet : rt.sent = 0 := by
      rw [same] at silent
      exact silent
    -- There is nothing to take before the first notice is sent.
    have nothing := (counted.silent ownBefore quiet).1
    simp [Runtime.tryRecv, ownBefore, Channel.tryRecv, nothing] at taken
  | unnoticed before =>
    exact calm.congr rfl rfl rfl (fun _ => .inl rfl) (fun _ _ => id)
      (fun _ => .inl (by simp [before])) (by simp) (by simp)
  | exitLoaded before =>
    exact absurd (counted.silent ownBefore silent).2 (by simp [before, Driver.received])
  | exitFlagged before =>
    exact absurd (counted.silent ownBefore silent).2 (by simp [before, Driver.received])
  | exitCleared before =>
    exact absurd (counted.silent ownBefore silent).2 (by simp [before, Driver.received])
  | notified sender sent => exact absurd silent (Nat.ne_of_gt (counted.send_pos ownBefore sent))

/-- The placeholder has the shape of a coordinator without an owner. -/
theorem new_shaped : s.Shaped .new := ⟨fun _ _ => rfl, by simp [Coordinator.new]⟩

/-- The shape of a coordinator lasts while the runtimes keep their configurations. -/
theorem Shaped.mono {coordinator : Coordinator} (shaped : s.Shaped coordinator)
    (kept : ∀ r rt, s.runtimes r = some rt → ∃ now, t.runtimes r = some now ∧ rt.Keeps now) :
    t.Shaped coordinator := by
  -- The shape reads only the owner, and of the owner its configuration.
  refine ⟨shaped.placeholder, fun r owner => ?_⟩
  obtain ⟨rt, there, fewer, whole⟩ := shaped.owned r owner
  obtain ⟨now, still, same, good⟩ := kept r rt there
  rw [← same] at fewer whole
  exact ⟨now, still, fewer, fun now => whole (good now)⟩

/-- The shape is no matter of the executors that have left. -/
theorem Shaped.leave {exec other : CoordinatorId} {worker : Nat} {panics : Bool}
    (shaped : s.Shaped (s.shared.coordinators other)) :
    (s.leaveExecutor exec worker panics).Shaped
      ((s.leaveExecutor exec worker panics).shared.coordinators other) := by
  -- The coordinators of the same name are compared, where one executor more has left.
  refine ⟨fun owner gone => ?_, fun r owner => ?_⟩
  · rw [leaveExecutor_owner] at owner
    rw [leaveExecutor_apply]
    split
    · rename_i here
      subst here
      exact Coordinator.leave_exited_iff.mpr (.inl (shaped.placeholder owner gone))
    · exact shaped.placeholder owner gone
  · rw [leaveExecutor_owner] at owner
    rw [leaveExecutor_handles]
    exact shaped.owned r owner

/-- A step of a runtime keeps its own configuration and leaves the other runtimes alone. -/
theorem kept_setRuntime {r : RuntimeId} {rt now : Runtime} {shared : Shared}
    (there : s.runtimes r = some rt) (same : rt.Keeps now) (other : RuntimeId)
    (rt' : Runtime) (there' : s.runtimes other = some rt') :
    ∃ now', ({ s with shared := shared }.setRuntime r now).runtimes other = some now' ∧
      rt'.Keeps now' := by
  -- Either it is the runtime that took the step, or one that did not.
  rw [setRuntime_apply]
  split
  · rename_i here
    subst here
    obtain rfl := Option.some.inj (there.symm.trans there')
    exact ⟨now, rfl, same⟩
  · exact ⟨rt', there', .refl rt'⟩

/-- Building a runtime leaves the others alone. -/
theorem kept_addRuntime (known : s.Known) {fresh : Runtime} (r : RuntimeId) (rt : Runtime)
    (there : s.runtimes r = some rt) :
    ∃ now, (s.addRuntime fresh).runtimes r = some now ∧ rt.Keeps now := by
  have apart : r ≠ s.nextRuntime := Nat.ne_of_lt (known.built r rt there)
  exact ⟨rt, by simp [Process.addRuntime, setRuntime, apart, there], .refl rt⟩

/-- Sharing a channel keeps the configurations. -/
theorem kept_share {other : RuntimeId} (r : RuntimeId) (rt : Runtime)
    (there : s.runtimes r = some rt) :
    ∃ now, (s.share other).runtimes r = some now ∧ rt.Keeps now := by
  -- The runtime that shares has another channel and the same configuration.
  obtain ⟨now, still⟩ : ∃ now, (s.share other).runtimes r = some now := share_kept there
  obtain ⟨before, found, same⟩ := share_cases still
  obtain rfl := Option.some.inj (there.symm.trans found)
  rcases same with rfl | rfl
  · exact ⟨_, still, .refl _⟩
  · exact ⟨_, still, rfl, id, fun set past => ⟨set, past⟩⟩

/-- Every step keeps the shapes. -/
theorem Effect.shaped (effect : s.Effect act t) (known : s.Known)
    (shaped : ∀ exec, s.Shaped (s.shared.coordinators exec)) :
    ∀ exec, t.Shaped (t.shared.coordinators exec) := by
  -- The number of handles and the configuration of the owner are both constant.
  cases effect with
  | built => exact fun exec => (shaped exec).mono (kept_addRuntime known)
  | @builtSupplied execs other =>
    intro exec
    show ((s.share other).addRuntime (.build execs .supplied)).Shaped
      ((s.share other).shared.coordinators exec)
    rw [share_shared]
    exact ((shaped exec).mono kept_share).mono (kept_addRuntime (known.share other))
  | @stepped r step rt now shared there effect =>
    refine effect.coordinators new_shaped (fun execs pollers starts => ⟨by
        simp [Coordinator.started], fun other owner => ?_⟩)
      (fun coordinator shape => ⟨shape.placeholder, shape.owned⟩)
      fun exec => (shaped exec).mono (kept_setRuntime there effect.keeps)
    obtain rfl := Option.some.inj owner
    refine ⟨now, by simp [setRuntime], ?_, fun good => ?_⟩
    · exact effect.execs.symm ▸ starts.fewer
    · exact effect.execs.symm ▸ starts.whole good
  | executorExited => exact fun other => (shaped other).leave
  | executorCrashed => exact fun other => (shaped other).leave

/--
A runtime makes one coordinator at most, in the call of `run` that has set its flag.

Only executors of such a coordinator poll tasks, and may end with one that panics.
-/
structure MadeOnce (s : Process) : Prop where
  names : ∀ exec r, (s.shared.coordinators exec).owner = some r →
    exec < s.shared.nextCoordinator
  begun : ∀ exec r, (s.shared.coordinators exec).owner = some r → ∃ rt, s.runtimes r = some rt ∧
    rt.state = true ∧ ∀ blocking, rt.call ≠ .initializing blocking
  once : ∀ exec other r, (s.shared.coordinators exec).owner = some r →
    (s.shared.coordinators other).owner = some r → exec = other
  crashes : ∀ exec worker, (s.shared.coordinators exec).crashed worker = true →
    (s.shared.coordinators exec).owner ≠ none ∧ worker < (s.shared.coordinators exec).handles

/-- Nothing has been made before the first runtime is built. -/
theorem new_madeOnce : MadeOnce new where
  names := fun _ _ owner => by simp [new, Coordinator.new] at owner
  begun := fun _ _ owner => by simp [new, Coordinator.new] at owner
  once := fun _ _ _ owner => by simp [new, Coordinator.new] at owner
  crashes := fun _ _ crashed => by simp [new, Coordinator.new] at crashed

/-- What does not concern the coordinators leaves them as they were made. -/
theorem MadeOnce.congr (madeOnce : s.MadeOnce) (same : t.shared = s.shared)
    (kept : ∀ r rt, s.runtimes r = some rt → ∃ now, t.runtimes r = some now ∧ rt.Keeps now) :
    t.MadeOnce := by
  -- Three of the parts are about what the runtimes share, and one is about a runtime.
  refine ⟨same ▸ madeOnce.names, fun exec r owner => ?_, same ▸ madeOnce.once,
    same ▸ madeOnce.crashes⟩
  obtain ⟨rt, there, set, past⟩ := madeOnce.begun exec r (same ▸ owner)
  obtain ⟨now, still, keeps⟩ := kept r rt there
  exact ⟨now, still, keeps.begun set past⟩

/-- A step of a runtime makes a coordinator only if it has not made one before. -/
theorem MadeOnce.stepped {r : RuntimeId} {step : RuntimeStep} {rt now : Runtime} {shared : Shared}
    (madeOnce : s.MadeOnce) (orderly : rt.Orderly) (there : s.runtimes r = some rt)
    (effect : rt.Effect r s.shared step shared now) :
    ({ s with shared := shared }.setRuntime r now).MadeOnce := by
  -- What is owned afterwards was owned before, or it has just been made.
  have owned : ∀ exec owner, (shared.coordinators exec).owner = some owner →
      (s.shared.coordinators exec).owner = some owner ∨
        exec = s.shared.nextCoordinator ∧
          shared.nextCoordinator = s.shared.nextCoordinator + 1 ∧ owner = r ∧
          ∃ execs, rt.Starts now execs := by
    intro exec owner owns
    rcases effect.coordinator_cases exec with
      same | flag | ⟨new, names, made | ⟨execs, pollers, starts, made⟩⟩
    · exact .inl (same ▸ owns)
    · rw [flag] at owns
      exact .inl owns
    · rw [made] at owns
      cases owns
    · rw [made] at owns
      exact .inr ⟨new, names, (Option.some.inj owns).symm, execs, starts⟩
  -- Whoever starts executors has set its flag, and has made nothing before.
  have begins : ∀ {execs}, rt.Starts now execs → rt.state = true ∧
      ∀ exec, (s.shared.coordinators exec).owner ≠ some r := by
    rintro execs ⟨⟨blocking, before⟩, -, -, -, -⟩
    refine ⟨(orderly.starts (by rw [before]; rfl)).1, fun exec owns => ?_⟩
    obtain ⟨rt', there', -, past⟩ := madeOnce.begun exec r owns
    obtain rfl := Option.some.inj (there.symm.trans there')
    exact past blocking before
  refine ⟨fun exec owner owns => ?_, fun exec owner owns => ?_,
    fun exec other owner owns owns' => ?_, fun exec worker crashed => ?_⟩
  · rcases owned exec owner owns with before | ⟨new, names, -, -⟩
    · exact (madeOnce.names exec owner before).trans_le effect.grows.names
    · exact (new ▸ names ▸ Nat.lt_succ_self _ : exec < shared.nextCoordinator)
  · rcases owned exec owner owns with before | ⟨-, -, rfl, execs, starts⟩
    · obtain ⟨rt', there', set, past⟩ := madeOnce.begun exec owner before
      obtain ⟨now', still, keeps⟩ := kept_setRuntime there effect.keeps owner rt' there'
      exact ⟨now', still, keeps.begun set past⟩
    · exact ⟨now, by simp [setRuntime], starts.state.trans (begins starts).1, starts.after⟩
  · rcases owned exec owner owns with before | ⟨rfl, -, rfl, execs, starts⟩
    · rcases owned other owner owns' with before' | ⟨-, -, rfl, execs, starts⟩
      · exact madeOnce.once exec other owner before before'
      · exact absurd before ((begins starts).2 exec)
    · rcases owned other owner owns' with before' | ⟨rfl, -⟩
      · exact absurd before' ((begins starts).2 other)
      · rfl
  · -- Nobody has polled a task on what was just made.
    change (shared.coordinators exec).crashed worker = true at crashed
    change (shared.coordinators exec).owner ≠ none ∧ worker < (shared.coordinators exec).handles
    rcases effect.coordinator_cases exec with
      same | flag | ⟨-, -, made | ⟨execs, pollers, -, made⟩⟩
    · rw [same] at crashed ⊢
      exact madeOnce.crashes exec worker crashed
    · rw [flag] at crashed ⊢
      exact madeOnce.crashes exec worker crashed
    · simp [made, Coordinator.new] at crashed
    · simp [made, Coordinator.started] at crashed

/-- An executor that leaves was started by a runtime. -/
theorem MadeOnce.leaveExecutor {exec : CoordinatorId} {worker : Nat} {panics : Bool}
    (madeOnce : s.MadeOnce) (shaped : s.Shaped (s.shared.coordinators exec))
    (loops : (s.shared.coordinators exec).InLoop worker) :
    (s.leaveExecutor exec worker panics).MadeOnce := by
  -- Names and owners are as they were, so only who has crashed is looked at.
  refine ⟨fun other r owner => ?_, fun other r owner => ?_, fun one other r owner owner' => ?_,
    fun other gone crashed => ?_⟩
  · rw [leaveExecutor_owner] at owner
    exact madeOnce.names other r owner
  · rw [leaveExecutor_owner] at owner
    exact madeOnce.begun other r owner
  · rw [leaveExecutor_owner] at owner owner'
    exact madeOnce.once one other r owner owner'
  · rw [leaveExecutor_owner, leaveExecutor_handles]
    rw [leaveExecutor_apply] at crashed
    split at crashed
    · rename_i here
      subst here
      rcases Coordinator.leave_crashed_iff.mp crashed with before | ⟨-, rfl⟩
      · exact madeOnce.crashes other gone before
      · refine ⟨fun placeholder => ?_, loops.1⟩
        cases (shaped.placeholder placeholder gone).symm.trans loops.2.1
    · exact madeOnce.crashes other gone crashed

/-- Every step makes at most what was not made yet. -/
theorem Effect.madeOnce (effect : s.Effect act t) (known : s.Known)
    (orderly : ∀ r rt, s.runtimes r = some rt → rt.Orderly)
    (shaped : ∀ exec, s.Shaped (s.shared.coordinators exec)) (madeOnce : s.MadeOnce) :
    t.MadeOnce := by
  -- The step of a runtime is known, and the others make nothing.
  cases effect with
  | built => exact madeOnce.congr rfl (kept_addRuntime known)
  | builtSupplied =>
    exact (madeOnce.congr (share_shared s _) kept_share).congr rfl (kept_addRuntime (known.share _))
  | stepped there effect => exact madeOnce.stepped (orderly _ _ there) there effect
  | executorExited _ loops => exact madeOnce.leaveExecutor (shaped _) loops
  | executorCrashed loops => exact madeOnce.leaveExecutor (shaped _) loops

/-- The first runtime of a process starts in calm. -/
theorem Known.calm_build (known : s.Known) (first : s.nextRuntime = 0) {execs : Nat}
    {notifier : Notifier} :
    (s.addRuntime (.build execs notifier)).Calm s.nextRuntime (.build execs notifier) := by
  -- There is no other runtime, and the new one has done nothing.
  have nobody : ∀ r rt, s.runtimes r ≠ some rt :=
    fun r rt there => absurd (first ▸ known.built r rt there) (Nat.not_lt_zero r)
  refine ⟨fun _ => .inl rfl, fun exec => ?_, fun _ _ stores => (by cases stores),
    fun there => ?_, fun _ polls => (by cases polls), fun bad => (by cases bad)⟩
  · -- A flag is set by a runtime, and there was none.
    by_contra set
    obtain ⟨r, done⟩ := known.flags exec (by simpa [Process.addRuntime, setRuntime] using set)
    obtain ⟨rt, there⟩ := known.history r _ exec done
    exact nobody r rt there
  · rcases there with started | ⟨_, starting⟩
    · exact absurd rfl started
    · simp [Runtime.build] at starting

/-- In every reachable state the coordinators have their shapes. -/
theorem shaped_of_run {acts : List ProcessAction} {last : Process}
    (run : Run (Steps next) new acts last) :
    ∀ exec, last.Shaped (last.shared.coordinators exec) := by
  -- Induction on the run; that the names are known is needed of each state.
  induction run with
  | nil => exact fun _ => new_shaped
  | snoc earlier step ih => exact (step_effect step).shaped (known_of_run earlier) ih

/-- In every reachable state a runtime has made one coordinator at most. -/
theorem madeOnce_of_run {acts : List ProcessAction} {last : Process}
    (run : Run (Steps next) new acts last) : last.MadeOnce := by
  -- By induction on the run, with what else is known of reachable states.
  induction run with
  | nil => exact new_madeOnce
  | snoc earlier step ih =>
    exact (step_effect step).madeOnce (known_of_run earlier)
      (fun r rt there => (orderly_of_run earlier r rt there).1) (shaped_of_run earlier) ih

/-- The executors that have ended with a task are those of the steps in which one panics. -/
theorem Effect.crashed_iff (effect : s.Effect act t) (madeOnce : s.MadeOnce)
    (exec : CoordinatorId) (worker : Nat) :
    (t.shared.coordinators exec).crashed worker = true ↔
      (s.shared.coordinators exec).crashed worker = true ∨ act = .crashExecutor exec worker := by
  -- No effect but the crash changes who has crashed under a name that is in use.
  cases effect with
  | built => simp [addRuntime, setRuntime]
  | @builtSupplied execs other =>
    have same : ((s.share other).addRuntime (.build execs .supplied)).shared = s.shared :=
      share_shared s other
    simp [same]
  | @stepped r step rt now shared there effect =>
    change (shared.coordinators exec).crashed worker = true ↔ _
    rcases effect.coordinator_cases exec with
      same | flag | ⟨new, -, made⟩
    · simp [same]
    · simp [flag]
    · -- The name was not in use, so that nobody has panicked under it.
      have before : (s.shared.coordinators exec).crashed worker = false := by
        by_contra crashed
        obtain ⟨owned, -⟩ := madeOnce.crashes exec worker (by simpa using crashed)
        obtain ⟨r, owner⟩ := Option.ne_none_iff_exists'.mp owned
        exact absurd (madeOnce.names exec r owner) (by simp [new])
      rcases made with made | ⟨execs, pollers, -, made⟩
      · simp [made, before, Coordinator.new]
      · simp [made, before, Coordinator.started]
  | @executorExited leaving other =>
    rw [leaveExecutor_apply]
    split
    · rename_i here
      simp [here, Coordinator.leave_crashed_iff]
    · simp
  | @executorCrashed leaving other =>
    rw [leaveExecutor_apply]
    split
    · rename_i here
      subst here
      rw [Coordinator.leave_crashed_iff]
      simp [eq_comm (a := other)]
    · rename_i apart
      simp [Ne.symm apart]

/-- So it is along a run. -/
theorem crashed_iff_mem {acts : List ProcessAction} {last : Process}
    (run : Run (Steps next) new acts last) (exec : CoordinatorId) (worker : Nat) :
    (last.shared.coordinators exec).crashed worker = true ↔
      .crashExecutor exec worker ∈ acts := by
  -- By induction on the run, where one step adds one executor at most.
  induction run with
  | nil => simp [new, Coordinator.new]
  | snoc earlier step ih =>
    rw [(step_effect step).crashed_iff (madeOnce_of_run earlier), ih, List.mem_append,
      List.mem_singleton, eq_comm (a := ProcessAction.crashExecutor exec worker)]

/-- A runtime that is alone is calm until it has sent a notice. -/
theorem calm_of_run {acts : List ProcessAction} {last : Process}
    (run : Run (Steps next) new acts last) (alone : last.nextRuntime ≤ 1) :
    ∀ r rt notices, last.runtimes r = some rt → rt.notifier = .own notices → rt.sent = 0 →
      last.Calm r rt := by
  -- Induction on the run; a second runtime would break calm, and there is none.
  induction run with
  | nil =>
    intro r rt notices there
    simp [new] at there
  | @snoc acts s t act earlier step ih =>
    intro r rt notices there own silent
    have known := known_of_run earlier
    have runtimes := orderly_of_run earlier
    cases step_effect step with
    | built =>
      have first : s.nextRuntime = 0 := Nat.le_zero.mp (Nat.le_of_succ_le_succ alone)
      rcases addRuntime_cases there with ⟨rfl, rfl⟩ | old
      · exact known.calm_build first
      · exact absurd (first ▸ known.built r rt old) (Nat.not_lt_zero r)
    | @builtSupplied execs other =>
      have first : s.nextRuntime = 0 :=
        share_nextRuntime s other ▸ Nat.le_zero.mp (Nat.le_of_succ_le_succ alone)
      rcases addRuntime_cases there with ⟨-, rfl⟩ | old
      · simp [Runtime.build] at own
      · obtain ⟨before, found, -⟩ := share_cases old
        exact absurd (first ▸ known.built r before found) (Nat.not_lt_zero r)
    | @stepped other step before now shared found effect =>
      -- Both names are below one, so the step is one of the runtime itself.
      have only : ∀ r rt, s.runtimes r = some rt → r = 0 :=
        fun r rt there => Nat.lt_one_iff.mp (Nat.lt_of_lt_of_le (known.built r rt there) alone)
      rw [setRuntime_apply] at there
      split at there
      · rename_i here
        subst here
        obtain rfl := Option.some.inj there
        obtain ⟨earlierNotices, ownBefore⟩ := effect.own own
        have silentBefore : before.sent = 0 := Nat.le_zero.mp (silent ▸ effect.sent_le)
        exact (ih alone r before earlierNotices found ownBefore silentBefore).stepped
          (shaped_of_run earlier) (runtimes r before found).1 (runtimes r before found).2 found
          effect own silent
      · rename_i apart
        exact absurd ((only r rt there).trans (only other before found).symm) apart
    | executorExited flag =>
      have calm := ih alone r rt notices there own silent
      cases flag.symm.trans (calm.flags _)
    | executorCrashed =>
      exact (ih alone r rt notices there own silent).leave

end Process

section Running

variable {acts : List ProcessAction} {last : Process} {r : RuntimeId} {rt : Runtime}
  {notices : Channel Unit} {blocking : Bool}

/--
The flag is set when `run` returns, but the runtime runs only if nothing has stopped it meanwhile.

For a runtime that is alone in the process and has the channel of its builder, at each return of
`run` with no notice waiting: the slot holds a coordinator with live executors and the driver is in
its loop exactly if no notice has ever been sent, the configuration asks for executors, no call of
`run` has panicked, and no task has panicked on an executor.
-/
theorem run_returns_running_iff (run : Run (Steps Process.next) Process.new acts last)
    (alone : last.nextRuntime ≤ 1) (built : last.runtimes r = some rt)
    (own : rt.notifier = .own notices) (returning : rt.call = .returning blocking)
    (nothing : notices.queue = []) :
    rt.state = true ∧
      (last.Running rt ↔ rt.sent = 0 ∧ 0 < rt.execs ∧ rt.failed = false ∧
        ∀ exec worker, .crashExecutor exec worker ∉ acts) := by
  -- A returned `run` is past its start, so that the order of its places says what happened.
  obtain ⟨orderly, counted⟩ := Process.orderly_of_run run r rt built
  have known := Process.known_of_run run
  have madeOnce := Process.madeOnce_of_run run
  have ending : rt.call.starts = false := by rw [returning]; rfl
  have set : rt.state = true := by
    by_contra unset
    rcases (orderly.unset (by simpa using unset)).2.2 with idle | ⟨blocking', swapping⟩
    · cases returning.symm.trans idle
    · cases returning.symm.trans swapping
  -- Whatever was made in this process was made by the runtime.
  have only : ∀ exec other, (last.shared.coordinators exec).owner = some other → other = r := by
    intro exec other owner
    obtain ⟨rt', there, -⟩ := madeOnce.begun exec other owner
    have first := Nat.lt_of_lt_of_le (known.built other rt' there) alone
    have second := Nat.lt_of_lt_of_le (known.built r rt built) alone
    rw [Nat.lt_one_iff.mp first, Nat.lt_one_iff.mp second]
  refine ⟨set, fun running => ?_, fun quiet => ?_⟩
  · obtain ⟨-, some, alive, listens⟩ := running
    -- The coordinator in the slot has executors, so it is no placeholder.
    have shape := Process.shaped_of_run run last.shared.executor
    have owner : (last.shared.coordinators last.shared.executor).owner = Option.some r := by
      cases owner : (last.shared.coordinators last.shared.executor).owner with
      | none => cases (alive 0 some).2.1.symm.trans (shape.placeholder owner 0)
      | some other => rw [only _ other owner]
    refine ⟨?_, ?_, ?_, fun exec worker crashes => ?_⟩
    · -- Whatever was sent is taken, and a driver that listens has taken nothing.
      obtain ⟨-, count, -⟩ := counted notices own
      have taken : rt.driver.received = 0 := by
        cases driver : rt.driver <;> simp [driver, Driver.listens] at listens <;> rfl
      rw [count, nothing, taken]
      rfl
    · obtain ⟨rt', there, fewer, -⟩ := shape.owned r owner
      obtain rfl := Option.some.inj (built.symm.trans there)
      exact Nat.lt_of_lt_of_le some fewer
    · by_contra failed
      have driver := orderly.failed (by simpa using failed)
      simp [driver, Driver.listens] at listens
    · -- The executor is one of the coordinator in the slot, since there is no other one.
      have crashed := (Process.crashed_iff_mem run exec worker).mpr crashes
      obtain ⟨owned, inRange⟩ := madeOnce.crashes exec worker crashed
      obtain ⟨other, owner'⟩ := Option.ne_none_iff_exists'.mp owned
      have made := only exec other owner' ▸ owner'
      obtain rfl := madeOnce.once exec last.shared.executor r made owner
      cases crashed.symm.trans (alive worker inRange).2.2
  · -- Without a notice nothing was shut down: the slot and the driver are still its own.
    obtain ⟨silent, execs, succeeded, uncrashed⟩ := quiet
    have calm := Process.calm_of_run run alone r rt notices built own silent
    have started := orderly.started set succeeded ending
    have owner := calm.slot (.inl started)
    obtain ⟨rt', there, -, whole⟩ :=
      (Process.shaped_of_run run last.shared.executor).owned r owner
    obtain rfl := Option.some.inj (built.symm.trans there)
    refine ⟨calm.flags _, whole succeeded ▸ execs, fun worker inRange => ⟨inRange, ?_, ?_⟩, ?_⟩
    · -- An executor leaves its loop only after the flag was set.
      by_contra left
      have flag := known.exits last.shared.executor (by simp [owner]) worker (by simpa using left)
      cases flag.symm.trans (calm.flags _)
    · by_contra crashed
      exact uncrashed _ worker ((Process.crashed_iff_mem run _ worker).mp (by simpa using crashed))
    · have taken := (counted.silent own silent).2
      cases driver : rt.driver with
      | unstarted => exact absurd driver started
      | panicked => exact absurd (calm.panicked driver) (Nat.ne_of_gt execs)
      | loading => rfl
      | polling => rfl
      | receiving => rfl
      | exitLoading => simp [driver, Driver.received] at taken
      | exitFlagging => simp [driver, Driver.received] at taken
      | exitStoring => simp [driver, Driver.received] at taken
      | exited => simp [driver, Driver.received] at taken

/-- Run, shut down, let the driver go, and run again. -/
def runAgain : List ProcessAction :=
  [.build 1 (some 1)] ++ callOfRun 0 ++ [.step 0 .shutdown] ++
    List.replicate 4 (.step 0 (.stepShutdown 0)) ++
    List.replicate 6 (.step 0 (.stepDriver false)) ++
    [.step 0 (.run false), .step 0 .stepRun]

/-- The second call of `run` returns at once, and nothing runs. -/
theorem second_run_returns_stopped :
    ∃ s rt, Run (Steps Process.next) Process.new runAgain s ∧ s.nextRuntime = 1 ∧
      s.runtimes 0 = some rt ∧ rt.notifier = .own ⟨[], some 1, true⟩ ∧
      rt.call = .returning false ∧ rt.state = true ∧ ¬ s.Running rt := by
  -- The run is replayed; the driver has left, which is not undone by another call.
  have replayed : (replay Process.next Process.new runAgain).map (fun s =>
      s.nextRuntime == 1 && (s.runtimes 0).any fun rt =>
        rt.notifier == .own ⟨[], some 1, true⟩ && rt.call == .returning false && rt.state &&
          rt.driver == .exited) = some true := by
    decide
  obtain ⟨s, run, stopped⟩ := Run.of_replay_test replayed
  simp only [Bool.and_eq_true, Option.any_eq_true, beq_iff_eq] at stopped
  obtain ⟨alone, rt, there, ⟨⟨own, returning⟩, set⟩, exited⟩ := stopped
  refine ⟨s, rt, run, alone, there, own, returning, set, fun running => ?_⟩
  have listens := running.2.2.2
  simp [exited, Driver.listens] at listens

/-- The first call of `run` returns with the runtime running. -/
theorem first_run_returns_running :
    ∃ s rt, Run (Steps Process.next) Process.new
        ([.build 1 (some 1), .step 0 (.run false)] ++
          List.replicate 4 (.step 0 .stepRun)) s ∧
      s.runtimes 0 = some rt ∧ s.Running rt := by
  -- The run is replayed up to the return, where no notice was sent.
  have replayed : (replay Process.next Process.new ([.build 1 (some 1), .step 0 (.run false)] ++
      List.replicate 4 (.step 0 .stepRun))).map (fun s =>
      s.nextRuntime == 1 && (s.runtimes 0).any fun rt =>
        rt.notifier == .own ⟨[], some 1, true⟩ && rt.call == .returning false && rt.sent == 0 &&
          rt.execs == 1 && rt.failed == false) = some true := by
    decide
  obtain ⟨s, run, passed⟩ := Run.of_replay_test replayed
  simp only [Bool.and_eq_true, Option.any_eq_true, beq_iff_eq] at passed
  obtain ⟨alone, rt, there, ⟨⟨⟨own, returning⟩, silent⟩, execs⟩, succeeded⟩ := passed
  refine ⟨s, rt, run, there, ?_⟩
  exact (run_returns_running_iff run (Nat.le_of_eq alone) there own returning rfl).2.mpr
    ⟨silent, execs ▸ Nat.one_pos, succeeded, by simp⟩

end Running

end Imputio
