import Imputio.Runtime.Ownership

/-! When `shutdown` stops the threads of its runtime: it has to find their coordinator. -/

namespace Imputio

open Transition

/-- The coordinator that `run` has made and is about to store. -/
def RunCall.stores : RunCall → Option CoordinatorId
  | .storing _ exec => some exec
  | _ => none

/-- No thread of the runtime has a coordinator that it is going to use. -/
def Runtime.Free (rt : Runtime) (exec : CoordinatorId) : Prop :=
  rt.driver.holds ≠ some exec ∧ rt.call.stores ≠ some exec ∧
    ∀ call < rt.nextShutdown, rt.shutdowns call ≠ .flagging exec

instance (rt : Runtime) (exec : CoordinatorId) : Decidable (rt.Free exec) :=
  inferInstanceAs (Decidable (_ ∧ _ ∧ _))

/-- A thread of the runtime is about to set the flag of a coordinator. -/
def Runtime.Flags (rt : Runtime) (exec : CoordinatorId) : Prop :=
  rt.driver = .exitFlagging exec ∨ ∃ call, rt.shutdowns call = .flagging exec

/-- The calls borrow the runtime: `run` exclusively, and the calls of `shutdown` share it. -/
structure Runtime.Borrowed (rt : Runtime) : Prop where
  fresh : ∀ call, rt.nextShutdown ≤ call → rt.shutdowns call = .unused
  alone : rt.call ≠ .idle → ∀ call < rt.nextShutdown, rt.shutdowns call = .returned

namespace Runtime

variable {r : RuntimeId} {shared shared' : Shared} {rt rt' : Runtime} {step : RuntimeStep}
  {call : ShutdownId}

/-- A new runtime is not borrowed. -/
theorem build_borrowed (execs : Nat) (notifier : Notifier) : (build execs notifier).Borrowed where
  fresh := fun _ _ => rfl
  alone := fun busy => absurd rfl busy

/-- Only the calls themselves matter. -/
theorem Borrowed.congr (borrowed : rt.Borrowed) (shutdowns : rt'.shutdowns = rt.shutdowns)
    (names : rt'.nextShutdown = rt.nextShutdown) (busy : rt'.call ≠ .idle → rt.call ≠ .idle) :
    rt'.Borrowed where
  -- Both parts are read off the calls, which are the same.
  fresh := fun call new => by
    rw [shutdowns]
    exact borrowed.fresh call (names ▸ new)
  alone := fun calls call old => by
    rw [shutdowns]
    exact borrowed.alone (busy calls) call (names ▸ old)

/-- While `run` goes on, no call of `shutdown` is in progress. -/
theorem Borrowed.not_running (borrowed : rt.Borrowed) (begun : rt.shutdowns call ≠ .unused)
    (unfinished : rt.shutdowns call ≠ .returned) : rt.call = .idle ∧ call < rt.nextShutdown := by
  -- A call that was never made has an unused name, and `run` excludes all others.
  have old : call < rt.nextShutdown := by
    by_contra new
    exact begun (borrowed.fresh call (Nat.not_lt.mp new))
  refine ⟨?_, old⟩
  by_contra busy
  exact unfinished (borrowed.alone busy call old)

/-- A call of `shutdown` that is in progress may go on. -/
theorem Borrowed.moved (borrowed : rt.Borrowed) (now : ShutdownCall)
    (begun : rt.shutdowns call ≠ .unused) (unfinished : rt.shutdowns call ≠ .returned) :
    (rt.setShutdown call now).Borrowed := by
  -- While a call of `shutdown` is in progress no `run` is, and the number of the call is in use.
  obtain ⟨idle, old⟩ := borrowed.not_running begun unfinished
  refine ⟨fun other new => ?_, fun busy => absurd idle busy⟩
  have apart : other ≠ call := (Nat.lt_of_lt_of_le old new).ne'
  simp only [setShutdown, Function.update_of_ne apart]
  exact borrowed.fresh other new

/-- A call of `shutdown` may begin while `run` is not in progress. -/
theorem Borrowed.called (borrowed : rt.Borrowed) (idle : rt.call = .idle) :
    rt.callShutdown.Borrowed := by
  -- Its name is new, and the names beyond it stay unused.
  refine ⟨fun other new => ?_, fun busy => absurd idle busy⟩
  have apart : other ≠ rt.nextShutdown := (Nat.lt_of_succ_le new).ne'
  simp only [callShutdown, setShutdown, Function.update_of_ne apart]
  exact borrowed.fresh other (Nat.le_of_succ_le new)

/-- Every step respects the borrows. -/
theorem Effect.borrowed (effect : rt.Effect r shared step shared' rt') (borrowed : rt.Borrowed) :
    rt'.Borrowed := by
  -- `run` begins when all calls have returned, and while it goes on none can begin.
  cases effect with
  | runCalled unused =>
    exact ⟨borrowed.fresh, fun _ => unused.2.2⟩
  | shutdownCalled idle => exact borrowed.called idle
  | dropped unused => exact (borrowed.called unused.1).congr rfl rfl id
  | noticeSent before sent =>
    refine Borrowed.moved (borrowed.congr ?_ ?_ ?_) _ ?_ ?_ <;> rw [send_rest sent] <;>
      simp [before]
  | slotLoaded before => exact borrowed.moved _ (by simp [before]) (by simp [before])
  | flagged before => exact borrowed.moved _ (by simp [before]) (by simp [before])
  | cleared before => exact borrowed.moved _ (by simp [before]) (by simp [before])
  | notified _ sent =>
    refine borrowed.congr ?_ ?_ ?_ <;> rw [send_rest sent]
    exact id
  | noticed _ taken =>
    refine borrowed.congr ?_ ?_ ?_ <;> rw [tryRecv_rest taken]
    exact id
  | swapped before => exact borrowed.congr rfl rfl fun _ => by simp [before]
  | created before => exact borrowed.congr rfl rfl fun _ => by simp [before]
  | stored before => exact borrowed.congr rfl rfl fun _ => by simp [before]
  | started before => exact borrowed.congr rfl rfl fun _ => by simp [before]
  | failed => exact borrowed.congr rfl rfl fun busy => absurd rfl busy
  | abandoned => exact borrowed.congr rfl rfl fun busy => absurd rfl busy
  | returned before => exact borrowed.congr rfl rfl fun _ => by simp [before]
  | unblocked => exact borrowed.congr rfl rfl fun busy => absurd rfl busy
  | _ => exact borrowed.congr rfl rfl id

/-- A flag that is set stays set. -/
theorem Effect.flag_kept (effect : rt.Effect r shared step shared' rt') {exec : CoordinatorId}
    (made : exec < shared.nextCoordinator) (flag : (shared.coordinators exec).shutdown = true) :
    (shared'.coordinators exec).shutdown = true := by
  -- A new coordinator gets a new name, and nothing but the flag is ever updated.
  have apart : exec ≠ shared.nextCoordinator := Nat.ne_of_lt made
  have shut : ∀ other, ((shared.shutdown r other).coordinators exec).shutdown = true := by
    intro other
    by_cases here : exec = other
    · simp [Shared.shutdown, here]
    · simpa [Shared.shutdown, Shared.act, here] using flag
  cases effect with
  | created => simpa [Shared.create, apart] using flag
  | abandoned => simpa [Shared.create, apart] using flag
  | flagged => exact shut _
  | exitFlagged => exact shut _
  | cleared => simpa [Shared.clear, Shared.create, Shared.act, Shared.store, apart] using flag
  | exitCleared => simpa [Shared.clear, Shared.create, Shared.act, Shared.store, apart] using flag
  | _ => exact flag

/-- What nobody has of the runtime's threads, and is not in the slot, they do not get either. -/
theorem Effect.free {exec : CoordinatorId} (effect : rt.Effect r shared step shared' rt')
    (borrowed : rt.Borrowed) (free : rt.Free exec) (old : exec < shared.nextCoordinator)
    (apart : shared.executor ≠ exec) :
    rt'.Free exec ∧ shared'.executor ≠ exec ∧ exec < shared'.nextCoordinator := by
  -- A thread gets a coordinator from the slot, or it makes a new one.
  obtain ⟨driver, stores, flagging⟩ := free
  refine ⟨⟨fun holds => ?_, fun storing => ?_, fun call _ holds => ?_⟩, fun slot => ?_,
    old.trans_le effect.grows.names⟩
  · rcases effect.driver_holds holds with before | ⟨-, found⟩
    · exact driver before
    · exact apart found.symm
  · -- What `run` is about to store is new.
    cases effect with
    | created =>
      obtain rfl := Option.some.inj storing
      exact Nat.lt_irrefl _ old
    | swapped before =>
      cases set : rt.state <;> simp [set, RunCall.stores] at storing
    | @returned blocking before => cases blocking <;> simp [RunCall.stores] at storing
    | noticeSent _ sent =>
      rw [send_rest sent] at storing
      exact stores storing
    | noticed _ taken =>
      rw [tryRecv_rest taken] at storing
      exact stores storing
    | notified _ sent =>
      rw [send_rest sent] at storing
      exact stores storing
    | _ => first | exact stores storing | simp [RunCall.stores] at storing
  · rcases effect.shutdown_holds holds with before | ⟨-, found⟩
    · by_cases made : call < rt.nextShutdown
      · exact flagging call made before
      · simp [borrowed.fresh call (Nat.not_lt.mp made)] at before
    · exact apart found.symm
  · rcases effect.slot with same | ⟨blocking, storing⟩ | ⟨new, -⟩
    · exact apart (same.symm.trans slot)
    · exact stores (by rw [storing, slot]; rfl)
    · exact Nat.ne_of_lt old (slot.symm.trans new)

/-- A flag that no thread of the runtime is about to set stays as it is. -/
theorem Effect.unflagged (effect : rt.Effect r shared step shared' rt') {exec : CoordinatorId}
    (old : exec < shared.nextCoordinator) (kept : ¬ rt.Flags exec) :
    (shared'.coordinators exec).shutdown = (shared.coordinators exec).shutdown := by
  -- Flags are set in two of the effects, and each of them sets the one of a coordinator it has.
  have apart : exec ≠ shared.nextCoordinator := Nat.ne_of_lt old
  have shut : ∀ other, rt.Flags other →
      ((shared.shutdown r other).coordinators exec).shutdown =
        (shared.coordinators exec).shutdown := by
    rintro other flags
    have other : exec ≠ other := by
      rintro rfl
      exact kept flags
    simp [Shared.shutdown, Shared.act, other]
  cases effect with
  | created => simp [Shared.create, apart]
  | abandoned => simp [Shared.create, apart]
  | flagged before => exact shut _ (.inr ⟨_, before⟩)
  | exitFlagged before => exact shut _ (.inl before)
  | cleared => simp [Shared.clear, Shared.create, Shared.act, Shared.store, apart]
  | exitCleared => simp [Shared.clear, Shared.create, Shared.act, Shared.store, apart]
  | _ => rfl

/-- Whoever does not have a coordinator is not about to set its flag. -/
theorem Free.not_flags {exec : CoordinatorId} (free : rt.Free exec) (borrowed : rt.Borrowed) :
    ¬ rt.Flags exec := by
  -- The driver and the calls of `shutdown` are the only ones that set flags.
  rintro (exits | ⟨call, flags⟩)
  · exact free.1 (by rw [exits]; rfl)
  · -- A call that is on its way was made.
    by_cases made : call < rt.nextShutdown
    · exact free.2.2 call made flags
    · simp [borrowed.fresh call (Nat.not_lt.mp made)] at flags

/-- A coordinator with an owner is an old one, or the owner makes it in `run`. -/
theorem Effect.made_cases (effect : rt.Effect r shared step shared' rt') {exec : CoordinatorId}
    {owner : RuntimeId} (made : exec < shared'.nextCoordinator)
    (owned : (shared'.coordinators exec).owner = some owner) :
    exec < shared.nextCoordinator ∨
      owner = r ∧ rt.call ≠ .idle ∧ rt'.shutdowns = rt.shutdowns := by
  -- Two more kinds of steps make a coordinator, but a placeholder, which nobody owns.
  have placed : exec < shared.nextCoordinator + 1 →
      ((Function.update shared.coordinators shared.nextCoordinator .new) exec).owner =
        some owner → exec < shared.nextCoordinator := by
    intro bounded owned
    by_contra new
    obtain rfl := Nat.le_antisymm (Nat.le_of_lt_succ bounded) (Nat.not_lt.mp new)
    simp [Coordinator.new] at owned
  -- Whoever starts executors does so in a call of `run`.
  have started : ∀ {execs pollers blocking}, rt.call = .initializing blocking →
      exec < shared.nextCoordinator + 1 →
      ((shared.create (.started r execs pollers)).coordinators exec).owner = some owner →
        exec < shared.nextCoordinator ∨ owner = r ∧ rt.call ≠ .idle := by
    intro execs pollers blocking before bounded owned
    rcases Nat.lt_succ_iff_lt_or_eq.mp bounded with old | rfl
    · exact .inl old
    · have same : some r = some owner := by
        simpa [Shared.create, Coordinator.started] using owned
      exact .inr ⟨(Option.some.inj same).symm, by simp [before]⟩
  cases effect with
  | created before =>
    exact (started before made owned).imp id fun new => ⟨new.1, new.2, rfl⟩
  | abandoned before =>
    exact (started before made owned).imp id fun new => ⟨new.1, new.2, rfl⟩
  | cleared => exact .inl (placed made owned)
  | exitCleared => exact .inl (placed made owned)
  | _ => exact .inl made

end Runtime

namespace Process

/-- Where a call of `shutdown` on a runtime is. -/
def shutdownCall (s : Process) (r : RuntimeId) (call : ShutdownId) : ShutdownCall :=
  (s.runtimes r).elim .unused fun rt => rt.shutdowns call

/-- The `run` of the runtime has made the coordinator. -/
def Made (s : Process) (r : RuntimeId) (exec : CoordinatorId) : Prop :=
  exec < s.shared.nextCoordinator ∧ (s.shared.coordinators exec).owner = some r

instance (s : Process) (r : RuntimeId) (exec : CoordinatorId) : Decidable (s.Made r exec) :=
  inferInstanceAs (Decidable (_ ∧ _))

/-- The call of `shutdown` that takes a step. -/
def shutdownStep : ProcessAction → Option (RuntimeId × ShutdownId)
  | .step r (.stepShutdown call) => some (r, call)
  | _ => none

/-- Only a step of a call is one. -/
theorem shutdownStep_eq_some {act : ProcessAction} {r : RuntimeId} {call : ShutdownId} :
    shutdownStep act = some (r, call) ↔ act = .step r (.stepShutdown call) := by
  -- The test has one arm for this step and a last one for all others.
  constructor
  · intro own
    unfold shutdownStep at own
    split at own
    · simpa using own
    · simp at own
  · rintro rfl
    rfl

/-- A call that is about to load the slot is one of a runtime that was built. -/
theorem shutdownCall_loading {s : Process} {r : RuntimeId} {call : ShutdownId}
    (loading : s.shutdownCall r call = .loading) :
    ∃ rt, s.runtimes r = some rt ∧ rt.shutdowns call = .loading := by
  -- Without a runtime there is no call.
  cases there : s.runtimes r with
  | none => simp [shutdownCall, there] at loading
  | some rt => exact ⟨rt, rfl, by simpa [shutdownCall, there] using loading⟩

/--
A call of `shutdown` that loads the slot finds the coordinator of its own runtime there.

Every coordinator of the runtime counts, one that a failed start has left behind as well. Where
another thread has already set the flag, it does not matter what the slot holds.
-/
def FindsOwn (s : Process) (act : ProcessAction) : Prop :=
  ∀ caller ∈ shutdownStep act, s.shutdownCall caller.1 caller.2 = .loading →
    ∀ exec < s.shared.nextCoordinator, (s.shared.coordinators exec).owner = some caller.1 →
      s.shared.executor = exec ∨ (s.shared.coordinators exec).shutdown = true

instance (s : Process) (act : ProcessAction) : Decidable (s.FindsOwn act) :=
  inferInstanceAs (Decidable (∀ caller ∈ shutdownStep act, _))

/-- A call that misses the coordinator of its runtime is about to load another one. -/
theorem missed_cases {s : Process} {act : ProcessAction} (missed : ¬ s.FindsOwn act) :
    ∃ r call exec rt, act = .step r (.stepShutdown call) ∧ s.runtimes r = some rt ∧
      rt.shutdowns call = .loading ∧ s.Made r exec ∧ exec ≠ s.shared.executor ∧
      (s.shared.coordinators exec).shutdown = false := by
  -- The condition fails at some coordinator, which is the one that is missed.
  simp only [FindsOwn, not_forall, not_or] at missed
  obtain ⟨⟨r, call⟩, own, loading, exec, old, owned, apart, unset⟩ := missed
  obtain ⟨rt, there, place⟩ := shutdownCall_loading loading
  exact ⟨r, call, exec, rt, shutdownStep_eq_some.mp own, there, place, ⟨old, owned⟩,
    Ne.symm apart, by simpa using unset⟩

/-- What a step of a process does to a call of `shutdown`. -/
inductive Moves (s : Process) (act : ProcessAction) (t : Process) (r : RuntimeId)
    (call : ShutdownId) : ShutdownCall → ShutdownCall → Prop
  | stays (now : ShutdownCall) : Moves s act t r call now now
  | called : Moves s act t r call .unused .sending
  | sent : Moves s act t r call .sending .loading
  | loaded (own : act = .step r (.stepShutdown call)) :
      Moves s act t r call .loading (.flagging s.shared.executor)
  | flagged {exec : CoordinatorId} (flag : (t.shared.coordinators exec).shutdown = true) :
      Moves s act t r call (.flagging exec) .storing
  | cleared : Moves s act t r call .storing .returned

variable {s t : Process} {act : ProcessAction} {r : RuntimeId} {call : ShutdownId}
  {exec : CoordinatorId}

/-- The names are in order, and the calls borrow their runtimes. -/
structure Sound (s : Process) : Prop where
  known : s.Known
  borrowed : ∀ r rt, s.runtimes r = some rt → rt.Borrowed

/-- In every reachable state the names are in order, and the calls borrow their runtimes. -/
theorem sound_of_run {acts : List ProcessAction} {last : Process}
    (run : Run (Steps next) new acts last) : last.Sound where
  known := known_of_run run
  borrowed := runtimes_invariant run (fun _ _ => Runtime.build_borrowed _ _)
    (fun _ => Runtime.build_borrowed _ _) (fun _ before => before.congr rfl rfl id)
    fun _ _ _ _ _ _ before effect => effect.borrowed before

/-- A call that is moved on goes there, and the other calls stay. -/
theorem moves_setShutdown {rt : Runtime} {now : ShutdownCall} {moved : ShutdownId}
    (goes : call = moved → Moves s act t r call (rt.shutdowns call) now) :
    Moves s act t r call (rt.shutdowns call) ((rt.setShutdown moved now).shutdowns call) := by
  -- Calls have names, so that only one of them is moved.
  have after : (rt.setShutdown moved now).shutdowns call =
      if call = moved then now else rt.shutdowns call := Function.update_apply ..
  rw [after]
  split
  · rename_i here
    exact goes here
  · exact .stays _

/-- The calls of `shutdown` of a runtime move on in its own steps. -/
theorem moves_stepped {step : RuntimeStep} {rt now : Runtime} {shared : Shared}
    (borrowed : rt.Borrowed) (effect : rt.Effect r s.shared step shared now)
    (same : t.shared = shared) :
    Moves s (.step r step) t r call (rt.shutdowns call) (now.shutdowns call) := by
  -- A new call gets a name that was not in use, and a step of a call concerns that call.
  have begins : Moves s (.step r step) t r call (rt.shutdowns call)
      (rt.callShutdown.shutdowns call) := by
    refine moves_setShutdown fun here => ?_
    rw [here, borrowed.fresh _ (Nat.le_refl _)]
    exact .called
  cases effect with
  | shutdownCalled => exact begins
  | dropped => exact begins
  | @noticeSent moved after before sent =>
    have kept : after.shutdowns = rt.shutdowns := by rw [Runtime.send_rest sent]
    rw [← kept] at before ⊢
    refine moves_setShutdown fun here => ?_
    rw [here, before]
    exact .sent
  | slotLoaded before =>
    refine moves_setShutdown fun here => ?_
    rw [here, before]
    exact .loaded rfl
  | flagged before =>
    refine moves_setShutdown fun here => ?_
    rw [here, before]
    exact .flagged (by simp [same, Shared.shutdown])
  | cleared before =>
    refine moves_setShutdown fun here => ?_
    rw [here, before]
    exact .cleared
  | notified _ sent =>
    rw [Runtime.send_rest sent]
    exact .stays _
  | noticed _ taken =>
    rw [Runtime.tryRecv_rest taken]
    exact .stays _
  | _ => exact .stays _

/-- A new runtime has not been told to shut down. -/
theorem shutdownCall_addRuntime {execs : Nat} {notifier : Notifier} (known : s.Known) :
    (s.addRuntime (.build execs notifier)).shutdownCall r call = s.shutdownCall r call := by
  -- A call of another runtime is looked up where it was.
  rw [shutdownCall, shutdownCall, addRuntime, setRuntime_apply]
  split
  · rename_i here
    -- No runtime had the new name before.
    cases there : s.runtimes r with
    | none => rfl
    | some rt => exact absurd (here ▸ known.built r rt there) (Nat.lt_irrefl _)
  · rfl

/-- Sharing the channel of a runtime is no matter of its calls. -/
theorem shutdownCall_share (other : RuntimeId) :
    (s.share other).shutdownCall r call = s.shutdownCall r call := by
  -- Sharing replaces the channel of one runtime and nothing else of it.
  rw [shutdownCall, shutdownCall, share]
  split
  · rename_i rt there
    rw [setRuntime_apply]
    split
    · rename_i here
      rw [here, there]
      rfl
    · rfl
  · rfl

/-- Every step moves each call of `shutdown` on, or leaves it where it is. -/
theorem Effect.moves (effect : s.Effect act t) (sound : s.Sound) :
    s.Moves act t r call (s.shutdownCall r call) (t.shutdownCall r call) := by
  -- A step of one runtime leaves the calls of the others where they are.
  cases effect with
  | built =>
    rw [shutdownCall_addRuntime sound.known]
    exact .stays _
  | builtSupplied =>
    rw [shutdownCall_addRuntime (sound.known.share _), shutdownCall_share]
    exact .stays _
  | @stepped stepping step rt now shared there effect =>
    rw [shutdownCall, shutdownCall, setRuntime_apply]
    split
    · rename_i here
      subst here
      rw [there]
      exact moves_stepped (sound.borrowed r rt there) effect rfl
    · exact .stays _
  | executorExited => exact .stays _
  | executorCrashed => exact .stays _

/-- A coordinator keeps its owner, and its flag once that is set. -/
theorem Effect.coordinator_kept (effect : s.Effect act t) (made : s.Made r exec) :
    t.Made r exec ∧
      ((s.shared.coordinators exec).shutdown = true →
        (t.shared.coordinators exec).shutdown = true) := by
  -- Neither a new runtime nor an executor that leaves touches an owner or a flag.
  cases effect with
  | built => exact ⟨made, id⟩
  | @builtSupplied execs other =>
    have same : ((s.share other).addRuntime (.build execs .supplied)).shared = s.shared :=
      share_shared s other
    rw [Made, same]
    exact ⟨made, id⟩
  -- Names and owners only grow, whatever a runtime does.
  | stepped there effect =>
    have grows := effect.grows
    refine ⟨⟨Nat.lt_of_lt_of_le made.1 grows.names, ?_⟩, effect.flag_kept made.1⟩
    exact (grows.owners exec made.1).trans made.2
  | executorExited =>
    rw [Made, leaveExecutor_owner, leaveExecutor_shutdown]
    exact ⟨made, id⟩
  | executorCrashed =>
    rw [Made, leaveExecutor_owner, leaveExecutor_shutdown]
    exact ⟨made, id⟩

/-- No name is given back. -/
theorem Effect.names (effect : s.Effect act t) :
    s.shared.nextCoordinator ≤ t.shared.nextCoordinator := by
  -- Only the step of a runtime makes a name.
  cases effect with
  | @builtSupplied execs other =>
    have same : ((s.share other).addRuntime (.build execs .supplied)).shared = s.shared :=
      share_shared s other
    rw [same]
  | stepped _ effect => exact effect.grows.names
  | _ => exact Nat.le_refl _

/-- What `run` makes in a step was not there when the calls in progress began. -/
theorem Effect.made_cases (effect : s.Effect act t) (sound : s.Sound) (made : t.Made r exec)
    (begun : t.shutdownCall r call ≠ .unused) (unfinished : t.shutdownCall r call ≠ .returned) :
    s.Made r exec := by
  -- The one step that makes a coordinator is a step of `run`, which excludes the call.
  cases effect with
  | built => exact made
  | @builtSupplied execs other =>
    have same : ((s.share other).addRuntime (.build execs .supplied)).shared = s.shared :=
      share_shared s other
    rw [Made, same] at made
    exact made
  | @stepped stepping step rt now shared there effect =>
    obtain ⟨bounded, owned⟩ := made
    rcases effect.made_cases bounded owned with old | ⟨rfl, busy, same⟩
    · exact ⟨old, (effect.grows.owners exec old).symm.trans owned⟩
    · -- No call of `shutdown` is in progress while `run` makes a coordinator.
      rw [shutdownCall, setRuntime_apply, if_pos rfl, Option.elim_some, same] at begun unfinished
      exact absurd ((sound.borrowed r rt there).not_running begun unfinished).1 busy
  | executorExited =>
    rw [Made, leaveExecutor_owner] at made
    exact made
  | executorCrashed =>
    rw [Made, leaveExecutor_owner] at made
    exact made

/-- A call of `shutdown` takes its next step. -/
theorem stepShutdown_steps {rt now : Runtime} {shared : Shared} (there : s.runtimes r = some rt)
    (taken : rt.stepShutdown r call s.shared = some (shared, now)) :
    Steps next s (.step r (.stepShutdown call)) ({ s with shared := shared }.setRuntime r now) := by
  simp [Steps, next, there, Runtime.next, taken]

/-- A call that is about to load the slot may return next, and sets no other flag. -/
theorem returns_after_load {rt : Runtime} (there : s.runtimes r = some rt)
    (loading : rt.shutdowns call = .loading) :
    ∃ t u v, Steps next s (.step r (.stepShutdown call)) t ∧
      Steps next t (.step r (.stepShutdown call)) u ∧
      Steps next u (.step r (.stepShutdown call)) v ∧ v.shutdownCall r call = .returned ∧
      ∀ exec < s.shared.nextCoordinator, exec ≠ s.shared.executor →
        (v.shared.coordinators exec).shutdown = (s.shared.coordinators exec).shutdown := by
  -- It loads the slot, sets the flag of what it has loaded, and replaces what the slot holds.
  have load : rt.stepShutdown r call s.shared =
      some (s.shared, rt.setShutdown call (.flagging s.shared.executor)) := by
    simp [Runtime.stepShutdown, loading]
  have flag : ∀ {shared : Shared} {rt : Runtime} {exec : CoordinatorId},
      (rt.setShutdown call (.flagging exec)).stepShutdown r call shared =
        some (shared.shutdown r exec, (rt.setShutdown call (.flagging exec)).setShutdown call
          .storing) := by
    simp [Runtime.stepShutdown, Runtime.setShutdown]
  have clear : ∀ {shared : Shared} {rt : Runtime},
      (rt.setShutdown call .storing).stepShutdown r call shared =
        some (shared.clear r, (rt.setShutdown call .storing).setShutdown call .returned) := by
    simp [Runtime.stepShutdown, Runtime.setShutdown]
  refine ⟨_, _, _, stepShutdown_steps there load, stepShutdown_steps (Function.update_self ..) flag,
    stepShutdown_steps (Function.update_self ..) clear, ?_, fun exec old apart => ?_⟩
  · simp [shutdownCall, setRuntime, Runtime.setShutdown]
  · have named : exec ≠ s.shared.nextCoordinator := Nat.ne_of_lt old
    simp [setRuntime, Shared.clear, Shared.create, Shared.act, Shared.store, Shared.shutdown, apart,
      named]

/-- A coordinator that was made has left the slot, or was never there, and no runtime has it. -/
def Unreachable (s : Process) (exec : CoordinatorId) : Prop :=
  exec < s.shared.nextCoordinator ∧ s.shared.executor ≠ exec ∧
    ∀ r rt, s.runtimes r = some rt → rt.Free exec

/-- What no runtime has stays so, and nobody sets its flag. -/
theorem Effect.unreachable (effect : s.Effect act t) (sound : s.Sound)
    (unreachable : s.Unreachable exec) :
    t.Unreachable exec ∧
      (t.shared.coordinators exec).shutdown = (s.shared.coordinators exec).shutdown := by
  -- A new runtime has nothing, and an old one gets only what is new or in the slot.
  obtain ⟨old, apart, free⟩ := unreachable
  have fresh : ∀ {execs notifier}, (Runtime.build execs notifier).Free exec := by
    intro execs notifier
    exact ⟨by simp [Runtime.build, Driver.holds], by simp [Runtime.build, RunCall.stores],
      by simp [Runtime.build]⟩
  cases effect with
  | built =>
    refine ⟨⟨old, apart, fun r rt there => ?_⟩, rfl⟩
    rcases addRuntime_cases there with ⟨-, rfl⟩ | before
    · exact fresh
    · exact free r rt before
  | @builtSupplied execs other =>
    have same : ((s.share other).addRuntime (.build execs .supplied)).shared = s.shared :=
      share_shared s other
    rw [Unreachable, same]
    refine ⟨⟨old, apart, fun r rt there => ?_⟩, rfl⟩
    rcases addRuntime_cases there with ⟨-, rfl⟩ | before
    · exact fresh
    · obtain ⟨earlier, found, rfl | rfl⟩ := share_cases before
      · exact free r _ found
      · exact free r earlier found
  | @stepped r step rt now shared there effect =>
    have borrowed := sound.borrowed r rt there
    obtain ⟨free', apart', old'⟩ := effect.free borrowed (free r rt there) old apart
    refine ⟨⟨old', apart', fun other rt' found => ?_⟩,
      effect.unflagged old ((free r rt there).not_flags borrowed)⟩
    rw [setRuntime_apply] at found
    split at found
    · obtain rfl := Option.some.inj found
      exact free'
    · exact free other rt' found
  | executorExited => exact ⟨⟨old, apart, free⟩, leaveExecutor_shutdown ..⟩
  | executorCrashed => exact ⟨⟨old, apart, free⟩, leaveExecutor_shutdown ..⟩

/-- The threads that a panic of `run` leaves behind have a flag that nobody has. -/
theorem Sound.abandoned (sound : s.Sound) {rt : Runtime} {execs : Nat} {poller blocking : Bool}
    (there : s.runtimes r = some rt) (initializing : rt.call = .initializing blocking)
    (some : 0 < execs ∨ poller = true) (step : Steps next s (.step r (.failRun execs poller)) t) :
    t.Made r s.shared.nextCoordinator ∧ t.Unreachable s.shared.nextCoordinator ∧
      (t.shared.coordinators s.shared.nextCoordinator).shutdown = false := by
  -- The name is new, so that nobody has it, and the call that has made it is over.
  have known := sound.known
  have free : ∀ r rt, s.runtimes r = Option.some rt →
      rt.driver.holds ≠ Option.some s.shared.nextCoordinator ∧
        rt.call.stores ≠ Option.some s.shared.nextCoordinator ∧
        ∀ call < rt.nextShutdown, rt.shutdowns call ≠ .flagging s.shared.nextCoordinator := by
    intro r rt there
    refine ⟨fun holds => ?_, fun stores => ?_, fun call _ flags => ?_⟩
    · exact Nat.lt_irrefl _ (known.acts r rt _ there (.inl (.inl holds)))
    · cases call : rt.call with
      | storing blocking exec =>
        rw [call] at stores
        obtain rfl := Option.some.inj stores
        exact Nat.lt_irrefl _ (known.stores r rt blocking _ there call)
      | _ => simp [call, RunCall.stores] at stores
    · exact Nat.lt_irrefl _ (known.acts r rt _ there (.inl (.inr ⟨call, flags⟩)))
  cases step_effect step with
  | @stepped r step rt' now shared there' effect =>
    obtain rfl := Option.some.inj (there.symm.trans there')
    cases effect with
    | failed before =>
      rcases before with ⟨-, rfl, rfl⟩ | before
      · simp at some
      · cases initializing.symm.trans before
    | abandoned =>
      refine ⟨⟨Nat.lt_succ_self _, ?_⟩, ⟨Nat.lt_succ_self _, Nat.ne_of_lt known.slot,
        fun other rt' found => ?_⟩, ?_⟩
      · simp [setRuntime, Shared.create, Coordinator.abandoned, Coordinator.started]
      · rw [setRuntime_apply] at found
        split at found
        · obtain rfl := Option.some.inj found
          obtain ⟨driver, -, flagging⟩ := free r rt there
          exact ⟨driver, by simp [RunCall.stores], flagging⟩
        · exact free other rt' found
      · simp [setRuntime, Shared.create, Coordinator.abandoned, Coordinator.started]

/-- The call has not yet loaded another coordinator, or the flag is set anyway. -/
def Pending (s : Process) (r : RuntimeId) (exec : CoordinatorId) (call : ShutdownId) : Prop :=
  (s.shared.coordinators exec).shutdown = true ∨
    s.shutdownCall r call ∈ [.unused, .sending, .loading, .flagging exec]

/-- A call that finds the coordinator of its runtime sets the flag before it returns. -/
theorem Effect.pending (effect : s.Effect act t) (sound : s.Sound) (finds : s.FindsOwn act)
    (made : s.Made r exec) (pending : s.Pending r exec call) : t.Pending r exec call := by
  -- Either the flag is set already, or the place of the call is followed.
  have kept := (effect.coordinator_kept made).2
  -- A flag that is set stays set, whatever the call does.
  rcases pending with flag | early
  · exact .inl (kept flag)
  -- The call goes through its places in order, and sets the flag of what it has loaded.
  have moves : s.Moves act t r call _ _ := effect.moves sound
  generalize before : s.shutdownCall r call = place at moves early
  generalize after : t.shutdownCall r call = place' at moves
  rw [Pending, after]
  cases moves with
  | stays => exact .inr early
  | called => simp
  | sent => simp
  | loaded own =>
    subst own
    rcases finds (r, call) rfl before exec made.1 made.2 with here | flag
    · simp [here]
    · exact .inl (kept flag)
  | flagged flag =>
    obtain rfl : _ = exec := by simpa using early
    exact .inl flag
  | cleared => simp at early

end Process

/-- A process, and the poller threads that `ExecHandle::initialize` starts beside the executors. -/
structure ThreadedProcess where
  process : Process
  -- Which pollers have ended, as the coordinators know it of their executors.
  exited : CoordinatorId → Nat → Bool

/-- One atomic step of a process or of a poller thread. -/
inductive ThreadedAction where
  | process (act : ProcessAction)
  | exitPoller (exec : CoordinatorId) (worker : Nat)
  -- An event whose token has another entry by now makes the poller panic.
  | crashPoller (exec : CoordinatorId) (worker : Nat)
  deriving DecidableEq, Repr

namespace ThreadedProcess

/-- A process that has not built a runtime yet. -/
def new : ThreadedProcess where
  process := .new
  exited := fun _ _ => false

/-- The poller thread was started and is still in its loop. -/
def PollerLoops (s : ThreadedProcess) (exec : CoordinatorId) (worker : Nat) : Prop :=
  worker < (s.process.shared.coordinators exec).pollers ∧ s.exited exec worker = false

instance (s : ThreadedProcess) (exec : CoordinatorId) (worker : Nat) :
    Decidable (s.PollerLoops exec worker) :=
  inferInstanceAs (Decidable (_ ∧ _))

/-- `PollerActor::run`: a poller thread leaves its loop. -/
def exitPoller (s : ThreadedProcess) (exec : CoordinatorId) (worker : Nat) : ThreadedProcess :=
  { s with exited := Function.update s.exited exec (Function.update (s.exited exec) worker true) }

/-- What each action does, where it is possible. -/
def next (s : ThreadedProcess) : ThreadedAction → Option ThreadedProcess
  | .process act => (s.process.next act).map fun process => { s with process := process }
  | .exitPoller exec worker =>
    -- The flag is the one that the executors check as well.
    if (s.process.shared.coordinators exec).shutdown = true ∧ s.PollerLoops exec worker then
      some (s.exitPoller exec worker)
    else none
  | .crashPoller exec worker =>
    if s.PollerLoops exec worker then some (s.exitPoller exec worker) else none

/-- A call of `shutdown` that takes a step finds the coordinator of its own runtime. -/
def FindsOwn (s : ThreadedProcess) : ThreadedAction → Prop
  | .process act => s.process.FindsOwn act
  | .exitPoller _ _ => True
  | .crashPoller _ _ => True

instance (s : ThreadedProcess) : ∀ act, Decidable (s.FindsOwn act)
  | .process act => inferInstanceAs (Decidable (s.process.FindsOwn act))
  | .exitPoller _ _ => inferInstanceAs (Decidable True)
  | .crashPoller _ _ => inferInstanceAs (Decidable True)

/-- The flag is set, so that every executor and every poller leaves its loop when it checks it. -/
def Stops (s : ThreadedProcess) (exec : CoordinatorId) : Prop :=
  (s.process.shared.coordinators exec).shutdown = true ∧
    (∀ worker, (s.process.shared.coordinators exec).InLoop worker →
      ∃ t, Steps next s (.process (.exitExecutor exec worker)) t) ∧
    ∀ worker, s.PollerLoops exec worker → ∃ t, Steps next s (.exitPoller exec worker) t

/-- A call of `shutdown` that begins after `run` and has returned stops what `run` has started. -/
def Completes (s t : ThreadedProcess) : Prop :=
  ∀ r exec call, s.process.Made r exec → s.process.shutdownCall r call = .unused →
    t.process.shutdownCall r call = .returned → t.Stops exec

/-- `shutdown` is complete wherever a list of actions leads. -/
def ShutdownComplete (acts : List ThreadedAction) : Prop :=
  ∀ before after s t, before ++ after <+: acts → Run (Steps next) new before s →
    Run (Steps next) s after t → s.Completes t

variable {s t last : ThreadedProcess} {act : ThreadedAction} {acts : List ThreadedAction}
  {r : RuntimeId} {call : ShutdownId} {exec : CoordinatorId}

/-- A step is one of the process, or it leaves the process alone. -/
theorem step_cases (step : Steps next s act t) :
    (∃ act', act = .process act' ∧ Steps Process.next s.process act' t.process) ∨
      t.process = s.process := by
  -- A poller thread only notes that it has left.
  cases act with
  | process act =>
    obtain ⟨process, taken, rfl⟩ := Option.map_eq_some_iff.mp step
    exact .inl ⟨act, rfl, taken⟩
  | exitPoller exec worker =>
    obtain ⟨-, rfl⟩ := enabled_iff.mp step
    exact .inr rfl
  | crashPoller exec worker =>
    obtain ⟨-, rfl⟩ := enabled_iff.mp step
    exact .inr rfl

/-- A step of the process leaves the poller threads alone. -/
theorem step_process {act : ProcessAction} {process : Process}
    (taken : Steps Process.next s.process act process) :
    Steps next s (.process act) { s with process := process } := by
  -- The step of the process is all that happens.
  simp only [Steps, next]
  rw [show s.process.next act = some process from taken]
  rfl

/-- The poller threads are not seen by the process. -/
theorem run_process (run : Run (Steps next) new acts last) :
    ∃ acts', Run (Steps Process.next) .new acts' last.process := by
  -- Induction on the run, from which the steps of the pollers are left out.
  induction run with
  | nil => exact ⟨[], .nil⟩
  | snoc _ step before =>
    obtain ⟨acts', run⟩ := before
    rcases step_cases step with ⟨act, -, taken⟩ | same
    · exact ⟨acts' ++ [act], run.snoc taken⟩
    · exact ⟨acts', same ▸ run⟩

/-- In every reachable state the process is sound. -/
theorem sound_of_run (run : Run (Steps next) new acts last) : last.process.Sound :=
  -- The process has come there by itself.
  (run_process run).elim fun _ own => Process.sound_of_run own

/-- The flag is all that the threads wait for. -/
theorem stops_iff : s.Stops exec ↔ (s.process.shared.coordinators exec).shutdown = true := by
  -- With the flag set, each thread has a step that takes it out of its loop.
  refine ⟨And.left, fun flag => ⟨flag, fun worker loops => ?_, fun worker loops => ?_⟩⟩
  · refine ⟨{ s with process := s.process.leaveExecutor exec worker false }, ?_⟩
    simp [Steps, next, Process.next, flag, loops]
  · exact ⟨s.exitPoller exec worker, if_pos ⟨flag, loops⟩⟩

/-- A guarded run keeps a call of `shutdown` on its way to the flag. -/
theorem pending_of_run {before : List ThreadedAction} (first : Run (Steps next) new before s)
    (made : s.process.Made r exec) (pending : s.process.Pending r exec call)
    (run : Run (Guarded FindsOwn (Steps next)) s acts last) :
    last.process.Made r exec ∧ last.process.Pending r exec call := by
  -- The coordinator stays the one of the runtime, so that every load of the call is about it.
  induction run with
  | nil => exact ⟨made, pending⟩
  | snoc earlier taken ih =>
    obtain ⟨finds, step⟩ := taken
    have sound := sound_of_run (first.append earlier.unguard)
    rcases step_cases step with ⟨act', rfl, moved⟩ | same
    · have effect := Process.step_effect moved
      exact ⟨(effect.coordinator_kept ih.1).1, effect.pending sound finds ih.1 ih.2⟩
    · rw [same]
      exact ih

/-- Whoever finds its own coordinator completes. -/
theorem complete_of_guarded (run : Run (Guarded FindsOwn (Steps next)) new acts last) :
    ShutdownComplete acts := by
  -- The call is pending when it begins, and it stays so until the flag is set.
  intro before after s t fits first second r exec call made uncalled returned
  -- The guarded run passes through the same states.
  obtain ⟨rest, rfl⟩ := fits
  obtain ⟨t', guarded, -⟩ := run.split
  obtain ⟨s', first', second'⟩ := guarded.split
  obtain rfl := Run.functional steps_functional first first'.unguard
  obtain rfl := Run.functional steps_functional second second'.unguard
  have begins : s.process.Pending r exec call := .inr (by simp [uncalled])
  rcases (pending_of_run first made begins second').2 with flag | early
  · exact stops_iff.mpr flag
  · simp [returned] at early

/-- When a call of `shutdown` began, its runtime had made whatever it has made by now. -/
theorem made_before (run : Run (Steps next) new acts last) (made : last.process.Made r exec)
    (begun : last.process.shutdownCall r call ≠ .unused)
    (unfinished : last.process.shutdownCall r call ≠ .returned) :
    ∃ before after s, before ++ after = acts ∧ Run (Steps next) new before s ∧
      Run (Steps next) s after last ∧ s.process.Made r exec ∧
      s.process.shutdownCall r call = .unused := by
  -- The call began in some step, and from then on `run` could not make anything.
  induction run with
  | nil => exact absurd rfl begun
  | @snoc acts s t act earlier step ih =>
    -- Either the call begins in this step, or it was in progress before.
    have extend : (∃ before after s', before ++ after = acts ∧ Run (Steps next) new before s' ∧
        Run (Steps next) s' after s ∧ s'.process.Made r exec ∧
        s'.process.shutdownCall r call = .unused) → ∃ before after s',
          before ++ after = acts ++ [act] ∧ Run (Steps next) new before s' ∧
          Run (Steps next) s' after t ∧ s'.process.Made r exec ∧
          s'.process.shutdownCall r call = .unused := by
      rintro ⟨before, after, s', rfl, first, second, there⟩
      exact ⟨before, after ++ [act], s', by simp, first, second.snoc step, there⟩
    rcases step_cases step with ⟨act', rfl, taken⟩ | same
    · have sound := sound_of_run earlier
      have effect := Process.step_effect taken
      have old := effect.made_cases sound made begun unfinished
      by_cases uncalled : s.process.shutdownCall r call = .unused
      · exact ⟨acts, _, s, rfl, earlier, .single step, old, uncalled⟩
      · refine extend (ih old uncalled fun returned => ?_)
        have moves : s.process.Moves act' t.process r call _ _ := effect.moves sound
        rw [returned] at moves
        generalize t.process.shutdownCall r call = place at moves unfinished
        cases moves
        exact unfinished rfl
    · rw [same] at made begun unfinished
      exact extend (ih made begun unfinished)

/-- Whoever finds another coordinator returns too early, if nobody else sets the flag. -/
theorem incomplete_of_missed (run : Run (Steps next) new acts last)
    (step : Steps next last act t) (missed : ¬ last.FindsOwn act) :
    ∃ rest u, Run (Steps next) t rest u ∧ ¬ ShutdownComplete (acts ++ act :: rest) := by
  -- The call sets the flag of another coordinator and returns in two more steps.
  cases act with
  | exitPoller exec worker => exact absurd trivial missed
  | crashPoller exec worker => exact absurd trivial missed
  | process act =>
    obtain ⟨r, call, exec, rt, rfl, there, place, owned, apart, unset⟩ :=
      Process.missed_cases missed
    have loading : last.process.shutdownCall r call = .loading := by
      rw [Process.shutdownCall, there]
      exact place
    have begun : last.process.shutdownCall r call ≠ .unused := by simp [loading]
    obtain ⟨t', u, v, load, flag, clear, returned, others⟩ :=
      Process.returns_after_load there place
    -- The load is the step that was taken, and the two other steps follow it.
    obtain rfl := steps_functional _ _ _ _ step (step_process load)
    have rest := (Run.single (step_process flag (s := { last with process := t' }))).snoc
      (step_process clear)
    refine ⟨_, _, rest, fun complete => ?_⟩
    obtain ⟨before, after, s, rfl, first, second, made, uncalled⟩ := made_before run owned
      begun (by simp [loading])
    have stopped := complete before _ s _ (List.append_assoc before after _ ▸ List.prefix_rfl)
      first (second.append (.cons step rest)) r exec call made uncalled returned
    have flagged := stops_iff.mp stopped
    rw [others exec owned.1 apart, unset] at flagged
    exact absurd flagged (by simp)

end ThreadedProcess

section Completion

open ThreadedProcess

variable {acts : List ThreadedAction} {last : ThreadedProcess}

/--
`shutdown` is complete as long as every call finds the coordinator of its own runtime.

In a run of any number of runtimes in which each call of `shutdown` loads the coordinator of all
threads that the `run` of its runtime has started, unless their flag is set already, every call that
has begun after the start and has returned leaves the flag set, and all executors and pollers leave
their loops. A call that loads another coordinator may return while the flag is unset.
-/
theorem shutdown_completes (run : Run (Steps next) new acts last) :
    (Run (Guarded FindsOwn (Steps next)) new acts last → ShutdownComplete acts) ∧
      ∀ act t, Steps next last act t → ¬ last.FindsOwn act →
        ∃ rest u, Run (Steps next) t rest u ∧ ¬ ShutdownComplete (acts ++ act :: rest) :=
  ⟨complete_of_guarded, fun _ _ step missed => incomplete_of_missed run step missed⟩

/--
A start that panics leaves threads behind that no call of `shutdown` ever stops.

If `run` panics after it has started an executor or a poller, the flag of these threads stays unset
in every later state, and each call of `shutdown` that loads the slot misses it.
-/
theorem abandoned_never_stopped {before : List ThreadedAction} {s t : ThreadedProcess}
    {r : RuntimeId} {rt : Runtime} {execs : Nat} {poller blocking : Bool}
    (first : Run (Steps next) new before s) (there : s.process.runtimes r = some rt)
    (initializing : rt.call = .initializing blocking) (some : 0 < execs ∨ poller = true)
    (step : Steps next s (.process (.step r (.failRun execs poller))) t)
    (later : Run (Steps next) t acts last) :
    (last.process.shared.coordinators s.process.shared.nextCoordinator).shutdown = false ∧
      ∀ call, last.process.shutdownCall r call = .loading →
        ¬ last.FindsOwn (.process (.step r (.stepShutdown call))) := by
  -- The threads were started under a new name, which nobody has from then on.
  obtain ⟨process, taken, rfl⟩ := Option.map_eq_some_iff.mp step
  obtain ⟨made, unreachable, unset⟩ :=
    (sound_of_run first).abandoned there initializing some taken
  have kept : last.process.Made r s.process.shared.nextCoordinator ∧
      last.process.Unreachable s.process.shared.nextCoordinator ∧
      (last.process.shared.coordinators s.process.shared.nextCoordinator).shutdown = false := by
    induction later with
    | nil => exact ⟨made, unreachable, unset⟩
    | snoc earlier moved ih =>
      obtain ⟨made, unreachable, unset⟩ := ih
      rcases step_cases moved with ⟨act, rfl, taken⟩ | same
      · have effect := Process.step_effect taken
        have sound := sound_of_run ((first.snoc step).append earlier)
        obtain ⟨unreachable', flag⟩ := effect.unreachable sound unreachable
        exact ⟨(effect.coordinator_kept made).1, unreachable', flag.trans unset⟩
      · rw [same]
        exact ⟨made, unreachable, unset⟩
  obtain ⟨⟨named, owner⟩, ⟨-, apart, -⟩, flag⟩ := kept
  refine ⟨flag, fun call loading finds => ?_⟩
  rcases finds (r, call) rfl loading _ named owner with here | set
  · exact apart here
  · cases flag.symm.trans set

/-- Two runtimes are built and run. -/
def runTwo : List ThreadedAction :=
  List.map .process ([.build 1 (some 1), .build 1 (some 1)] ++ callOfRun 0 ++ callOfRun 1)

/-- One runtime is built and run. -/
def runOne : List ThreadedAction := List.map .process (.build 1 (some 1) :: callOfRun 0)

/-- A whole call of `shutdown` on the first runtime, which is its first one. -/
def shutdownFirst : List ThreadedAction :=
  List.map .process (.step 0 .shutdown :: List.replicate 4 (.step 0 (.stepShutdown 0)))

/-- The second runtime has replaced the coordinator, so that the threads of the first one stay. -/
theorem shutdown_misses_first :
    ∃ s t, Run (Steps next) new runTwo s ∧ Run (Steps next) s shutdownFirst t ∧
      s.process.Made 0 1 ∧ s.process.shutdownCall 0 0 = .unused ∧
      t.process.shutdownCall 0 0 = .returned ∧
      (t.process.shared.coordinators 1).exited 0 = false ∧ ¬ t.Stops 1 ∧
      ¬ ShutdownComplete (runTwo ++ shutdownFirst) := by
  -- The call loads the coordinator of the second runtime and sets its flag.
  have replayed : (replay next new runTwo).map (fun s =>
      decide (s.process.Made 0 1) && s.process.shutdownCall 0 0 == .unused &&
        (replay next s shutdownFirst).any fun t =>
          t.process.shutdownCall 0 0 == .returned &&
            !(t.process.shared.coordinators 1).exited 0 &&
            !(t.process.shared.coordinators 1).shutdown) = some true := by
    decide
  obtain ⟨s, first, found⟩ := Run.of_replay_test replayed
  simp only [Bool.and_eq_true, decide_eq_true_eq, beq_iff_eq] at found
  obtain ⟨⟨made, uncalled⟩, found⟩ := found
  obtain ⟨t, replayed', found⟩ := (Option.any_eq_true _ _).mp found
  simp only [Bool.and_eq_true, beq_iff_eq, Bool.not_eq_true'] at found
  obtain ⟨⟨returned, stays⟩, unset⟩ := found
  have second := Run.of_replay replayed'
  have goesOn : ¬ t.Stops 1 := by simp [stops_iff, unset]
  exact ⟨s, t, first, second, made, uncalled, returned, stays, goesOn, fun complete =>
    goesOn (complete _ _ s t List.prefix_rfl first second 0 1 0 made uncalled returned)⟩

/-- A runtime that is alone finds its own coordinator. -/
theorem shutdown_completes_alone :
    ∃ s t, Run (Steps next) new runOne s ∧ Run (Steps next) s shutdownFirst t ∧
      s.process.Made 0 1 ∧ t.Stops 1 := by
  -- Both runs are replayed with the condition checked at every step.
  have replayed : (replay (checked FindsOwn next) new runOne).map (fun s =>
      decide (s.process.Made 0 1) && s.process.shutdownCall 0 0 == .unused &&
        (replay (checked FindsOwn next) s shutdownFirst).any fun t =>
          t.process.shutdownCall 0 0 == .returned) = some true := by
    decide
  obtain ⟨s, first, found⟩ := Run.of_replay_test replayed
  simp only [Bool.and_eq_true, decide_eq_true_eq, beq_iff_eq] at found
  obtain ⟨⟨made, uncalled⟩, found⟩ := found
  obtain ⟨t, replayed', found⟩ := (Option.any_eq_true _ _).mp found
  have first := first.mono guarded_of_checked
  have second := (Run.of_replay replayed').mono guarded_of_checked
  have complete := (shutdown_completes (first.append second).unguard).1 (first.append second)
  exact ⟨s, t, first.unguard, second.unguard, made, complete _ _ s t List.prefix_rfl
    first.unguard second.unguard 0 1 0 made uncalled (by simpa using found)⟩

end Completion

end Imputio
