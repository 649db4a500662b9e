import Imputio.Runtime.Runtime

/-! Which coordinators the threads of a runtime act on: the ones that they find in the slot. -/

namespace Imputio

open Transition

variable {r : RuntimeId} {exec : CoordinatorId} {shared shared' : Shared} {rt rt' : Runtime}
  {step : RuntimeStep}

/-- A thread of the runtime has loaded a coordinator and acts on it in its next step. -/
def Runtime.Holds (rt : Runtime) (exec : CoordinatorId) : Prop :=
  rt.driver.holds = some exec ∨ ∃ call, rt.shutdowns call = .flagging exec

/-- A step of the driver or of `shutdown` loads the slot, or removes what it holds. -/
def Runtime.Uses (rt : Runtime) : RuntimeStep → Prop
  | .stepShutdown call => rt.shutdowns call = .loading ∨ rt.shutdowns call = .storing
  | .stepDriver _ =>
    rt.driver = .loading ∨ rt.driver = .exitLoading ∨ rt.driver = .exitStoring
  | _ => False

instance (rt : Runtime) : ∀ step, Decidable (rt.Uses step)
  | .stepShutdown call =>
    inferInstanceAs (Decidable (rt.shutdowns call = .loading ∨ rt.shutdowns call = .storing))
  | .stepDriver _ => inferInstanceAs
    (Decidable (rt.driver = .loading ∨ rt.driver = .exitLoading ∨ rt.driver = .exitStoring))
  | .replaceShutdownNotifier => inferInstanceAs (Decidable False)
  | .run _ => inferInstanceAs (Decidable False)
  | .stepRun => inferInstanceAs (Decidable False)
  | .failRun _ _ => inferInstanceAs (Decidable False)
  | .shutdown => inferInstanceAs (Decidable False)
  | .drop => inferInstanceAs (Decidable False)
  | .notify => inferInstanceAs (Decidable False)

/-- Coordinators keep their owners, and only new names are added. -/
structure Shared.Grows (shared shared' : Shared) : Prop where
  names : shared.nextCoordinator ≤ shared'.nextCoordinator
  owners : ∀ exec < shared.nextCoordinator,
    (shared'.coordinators exec).owner = (shared.coordinators exec).owner

/-- Nothing grows at all. -/
theorem Shared.Grows.refl (shared : Shared) : shared.Grows shared :=
  ⟨Nat.le_refl _, fun _ _ => rfl⟩

/-- A new coordinator leaves the others alone. -/
theorem Shared.grows_create (shared : Shared) (coordinator : Coordinator) :
    shared.Grows (shared.create coordinator) := by
  -- The new name is larger than all others.
  refine ⟨Nat.le_succ _, fun exec old => ?_⟩
  have apart : exec ≠ shared.nextCoordinator := Nat.ne_of_lt old
  simp [create, apart]

/-- The flag of a coordinator does not change its owner. -/
theorem Shared.grows_shutdown (shared : Shared) (r : RuntimeId) (exec : CoordinatorId) :
    shared.Grows (shared.shutdown r exec) := by
  -- The update keeps the owner of the one coordinator that it touches.
  refine ⟨Nat.le_refl _, fun other _ => ?_⟩
  by_cases here : other = exec
  · subst here
    simp [shutdown]
  · simp [shutdown, act, here]

/-- Storing a placeholder creates it. -/
theorem Shared.grows_clear (shared : Shared) (r : RuntimeId) : shared.Grows (shared.clear r) := by
  -- The history and the slot are no matter of the owners.
  obtain ⟨names, owners⟩ := (shared.act r .removed shared.executor).grows_create .new
  exact ⟨names, owners⟩

namespace Runtime

/-- A step of a runtime keeps the owners and adds names at most. -/
theorem Effect.grows (effect : rt.Effect r shared step shared' rt') : shared.Grows shared' := by
  -- Coordinators are made by `run` and in place of a removed one, and never taken away.
  cases effect with
  | created => exact shared.grows_create _
  | abandoned => exact shared.grows_create _
  | flagged => exact shared.grows_shutdown r _
  | exitFlagged => exact shared.grows_shutdown r _
  | cleared => exact shared.grows_clear r
  | exitCleared => exact shared.grows_clear r
  | stored => exact ⟨Nat.le_refl _, fun _ _ => rfl⟩
  | driverPolled => exact ⟨Nat.le_refl _, fun _ _ => rfl⟩
  | _ => exact .refl _

/-- The runtime has acted on a coordinator, or has loaded it to act on it. -/
def ActsOn (rt : Runtime) (r : RuntimeId) (shared : Shared) (exec : CoordinatorId) : Prop :=
  rt.Holds exec ∨ ∃ deed, (r, deed, exec) ∈ shared.acted

/-- What the driver holds after a step it has held before, or it finds it in the slot. -/
theorem Effect.driver_holds (effect : rt.Effect r shared step shared' rt')
    (holds : rt'.driver.holds = some exec) :
    rt.driver.holds = some exec ∨ rt.Uses step ∧ exec = shared.executor := by
  -- The driver loads the slot at the head of its loop and on its way out.
  cases effect with
  | noticeSent _ sent => rw [send_rest sent] at holds; exact .inl holds
  | notified _ sent => rw [send_rest sent] at holds; exact .inl holds
  | driverLoaded before => exact .inr ⟨.inl before, (Option.some.inj holds).symm⟩
  | exitLoaded before => exact .inr ⟨.inr (.inl before), (Option.some.inj holds).symm⟩
  | started => simp [Driver.holds] at holds
  | driverPanicked => simp [Driver.holds] at holds
  | driverPolled => simp [Driver.holds] at holds
  | noticed => simp [Driver.holds] at holds
  | unnoticed => simp [Driver.holds] at holds
  | exitFlagged => simp [Driver.holds] at holds
  | exitCleared => simp [Driver.holds] at holds
  | _ => exact .inl holds

/-- A call of `shutdown` that is moved on only holds what it is given. -/
theorem setShutdown_holds {now : ShutdownCall} {call other : ShutdownId}
    (holds : (rt.setShutdown call now).shutdowns other = .flagging exec) :
    rt.shutdowns other = .flagging exec ∨ now = .flagging exec := by
  -- It is the call that was moved, or another one.
  by_cases here : other = call
  · subst here
    exact .inr (by simpa [setShutdown] using holds)
  · exact .inl (by simpa [setShutdown, here] using holds)

/-- What a call of `shutdown` holds it has held before, or it finds it in the slot. -/
theorem Effect.shutdown_holds (effect : rt.Effect r shared step shared' rt') {call : ShutdownId}
    (holds : rt'.shutdowns call = .flagging exec) :
    rt.shutdowns call = .flagging exec ∨ rt.Uses step ∧ exec = shared.executor := by
  -- A call of `shutdown` loads the slot once, between the send and the flag.
  cases effect with
  | shutdownCalled => exact .inl ((setShutdown_holds holds).resolve_right (by simp))
  | dropped => exact .inl ((setShutdown_holds holds).resolve_right (by simp))
  | noticeSent _ sent =>
    have before := (setShutdown_holds holds).resolve_right (by simp)
    rw [send_rest sent] at before
    exact .inl before
  | notified _ sent => rw [send_rest sent] at holds; exact .inl holds
  | slotLoaded before =>
    refine (setShutdown_holds holds).imp id fun found => ⟨.inl before, ?_⟩
    exact (ShutdownCall.flagging.inj found).symm
  | flagged => exact .inl ((setShutdown_holds holds).resolve_right (by simp))
  | cleared => exact .inl ((setShutdown_holds holds).resolve_right (by simp))
  | noticed _ taken => rw [tryRecv_rest taken] at holds; exact .inl holds
  | _ => exact .inl holds

/-- What a step does is done to what the runtime holds, or to what it finds in the slot. -/
theorem Effect.acted (effect : rt.Effect r shared step shared' rt') {deed : Deed}
    (done : (r, deed, exec) ∈ shared'.acted) :
    rt.ActsOn r shared exec ∨ rt.Uses step ∧ exec = shared.executor := by
  -- The history grows by one entry at most, about the held one or the one in the slot.
  have grown : ∀ {deed' : Deed} {other : CoordinatorId},
      (r, deed, exec) ∈ shared.acted ++ [(r, deed', other)] →
      rt.ActsOn r shared exec ∨ exec = other := by
    intro deed' other member
    rcases List.mem_append.mp member with old | new
    · exact .inl (.inr ⟨deed, old⟩)
    · simp only [List.mem_singleton, Prod.mk.injEq] at new
      exact .inr new.2.2
  cases effect with
  | flagged before =>
    rcases grown done with old | rfl
    · exact .inl old
    · exact .inl (.inl (.inr ⟨_, before⟩))
  | cleared before => exact (grown done).imp id fun found => ⟨.inr before, found⟩
  | driverPolled before =>
    rcases grown done with old | rfl
    · exact .inl old
    · exact .inl (.inl (.inl (by rw [before]; rfl)))
  | exitFlagged before =>
    rcases grown done with old | rfl
    · exact .inl old
    · exact .inl (.inl (.inl (by rw [before]; rfl)))
  | exitCleared before => exact (grown done).imp id fun found => ⟨.inr (.inr before), found⟩
  | _ => exact .inl (.inr ⟨deed, done⟩)

/-- What a runtime acts on after a step it has acted on before, or it finds it in the slot. -/
theorem Effect.actsOn (effect : rt.Effect r shared step shared' rt')
    (acts : rt'.ActsOn r shared' exec) :
    rt.ActsOn r shared exec ∨ rt.Uses step ∧ exec = shared.executor := by
  -- What is held comes from the driver or from a call, and what is done from the step.
  rcases acts with (driver | ⟨call, loaded⟩) | ⟨deed, done⟩
  · exact (effect.driver_holds driver).imp (fun held => .inl (.inl held)) id
  · exact (effect.shutdown_holds loaded).imp (fun held => .inl (.inr ⟨call, held⟩)) id
  · exact effect.acted done

/-- What a step finds in the slot, the runtime acts on. -/
theorem Effect.actsOn_found (effect : rt.Effect r shared step shared' rt') (uses : rt.Uses step) :
    rt'.ActsOn r shared' shared.executor := by
  -- What is loaded is held next, and what is removed is recorded at once.
  cases effect with
  | noticeSent before => rcases uses with uses | uses <;> simp [before] at uses
  | @slotLoaded call => exact .inl (.inr ⟨call, by simp [setShutdown]⟩)
  | flagged before => rcases uses with uses | uses <;> simp [before] at uses
  | cleared => exact .inr ⟨.removed, by simp⟩
  | driverLoaded => exact .inl (.inl rfl)
  | driverPanicked before => rcases uses with uses | uses | uses <;> simp [before] at uses
  | driverPolled before => rcases uses with uses | uses | uses <;> simp [before] at uses
  | noticed before => rcases uses with uses | uses | uses <;> simp [before] at uses
  | unnoticed before => rcases uses with uses | uses | uses <;> simp [before] at uses
  | exitLoaded => exact .inl (.inl rfl)
  | exitFlagged before => rcases uses with uses | uses | uses <;> simp [before] at uses
  | exitCleared => exact .inr ⟨.removed, by simp⟩
  | _ => exact absurd uses not_false

/-- A step adds to the history of its own runtime only. -/
theorem Effect.acted_other (effect : rt.Effect r shared step shared' rt') {other : RuntimeId}
    {deed : Deed} (apart : other ≠ r) :
    (other, deed, exec) ∈ shared'.acted ↔ (other, deed, exec) ∈ shared.acted := by
  cases effect <;> simp [apart]

/-- The slot holds what it has held before, what `run` has stored, or a new placeholder. -/
theorem Effect.slot (effect : rt.Effect r shared step shared' rt') :
    shared'.executor = shared.executor ∨
      (∃ blocking, rt.call = .storing blocking shared'.executor) ∨
      shared'.executor = shared.nextCoordinator ∧
        shared'.nextCoordinator = shared.nextCoordinator + 1 := by
  -- Only `run` stores a coordinator of its own; every other store is of a placeholder.
  cases effect with
  | @stored blocking _ before => exact .inr (.inl ⟨blocking, before⟩)
  | cleared => exact .inr (.inr ⟨rfl, rfl⟩)
  | exitCleared => exact .inr (.inr ⟨rfl, rfl⟩)
  | _ => exact .inl rfl

/-- What `run` is about to store was made before, or it has just been made. -/
theorem Effect.storing (effect : rt.Effect r shared step shared' rt') {blocking : Bool}
    (stores : rt'.call = .storing blocking exec) :
    rt.call = .storing blocking exec ∨ exec < shared'.nextCoordinator := by
  -- Between the creation and the store the name waits in the call of `run`.
  cases effect with
  | created =>
    obtain ⟨-, rfl⟩ := RunCall.storing.inj stores
    exact .inr (Nat.lt_succ_self _)
  | noticeSent _ sent => rw [send_rest sent] at stores; exact .inl stores
  | notified _ sent => rw [send_rest sent] at stores; exact .inl stores
  | noticed _ taken => rw [tryRecv_rest taken] at stores; exact .inl stores
  | swapped => simp only at stores; split at stores <;> simp at stores
  | returned => simp only at stores; split at stores <;> simp at stores
  | runCalled => simp at stores
  | stored => simp at stores
  | started => simp at stores
  | failed => simp at stores
  | abandoned => simp at stores
  | unblocked => simp at stores
  | _ => exact .inl stores

/-- A flag is set by the runtime whose step it is, and a placeholder or a new executor has none. -/
theorem Effect.flags (effect : rt.Effect r shared step shared' rt')
    (flag : (shared'.coordinators exec).shutdown = true) :
    (shared.coordinators exec).shutdown = true ∨ (r, .shutDown, exec) ∈ shared'.acted := by
  -- New coordinators have no flag, so that a flag is an old one or the one of this step.
  have created : ∀ coordinator : Coordinator, coordinator.shutdown = false →
      ((Function.update shared.coordinators shared.nextCoordinator coordinator) exec).shutdown =
        true → (shared.coordinators exec).shutdown = true := by
    intro coordinator unset flag
    rw [Function.update_apply] at flag
    split at flag
    · simp [unset] at flag
    · exact flag
  have shut : ∀ other, ((shared.shutdown r other).coordinators exec).shutdown = true →
      (shared.coordinators exec).shutdown = true ∨
        (r, .shutDown, exec) ∈ (shared.shutdown r other).acted := by
    intro other flag
    by_cases here : exec = other
    · exact .inr (by simp [here])
    · refine .inl ?_
      simpa [Shared.shutdown, Shared.act, here] using flag
  cases effect with
  | created => exact .inl (created _ rfl flag)
  | abandoned => exact .inl (created _ rfl flag)
  | cleared => exact .inl (created _ rfl flag)
  | exitCleared => exact .inl (created _ rfl flag)
  | flagged => exact shut _ flag
  | exitFlagged => exact shut _ flag
  | _ => exact .inl flag

/-- The call of `run` has just started executors: all that it wants, or it has panicked. -/
structure Starts (rt rt' : Runtime) (execs : Nat) : Prop where
  before : ∃ blocking, rt.call = .initializing blocking
  after : ∀ blocking, rt'.call ≠ .initializing blocking
  state : rt'.state = rt.state
  fewer : execs ≤ rt.execs
  whole : rt'.failed = false → execs = rt.execs

/-- A step leaves a coordinator as it is, sets its flag, or makes it. -/
theorem Effect.coordinator_cases (effect : rt.Effect r shared step shared' rt')
    (exec : CoordinatorId) :
    shared'.coordinators exec = shared.coordinators exec ∨
      shared'.coordinators exec = { shared.coordinators exec with shutdown := true } ∨
      exec = shared.nextCoordinator ∧ shared'.nextCoordinator = shared.nextCoordinator + 1 ∧
        (shared'.coordinators exec = .new ∨
          ∃ execs pollers, rt.Starts rt' execs ∧
            shared'.coordinators exec = .started r execs pollers) := by
  -- A step updates one coordinator at most.
  have created : ∀ {coordinator : Coordinator}, exec ≠ shared.nextCoordinator →
      (shared.create coordinator).coordinators exec = shared.coordinators exec :=
    fun apart => Function.update_of_ne apart ..
  have flagged : ∀ {other}, (shared.shutdown r other).coordinators exec =
      shared.coordinators exec ∨ (shared.shutdown r other).coordinators exec =
        { shared.coordinators exec with shutdown := true } := by
    intro other
    by_cases here : exec = other
    · exact .inr (by simp [Shared.shutdown, here])
    · exact .inl (by simp [Shared.shutdown, Shared.act, here])
  cases effect with
  | created before =>
    by_cases new : exec = shared.nextCoordinator
    · exact .inr (.inr ⟨new, rfl, .inr ⟨_, _,
        ⟨⟨_, before⟩, fun _ => by simp, rfl, Nat.le_refl _, fun _ => rfl⟩,
        by rw [new]; exact Function.update_self ..⟩⟩)
    · exact .inl (created new)
  | abandoned before fewer =>
    by_cases new : exec = shared.nextCoordinator
    · exact .inr (.inr ⟨new, rfl, .inr ⟨_, _,
        ⟨⟨_, before⟩, fun _ => by simp, rfl, fewer.le, fun good => by simp at good⟩,
        by rw [new]; exact Function.update_self ..⟩⟩)
    · exact .inl (created new)
  | cleared =>
    by_cases new : exec = shared.nextCoordinator
    · exact .inr (.inr ⟨new, rfl, .inl (by rw [new]; exact Function.update_self ..)⟩)
    · exact .inl (created new)
  | exitCleared =>
    by_cases new : exec = shared.nextCoordinator
    · exact .inr (.inr ⟨new, rfl, .inl (by rw [new]; exact Function.update_self ..)⟩)
    · exact .inl (created new)
  | flagged => exact flagged.imp id .inl
  | exitFlagged => exact flagged.imp id .inl
  | _ => exact .inl rfl

/-- What holds of new coordinators, and stays when a flag is set, holds of all coordinators. -/
theorem Effect.coordinators {prop : Coordinator → Prop}
    (effect : rt.Effect r shared step shared' rt') (placeholder : prop .new)
    (made : ∀ execs pollers, rt.Starts rt' execs → prop (.started r execs pollers))
    (shut : ∀ coordinator, prop coordinator → prop { coordinator with shutdown := true })
    (all : ∀ exec, prop (shared.coordinators exec)) : ∀ exec, prop (shared'.coordinators exec) := by
  -- A coordinator is as it was, has its flag set, or is new in one of two ways.
  intro exec
  rcases effect.coordinator_cases exec with
    same | flag | ⟨-, -, new | ⟨execs, pollers, starts, new⟩⟩
  · rw [same]
    exact all exec
  · rw [flag]
    exact shut _ (all exec)
  · rw [new]
    exact placeholder
  · rw [new]
    exact made execs pollers starts

/-- The history grows. -/
theorem Effect.acted_mono (effect : rt.Effect r shared step shared' rt') :
    shared.acted ⊆ shared'.acted := by
  cases effect <;> simp

end Runtime

namespace Process

variable {s t : Process} {act : ProcessAction}

/-- The executors of a runtime leave their loops only after the flag is set. -/
def ExitsFlagged (coordinator : Coordinator) : Prop :=
  coordinator.owner ≠ none → ∀ worker, coordinator.exited worker = true →
    coordinator.shutdown = true

/-- Every name in use belongs to a coordinator, and flags are set by steps of runtimes only. -/
structure Known (s : Process) : Prop where
  slot : s.shared.executor < s.shared.nextCoordinator
  acts : ∀ r rt exec, s.runtimes r = some rt → rt.ActsOn r s.shared exec →
    exec < s.shared.nextCoordinator
  stores : ∀ r rt blocking exec, s.runtimes r = some rt → rt.call = .storing blocking exec →
    exec < s.shared.nextCoordinator
  history : ∀ r deed exec, (r, deed, exec) ∈ s.shared.acted → ∃ rt, s.runtimes r = some rt
  built : ∀ r rt, s.runtimes r = some rt → r < s.nextRuntime
  flags : ∀ exec, (s.shared.coordinators exec).shutdown = true →
    ∃ r, (r, .shutDown, exec) ∈ s.shared.acted
  exits : ∀ exec, ExitsFlagged (s.shared.coordinators exec)

/-- A process that has not built a runtime uses no names. -/
theorem new_known : Known new where
  -- The first name is given to the first runtime, so none is used before.
  slot := Nat.one_pos
  acts := fun _ _ _ there => absurd there (by simp [new])
  stores := fun _ _ _ _ there => absurd there (by simp [new])
  history := fun _ _ _ done => absurd done (by simp [new])
  built := fun _ _ there => absurd there (by simp [new])
  flags := fun _ flag => absurd flag (by simp [new, Coordinator.new])
  exits := fun _ owned => absurd rfl owned

/-- The history knows nothing of the next runtime, which has loaded nothing either. -/
theorem Known.build_actsOn (known : s.Known) {execs : Nat} {notifier : Notifier}
    {exec : CoordinatorId} :
    ¬ (Runtime.build execs notifier).ActsOn s.nextRuntime s.shared exec := by
  -- Whoever is in the history was built, and the next name was not.
  intro acts
  rcases acts with (driver | ⟨call, loaded⟩) | ⟨deed, done⟩
  · simp [Runtime.build, Driver.holds] at driver
  · simp [Runtime.build] at loaded
  · obtain ⟨rt, there⟩ := known.history _ deed exec done
    exact absurd (known.built _ rt there) (Nat.lt_irrefl _)

/-- A new runtime uses no names either. -/
theorem Known.addRuntime {execs : Nat} {notifier : Notifier} (known : s.Known) :
    (s.addRuntime (.build execs notifier)).Known := by
  -- The slot, the flags and the executors are as before; the new runtime is idle.
  refine ⟨known.slot, fun r rt exec there acts => ?_, fun r rt blocking exec there stores => ?_,
    fun r deed exec done => ?_, fun r rt there => ?_, known.flags, known.exits⟩
  · rcases addRuntime_cases there with ⟨rfl, rfl⟩ | old
    · exact absurd acts known.build_actsOn
    · exact known.acts r rt exec old acts
  · rcases addRuntime_cases there with ⟨-, rfl⟩ | old
    · simp [Runtime.build] at stores
    · exact known.stores r rt blocking exec old stores
  · obtain ⟨rt, there⟩ := known.history r deed exec done
    have apart : r ≠ s.nextRuntime := Nat.ne_of_lt (known.built r rt there)
    exact ⟨rt, by simp [Process.addRuntime, setRuntime, apart, there]⟩
  · rcases addRuntime_cases there with ⟨rfl, -⟩ | old
    · exact Nat.lt_succ_self _
    · exact Nat.lt_succ_of_lt (known.built r rt old)

/-- A runtime whose channel is shared uses the names that it has used before. -/
theorem Known.share (known : s.Known) (other : RuntimeId) : (s.share other).Known := by
  -- Of each runtime only the notifier may differ, and no name is about it.
  refine ⟨?_, fun r rt exec there acts => ?_, fun r rt blocking exec there stores => ?_, ?_,
    fun r rt there => ?_, ?_, ?_⟩
  · rw [share_shared]
    exact known.slot
  · rw [share_shared] at acts ⊢
    obtain ⟨before, found, rfl | rfl⟩ := share_cases there
    · exact known.acts r _ exec found acts
    · exact known.acts r before exec found acts
  · rw [share_shared]
    obtain ⟨before, found, rfl | rfl⟩ := share_cases there
    · exact known.stores r _ blocking exec found stores
    · exact known.stores r before blocking exec found stores
  · intro r deed exec done
    rw [share_shared] at done
    obtain ⟨rt, there⟩ := known.history r deed exec done
    exact share_kept there
  · rw [share_nextRuntime]
    obtain ⟨before, found, -⟩ := share_cases there
    exact known.built r before found
  · rw [share_shared]
    exact known.flags
  · rw [share_shared]
    exact known.exits

/-- A step of a runtime keeps the names in order. -/
theorem Known.stepped {r : RuntimeId} {step : RuntimeStep} {rt now : Runtime} {shared : Shared}
    (known : s.Known) (there : s.runtimes r = some rt)
    (effect : rt.Effect r s.shared step shared now) :
    ({ s with shared := shared }.setRuntime r now).Known := by
  -- What the runtime itself uses it has used before or finds in the slot, which is known.
  have grows := effect.grows
  have own : ∀ deed exec other, (other, deed, exec) ∈ shared.acted → other ≠ r →
      (other, deed, exec) ∈ s.shared.acted :=
    fun deed exec other done apart => (effect.acted_other apart).mp done
  have found : ∀ {exec}, now.ActsOn r shared exec → exec < s.shared.nextCoordinator := by
    intro exec acts
    rcases effect.actsOn acts with before | ⟨-, rfl⟩
    · exact known.acts r rt exec there before
    · exact known.slot
  refine ⟨?_, fun other rt' exec there' acts => ?_, fun other rt' blocking exec there' stores => ?_,
    fun other deed exec done => ?_, fun other rt' there' => ?_, fun exec flag => ?_, ?_⟩
  · rcases effect.slot with same | ⟨blocking, stores⟩ | ⟨same, more⟩
    · exact same ▸ Nat.lt_of_lt_of_le known.slot grows.names
    · exact Nat.lt_of_lt_of_le (known.stores r rt blocking _ there stores) grows.names
    · exact (same ▸ more ▸ Nat.lt_succ_self _ : shared.executor < shared.nextCoordinator)
  · rw [setRuntime_apply] at there'
    refine Nat.lt_of_lt_of_le ?_ grows.names
    split at there'
    · rename_i here
      obtain rfl := Option.some.inj there'
      subst here
      exact found acts
    · rename_i apart
      refine known.acts other rt' exec there' (acts.imp id fun done => ?_)
      obtain ⟨deed, done⟩ := done
      exact ⟨deed, own deed exec other done apart⟩
  · rw [setRuntime_apply] at there'
    split at there'
    · obtain rfl := Option.some.inj there'
      rcases effect.storing stores with before | new
      · exact Nat.lt_of_lt_of_le (known.stores r rt blocking exec there before) grows.names
      · exact new
    · exact Nat.lt_of_lt_of_le (known.stores other rt' blocking exec there' stores) grows.names
  · rw [setRuntime_apply]
    split
    · exact ⟨now, rfl⟩
    · rename_i apart
      exact known.history other deed exec (own deed exec other done apart)
  · rw [setRuntime_apply] at there'
    split at there'
    · rename_i here
      exact here ▸ known.built r rt there
    · exact known.built other rt' there'
  · rcases effect.flags flag with old | new
    · obtain ⟨other, done⟩ := known.flags exec old
      exact ⟨other, effect.acted_mono done⟩
    · exact ⟨r, new⟩
  · refine effect.coordinators (fun owned => absurd rfl owned) ?_ ?_ known.exits
    · intro _ _ _ _ _ exited
      simp [Coordinator.started] at exited
    · exact fun _ _ _ _ _ => rfl

/-- An executor that leaves uses no name, and it has seen the flag unless its task has panicked. -/
theorem Known.leaveExecutor {exec : CoordinatorId} {worker : Nat} {panics : Bool}
    (known : s.Known)
    (sees : panics = false → (s.shared.coordinators exec).shutdown = true) :
    (s.leaveExecutor exec worker panics).Known := by
  -- Only the last part is about executors that have left, and this one is checked for it.
  refine ⟨known.slot, known.acts, known.stores, known.history, known.built, fun other set => ?_,
    fun other owned left exited => ?_⟩
  · rw [leaveExecutor_shutdown] at set
    exact known.flags other set
  · rw [leaveExecutor_owner] at owned
    rw [leaveExecutor_shutdown]
    rw [leaveExecutor_apply] at exited
    split at exited
    · rename_i here
      subst here
      rcases Coordinator.leave_exited_iff.mp exited with before | ⟨gentle, -⟩
      · exact known.exits other owned left before
      · exact sees gentle
    · exact known.exits other owned left exited

/-- Every step keeps the names in order. -/
theorem Effect.known (effect : s.Effect act t) (known : s.Known) : t.Known := by
  -- One case per kind of step; only a step of a runtime uses a name that it has not used.
  cases effect with
  | built => exact known.addRuntime
  | builtSupplied => exact (known.share _).addRuntime
  | stepped there effect => exact known.stepped there effect
  | executorExited flag => exact known.leaveExecutor fun _ => flag
  | executorCrashed => exact known.leaveExecutor (by simp)

/-- In every reachable state the names are in order. -/
theorem known_of_run {acts : List ProcessAction} {last : Process}
    (run : Run (Steps next) new acts last) : last.Known :=
  run.invariant new_known fun _ _ _ before step => (step_effect step).known before

/-- Every runtime acts on coordinators only whose owner it may act on. -/
def Within (may : RuntimeId → Option RuntimeId → Prop) (s : Process) : Prop :=
  ∀ r rt exec, s.runtimes r = some rt → rt.ActsOn r s.shared exec →
    may r (s.shared.coordinators exec).owner

/-- Whatever a driver or a call of `shutdown` finds in the slot, its runtime may act on. -/
def Finds (may : RuntimeId → Option RuntimeId → Prop) (s : Process) (act : ProcessAction) : Prop :=
  ∀ r step rt, act = .step r step → s.runtimes r = some rt → rt.Uses step →
    may r (s.shared.coordinators s.shared.executor).owner

/-- The runtime that takes a step. -/
def runtimeStep : ProcessAction → Option (RuntimeId × RuntimeStep)
  | .step r step => some (r, step)
  | _ => none

/-- What the slot holds is looked at for the runtime that takes a step, and for no other. -/
theorem finds_iff {may : RuntimeId → Option RuntimeId → Prop} :
    s.Finds may act ↔ ∀ own ∈ runtimeStep act, ∀ rt ∈ s.runtimes own.1, rt.Uses own.2 →
      may own.1 (s.shared.coordinators s.shared.executor).owner := by
  -- No other action is a step of a runtime.
  cases act with
  | step r step =>
    refine ⟨?_, fun finds r' step' rt same => ?_⟩
    · rintro finds _ ⟨⟩ rt there
      exact finds r step rt rfl there
    · obtain ⟨rfl, rfl⟩ := ProcessAction.step.inj same
      exact finds _ rfl rt
  | _ => simp [Finds, runtimeStep]

instance (may : RuntimeId → Option RuntimeId → Prop) [∀ r owner, Decidable (may r owner)]
    (s : Process) (act : ProcessAction) : Decidable (s.Finds may act) :=
  decidable_of_iff' _ finds_iff

/-- A new runtime acts on nothing. -/
theorem Within.addRuntime {may : RuntimeId → Option RuntimeId → Prop} {execs : Nat}
    {notifier : Notifier} (known : s.Known) (within : s.Within may) :
    (s.addRuntime (.build execs notifier)).Within may := by
  -- It is the new runtime, which has done nothing, or an old one.
  intro r rt exec there acts
  rcases addRuntime_cases there with ⟨rfl, rfl⟩ | old
  · exact absurd acts known.build_actsOn
  · exact within r rt exec old acts

/-- A step changes whom the runtimes act on by what it finds in the slot. -/
theorem Effect.within_iff {may : RuntimeId → Option RuntimeId → Prop} (effect : s.Effect act t)
    (known : s.Known) (within : s.Within may) : t.Within may ↔ s.Finds may act := by
  -- No step but one that uses the slot makes a runtime act on another coordinator.
  cases effect with
  | built => exact ⟨fun _ _ _ _ same => by simp at same, fun _ => within.addRuntime known⟩
  | @builtSupplied execs other =>
    refine ⟨fun _ _ _ _ same => by simp at same, fun _ => ?_⟩
    refine Within.addRuntime (known.share other) fun r rt exec there acts => ?_
    rw [share_shared] at acts ⊢
    obtain ⟨before, found, rfl | rfl⟩ := share_cases there
    · exact within r _ exec found acts
    · exact within r before exec found acts
  | @stepped r step rt now shared there effect =>
    have owners := effect.grows.owners
    constructor
    · -- What the step finds in the slot is acted on afterwards.
      intro after r' step' rt' same there' uses
      obtain ⟨rfl, rfl⟩ := ProcessAction.step.inj same
      obtain rfl := Option.some.inj (there.symm.trans there')
      have allowed : may r (shared.coordinators s.shared.executor).owner :=
        after r now s.shared.executor (by simp [setRuntime]) (effect.actsOn_found uses)
      rwa [owners _ known.slot] at allowed
    · intro finds other rt' exec there' acts
      rw [setRuntime_apply] at there'
      split at there'
      · rename_i here
        obtain rfl := Option.some.inj there'
        subst here
        rcases effect.actsOn acts with before | ⟨uses, rfl⟩
        · show may other (shared.coordinators exec).owner
          rw [owners exec (known.acts other rt exec there before)]
          exact within other rt exec there before
        · show may other (shared.coordinators s.shared.executor).owner
          rw [owners _ known.slot]
          exact finds other step rt rfl there uses
      · rename_i apart
        have before : rt'.ActsOn other s.shared exec := by
          refine acts.imp id fun done => ?_
          obtain ⟨deed, done⟩ := done
          exact ⟨deed, (effect.acted_other apart).mp done⟩
        show may other (shared.coordinators exec).owner
        rw [owners exec (known.acts other rt' exec there' before)]
        exact within other rt' exec there' before
  | executorExited =>
    refine ⟨fun _ _ _ _ same => by simp at same, fun _ r rt other there acts => ?_⟩
    rw [leaveExecutor_owner]
    exact within r rt other there acts
  | executorCrashed =>
    refine ⟨fun _ _ _ _ same => by simp at same, fun _ r rt other there acts => ?_⟩
    rw [leaveExecutor_owner]
    exact within r rt other there acts

/-- Nobody acts on anything before the first runtime is built. -/
theorem new_within (may : RuntimeId → Option RuntimeId → Prop) : Within may new :=
  fun _ _ _ there => absurd there (by simp [new])

end Process

section Ownership

variable {last : Process} {acts : List ProcessAction}

/-- The coordinator was made by the runtime itself. -/
def IsOwn (r : RuntimeId) (owner : Option RuntimeId) : Prop := owner = some r

/-- The coordinator was not made by another runtime; it may be a placeholder. -/
def NotAnothers (r : RuntimeId) (owner : Option RuntimeId) : Prop := owner = none ∨ owner = some r

instance (r : RuntimeId) (owner : Option RuntimeId) : Decidable (IsOwn r owner) :=
  inferInstanceAs (Decidable (_ = _))

instance (r : RuntimeId) (owner : Option RuntimeId) : Decidable (NotAnothers r owner) :=
  inferInstanceAs (Decidable (_ ∨ _))

/--
The threads of each runtime act on its own coordinator exactly as long as they find it in the slot.

If they find no coordinator of another runtime, at worst a placeholder, they act on none either,
and the executors of a runtime are stopped by that runtime only.
-/
theorem runtimes_keep_apart (run : Run (Steps Process.next) Process.new acts last) :
    (Throughout (Steps Process.next) Process.new (Process.Within IsOwn) acts ↔
      Run (Guarded (Process.Finds IsOwn) (Steps Process.next)) Process.new acts last) ∧
    (Throughout (Steps Process.next) Process.new (Process.Within NotAnothers) acts ↔
      Run (Guarded (Process.Finds NotAnothers) (Steps Process.next)) Process.new acts last) ∧
    (Run (Guarded (Process.Finds NotAnothers) (Steps Process.next)) Process.new acts last →
      ∀ exec owner, (last.shared.coordinators exec).owner = some owner →
        ((last.shared.coordinators exec).shutdown = true ∨
          ∃ worker, (last.shared.coordinators exec).exited worker = true) →
        (owner, .shutDown, exec) ∈ last.shared.acted) := by
  -- The invariant is lost exactly at the first step that finds a coordinator not allowed.
  have exact : ∀ may, Throughout (Steps Process.next) Process.new (Process.Within may) acts ↔
      Run (Guarded (Process.Finds may) (Steps Process.next)) Process.new acts last :=
    fun may => run.throughout_iff_guarded steps_functional Process.new_known
      (fun _ _ _ known step => (Process.step_effect step).known known) (Process.new_within may)
      fun _ _ _ known within step => (Process.step_effect step).within_iff known within
  refine ⟨exact IsOwn, exact NotAnothers, fun guarded exec owner made stopped => ?_⟩
  have known := Process.known_of_run run
  have within := (exact NotAnothers).mpr guarded acts last List.prefix_rfl run
  have flag : (last.shared.coordinators exec).shutdown = true := by
    rcases stopped with flag | ⟨worker, left⟩
    · exact flag
    · exact known.exits exec (by simp [made]) worker left
  -- Whoever has set the flag has acted on the coordinator, so it is not another runtime.
  obtain ⟨r, done⟩ := known.flags exec flag
  obtain ⟨rt, there⟩ := known.history r _ exec done
  rcases within r rt exec there (.inr ⟨_, done⟩) with placeholder | own
  · cases made.symm.trans placeholder
  · obtain rfl := Option.some.inj (own.symm.trans made)
    exact done

/-- The first runtime is run and dropped, the second one is run, and the first driver goes on. -/
def lateDriver : List ProcessAction :=
  [.build 1 (some 1)] ++ callOfRun 0 ++ [.step 0 .drop] ++
    List.replicate 4 (.step 0 (.stepShutdown 0)) ++ [.build 1 (some 1)] ++ callOfRun 1 ++
    List.replicate 5 (.step 0 (.stepDriver false))

/-- The driver of the dropped runtime shuts down the executors of the other one. -/
theorem late_driver_stops_other :
    ∃ s, Run (Steps Process.next) Process.new lateDriver s ∧
      (s.shared.coordinators 3).owner = some 1 ∧ (s.shared.coordinators 3).shutdown = true ∧
      (0, .shutDown, 3) ∈ s.shared.acted ∧ ¬ s.Within IsOwn := by
  -- The new run has replaced the coordinator in the slot before the old driver loads it.
  have replayed : (replay Process.next Process.new lateDriver).map (fun s =>
      (s.runtimes 0).isSome && (s.shared.coordinators 3).owner == some 1 &&
        (s.shared.coordinators 3).shutdown && s.shared.acted.contains (0, .shutDown, 3)) =
      some true := by
    decide
  obtain ⟨s, run, stopped⟩ := Run.of_replay_test replayed
  simp only [Bool.and_eq_true, beq_iff_eq, List.contains_iff_mem, Option.isSome_iff_exists]
    at stopped
  obtain ⟨⟨⟨⟨rt, there⟩, owner⟩, flag⟩, done⟩ := stopped
  refine ⟨s, run, owner, flag, done, fun within => ?_⟩
  have own := within 0 rt 3 there (.inr ⟨_, done⟩)
  rw [owner] at own
  exact absurd own (by simp [IsOwn])

/-- A runtime is run, is shut down, and its driver takes some steps. -/
def runAndStop (driven : Nat) : List ProcessAction :=
  .build 1 (some 1) :: callOfRun 0 ++ [.step 0 .shutdown] ++
    List.replicate 4 (.step 0 (.stepShutdown 0)) ++
    List.replicate driven (.step 0 (.stepDriver false))

/-- After that another runtime is run, and its driver takes some steps. -/
def thenAnother (driven : Nat) : List ProcessAction :=
  .build 1 (some 1) :: callOfRun 1 ++ List.replicate driven (.step 1 (.stepDriver false))

/--
Two runtimes keep apart, and the first one is shut down before the second one is run.

Where the driver of the first one does not look for a coordinator after that, each acts on its own
only. Where it goes on to its end, it finds placeholders, and the executors of the first runtime
have been stopped by that runtime.
-/
theorem runtimes_keep_apart_alone :
    (∃ s, Run (Guarded (Process.Finds IsOwn) (Steps Process.next)) Process.new
        (runAndStop 0 ++ thenAnother 2) s ∧ s.Within IsOwn) ∧
    ∃ s, Run (Guarded (Process.Finds NotAnothers) (Steps Process.next)) Process.new
        (runAndStop 6 ++ [.exitExecutor 1 0] ++ thenAnother 2) s ∧
      s.Within NotAnothers ∧ (s.shared.coordinators 1).owner = some 0 ∧
      (s.shared.coordinators 1).exited 0 = true ∧ (0, .shutDown, 1) ∈ s.shared.acted := by
  -- Both runs are replayed with the condition checked at every step.
  constructor
  · have replayed : (replay (checked (Process.Finds IsOwn) Process.next) .new
        (runAndStop 0 ++ thenAnother 2)).isSome = true := by
      decide
    obtain ⟨s, run⟩ := Run.of_checked replayed
    have within := (runtimes_keep_apart run.unguard).1.mpr run
    exact ⟨s, run, within _ _ List.prefix_rfl run.unguard⟩
  · have replayed : (replay (checked (Process.Finds NotAnothers) Process.next) .new
        (runAndStop 6 ++ [.exitExecutor 1 0] ++ thenAnother 2)).map (fun s =>
        (s.shared.coordinators 1).owner == some 0 && (s.shared.coordinators 1).exited 0) =
        some true := by
      decide
    obtain ⟨s, checkedRun, found⟩ := Run.of_replay_test replayed
    have run := checkedRun.mono guarded_of_checked
    simp only [Bool.and_eq_true, beq_iff_eq] at found
    obtain ⟨owner, exited⟩ := found
    obtain ⟨-, notAnothers, stops⟩ := runtimes_keep_apart run.unguard
    exact ⟨s, run, notAnothers.mpr run _ _ List.prefix_rfl run.unguard, owner, exited,
      stops run 1 0 owner (.inr ⟨0, exited⟩)⟩

end Ownership

end Imputio
