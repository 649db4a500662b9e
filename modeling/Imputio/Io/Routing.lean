import Mathlib.Data.Finset.Filter
import Imputio.Io.Poller

/-! Where events go while descriptor numbers are closed and handed out again. -/

namespace Imputio

open Transition

/-- A source whose registration succeeded: its token, and the notifier supplied with it. -/
structure Source where
  token : Nat
  notify : Option ChannelId
  deriving DecidableEq, Repr

/-- A poller thread, the descriptor numbers of its process, and the sources it accepted. -/
structure RoutingSystem where
  -- There is no poller any more after a panic.
  poller : Option Poller
  openFds : RawFd → Bool
  -- History.
  sources : List Source

/-- One step of the process. -/
inductive RoutingAction where
  | openFd (fd : RawFd)
  | closeFd (fd : RawFd)
  | pushFd (fd : RawFd) (interest : Interest) (notify : Option ChannelId) (os : OsReply)
  | pushTcp (fd : RawFd) (interest : Interest) (notify : Option ChannelId) (os : OsReply)
  deriving DecidableEq, Repr

/-- The operation that a step pushes, with the answers of the system. -/
def RoutingAction.pushed : RoutingAction → Option (Operation × OsReply)
  | .pushFd fd interest notify os => some (.registrationFdAdd fd interest notify, os)
  | .pushTcp fd interest notify os =>
    some (.registrationTcpAdd ⟨fd, fd, os.file⟩ interest notify, os)
  | _ => none

/-- The descriptor number that a stored operation owns. -/
def Operation.cloneFd : Operation → Option RawFd
  | .registrationTcpAdd clone _ _ => some clone.rawFd
  | _ => none

/-- The slab owns a descriptor number through the clone of a listener. -/
def Poller.holdsClone (p : Poller) (fd : RawFd) : Bool :=
  decide (∃ key ∈ p.tokens.keys, (p.tokens.get key).bind Operation.cloneFd = some fd)

namespace RoutingSystem

/-- A process with no descriptors of its own and a new poller. -/
def new : RoutingSystem where
  poller := some .new
  openFds := fun _ => false
  sources := []

/-- The numbers owned by the slab of the poller, if it is alive. -/
def holdsClone (poller : Option Poller) (fd : RawFd) : Bool :=
  poller.any fun p => p.holdsClone fd

/-- The poller thread pushes an operation, after which overwritten clones are closed. -/
def push (policy : KeyPolicy) (s : RoutingSystem) (op : Operation) (os : OsReply) :
    RoutingSystem :=
  match s.poller with
  -- The message is dropped when the thread is gone.
  | none => s
  | some p =>
    let outcome := p.pushTokenEntry policy op os
    let poller := outcome.map Prod.fst
    { poller := poller
      openFds := fun fd => holdsClone poller fd || (s.openFds fd && !holdsClone (some p) fd)
      sources := match outcome with
        | some (after, .ok ()) =>
          -- The token is the one that the kernel was given.
          s.sources ++ (after.accepted.getLast?.map fun source => ⟨source.token, op.notify⟩).toList
        | _ => s.sources }

/-- What each step does, where it is possible. -/
def next (policy : KeyPolicy) (s : RoutingSystem) : RoutingAction → Option RoutingSystem
  | .openFd fd =>
    if s.openFds fd then none else some { s with openFds := Function.update s.openFds fd true }
  | .closeFd fd =>
    if s.openFds fd ∧ !holdsClone s.poller fd then
      some { s with openFds := Function.update s.openFds fd false }
    else none
  | .pushFd fd interest notify os =>
    -- The kernel only accepts open descriptors.
    if os.register → s.openFds fd then
      some (s.push policy (.registrationFdAdd fd interest notify) os)
    else none
  | .pushTcp fd interest notify os =>
    if s.openFds fd ∧ ∀ number ∈ os.tryClone, !s.openFds number then
      let s := s.push policy (.registrationTcpAdd ⟨fd, fd, os.file⟩ interest notify) os
      -- The listener itself is dropped when the call returns.
      some { s with openFds := Function.update s.openFds fd false }
    else none

/-- What `poll` sends for one token while it dispatches a batch. -/
def sendsFor (p : Poller) (events : List Event) (token : Nat) : List (ChannelId × Event) :=
  (p.poll (.ok events)).sends.filter fun sent => sent.2.token = token

/--
Every batch is dispatched to its end, and the events with the token of a source are sent to the
notifier that was supplied with the source, and to no other.
-/
def Routed (s : RoutingSystem) : Prop :=
  ∀ source ∈ s.sources, ∃ p, s.poller = some p ∧ ∀ events,
    (p.poll (.ok events)).result = some (.ok ()) ∧
    sendsFor p events source.token = match source.notify with
      | none => []
      | some notify => (events.filter fun event => event.token = source.token).map (notify, ·)

/--
A pushed operation is about an unknown descriptor number, or the notifier that is recorded for the
number is the one that all sources under its token were registered with.
-/
def KeepsRoutes (s : RoutingSystem) (act : RoutingAction) : Prop :=
  match s.poller, act.pushed with
  | some p, some (op, os) =>
    match p.eventSrcIds op.rawFd with
    | none => True
    | some (id, recorded) =>
      -- Indexing a vacant slot panics.
      if p.tokens.get id = none then s.sources = []
      else ¬ op.CloneFails os →
        (∀ source ∈ s.sources, source.token = id → source.notify = recorded) ∧
          (os.register = true → op.notify = recorded)
  | _, _ => True

instance (s : RoutingSystem) (act : RoutingAction) : Decidable (s.KeepsRoutes act) := by
  unfold KeepsRoutes
  split
  · split
    · infer_instance
    · infer_instance
  · infer_instance

/-- Slots are in use by operations that ask for events, and so are the slots of all sources. -/
def Occupied (s : RoutingSystem) : Prop :=
  ∀ p, s.poller = some p → p.AllWatch ∧ ∀ source ∈ s.sources, p.tokens.get source.token ≠ none

/-- What is sent for one token is decided by the slot of that token alone. -/
theorem sendsFor_eq {p : Poller} (watch : p.AllWatch) (events : List Event) (token : Nat) :
    sendsFor p events token = match p.slotNotify token with
      | none => []
      | some notify => (events.filter fun event => event.token = token).map (notify, ·) := by
  -- The slots stay as they are while the batch is dispatched.
  unfold sendsFor
  rw [watch.poll]
  induction events with
  | nil => cases p.slotNotify token <;> rfl
  | cons event events ih =>
    by_cases same : event.token = token
    · cases found : p.slotNotify token with
      | none => simpa [same, found] using ih
      | some notify => simpa [same, found] using ih
    · cases found : p.slotNotify token with
      | none =>
        cases other : p.slotNotify event.token <;> simpa [same, found, other] using ih
      | some notify =>
        cases other : p.slotNotify event.token <;> simpa [same, found, other] using ih

/-- Events are routed when the slot of every source holds the notifier of the source. -/
theorem routed_iff {s : RoutingSystem} (occupied : s.Occupied) :
    s.Routed ↔ ∀ source ∈ s.sources, ∃ p, s.poller = some p ∧
      p.slotNotify source.token = source.notify := by
  -- What is sent for a token is decided by its slot, so the slots can be compared.
  constructor
  · intro routed source member
    obtain ⟨p, alive, sends⟩ := routed source member
    refine ⟨p, alive, ?_⟩
    -- One event with the token of the source tells what its slot holds.
    have one := (sends [⟨source.token, 0⟩]).2
    rw [sendsFor_eq (occupied p alive).1] at one
    cases found : p.slotNotify source.token <;> cases given : source.notify <;>
      simp_all
  · intro slots source member
    obtain ⟨p, alive, found⟩ := slots source member
    have watch := (occupied p alive).1
    refine ⟨p, alive, fun events => ⟨by rw [watch.poll], ?_⟩⟩
    rw [sendsFor_eq watch, found]

/-- What pushing an operation that asks for events does to the poller and to the sources. -/
inductive Pushed (policy : KeyPolicy) (s : RoutingSystem) (p : Poller) (op : Operation)
    (os : OsReply) : Option Poller → List Source → Prop
  | panicked {id : Nat} {recorded : Option ChannelId}
      (known : p.eventSrcIds op.rawFd = some (id, recorded)) (vacant : p.tokens.get id = none) :
      Pushed policy s p op os none s.sources
  -- The listener could not be cloned, so no slot is written.
  | unwritten {after : Poller} (same : after.tokens = p.tokens) (failed : op.CloneFails os)
      (occupied : ∀ id recorded, p.eventSrcIds op.rawFd = some (id, recorded) →
        p.tokens.get id ≠ none) : Pushed policy s p op os (some after) s.sources
  -- The slot of the token is written with a notifier, and the kernel may accept the source.
  | written {after : Poller} {token : Nat} {noted : Option ChannelId} {stored : Operation}
      (cloned : ¬ op.CloneFails os)
      (slots : ∀ key, after.tokens.get key = if key = token then some stored else p.tokens.get key)
      (watches : stored.Watches) (notify : stored.notify = noted)
      (place : (p.eventSrcIds op.rawFd = some (token, noted) ∧ p.tokens.get token ≠ none) ∨
        (p.eventSrcIds op.rawFd = none ∧ p.tokens.get token = none ∧ noted = op.notify)) :
      Pushed policy s p op os (some after)
        (s.sources ++ if os.register then [⟨token, op.notify⟩] else [])

/-- Pushing an operation that asks for events has one of the listed results. -/
theorem push_pushed {policy : KeyPolicy} {s : RoutingSystem} {p : Poller} {op : Operation}
    {os : OsReply} (alive : s.poller = some p) (asks : op.Watches) :
    Pushed policy s p op os (s.push policy op os).poller (s.push policy op os).sources := by
  -- The effects of the operation are gone through; what is asked of the kernel adds the source.
  have kept : ∀ fd, op ≠ .deleteRegistration fd := by
    intro fd same
    subst same
    exact asks
  have effect := p.pushTokenEntry_effect policy op os kept
  unfold push
  simp only [alive]
  generalize p.pushTokenEntry policy op os = outcome at effect
  -- The source is added with the token that the kernel has accepted it under.
  have added : ∀ {token : Nat} {after : Poller} {result : PollResult Unit},
      p.Asked op.rawFd (op.file os) token os after result →
      (match some (after, result) with
        | some (after, .ok ()) => s.sources ++
          (after.accepted.getLast?.map fun source => ⟨source.token, op.notify⟩).toList
        | _ => s.sources) = s.sources ++ if os.register then [⟨token, op.notify⟩] else [] := by
    intro token after result asked
    rcases asked with ⟨accepted, rfl, grown⟩ | ⟨rejected, rfl, -⟩
    · simp [accepted, grown]
    · simp [rejected]
  cases effect with
  | panicked known vacant => exact .panicked known vacant
  | refused known occupied failed ids slots =>
    refine .unwritten slots failed fun id recorded known' => ?_
    obtain ⟨rfl, -⟩ := Prod.mk.inj (Option.some.inj (known.symm.trans known'))
    exact occupied
  | rewritten known occupied cloned ids slots subject notify watches =>
    obtain ⟨watches, asked⟩ := watches asks
    have sources := added asked
    rw [sources]
    exact .written cloned slots watches notify (.inl ⟨known, occupied⟩)
  | added unknown cloned ids slots subject notify watches =>
    obtain ⟨watches, asked⟩ := watches asks
    have sources := added asked
    rw [sources]
    exact .written cloned slots watches notify (.inr ⟨unknown, Slab.get_vacantKey .., rfl⟩)
  | leaked unknown failed ids slots =>
    exact .unwritten slots failed fun id recorded known => by simp [unknown] at known

variable {policy : KeyPolicy} {s t : RoutingSystem} {act : RoutingAction}

/-- Every step pushes an operation that asks for events, or changes no table at all. -/
theorem step_cases (step : Steps (next policy) s act t) :
    (∃ op os, act.pushed = some (op, os) ∧ op.Watches ∧
      t.poller = (s.push policy op os).poller ∧ t.sources = (s.push policy op os).sources) ∨
    (act.pushed = none ∧ t.poller = s.poller ∧ t.sources = s.sources) := by
  -- Opening and closing descriptors does not reach the poller.
  cases act with
  | openFd fd =>
    obtain ⟨-, taken⟩ := Option.ite_none_left_eq_some.mp step
    obtain rfl := Option.some.inj taken
    exact .inr ⟨rfl, rfl, rfl⟩
  | closeFd fd =>
    obtain ⟨-, rfl⟩ := enabled_iff.mp step
    exact .inr ⟨rfl, rfl, rfl⟩
  | pushFd fd interest notify os =>
    obtain ⟨-, rfl⟩ := enabled_iff.mp step
    exact .inl ⟨_, _, rfl, trivial, rfl, rfl⟩
  | pushTcp fd interest notify os =>
    obtain ⟨-, rfl⟩ := enabled_iff.mp step
    exact .inl ⟨_, _, rfl, trivial, rfl, rfl⟩

/-- Without a poller a pushed operation is lost. -/
theorem push_dead {op : Operation} {os : OsReply} (dead : s.poller = none) :
    s.push policy op os = s := by
  unfold push
  simp only [dead]

/-- The one source that a registration may add is there if the kernel has accepted it. -/
theorem mem_accepted {accepted : Bool} {new source : Source} :
    source ∈ (if accepted then [new] else []) ↔ accepted = true ∧ source = new := by
  cases accepted <;> simp

/-- Every step keeps the slots of all sources in use. -/
theorem Occupied.step (occupied : s.Occupied) (step : Steps (next policy) s act t) :
    t.Occupied := by
  -- A slot that is in use is only ever overwritten.
  intro p' alive'
  rcases step_cases step with ⟨op, os, -, asks, poller, sources⟩ | ⟨-, poller, sources⟩
  · cases alive : s.poller with
    | none =>
      rw [push_dead alive, alive] at poller
      simp [poller] at alive'
    | some p =>
      obtain ⟨watch, used⟩ := occupied p alive
      have pushed := @push_pushed policy _ _ _ os alive asks
      rw [← poller, ← sources, alive'] at pushed
      generalize t.sources = now at pushed ⊢
      cases pushed with
      | unwritten same failed _ =>
        unfold Poller.AllWatch
        rw [same]
        exact ⟨watch, used⟩
      | @written _ token noted stored cloned slots watches notify place =>
        refine ⟨fun key op' stored' => ?_, fun source member => ?_⟩
        · rw [slots] at stored'
          split at stored'
          · obtain rfl := Option.some.inj stored'
            exact watches
          · exact watch key op' stored'
        · rw [slots]
          split
          · simp
          · rename_i apart
            -- A source in another slot was there before.
            rcases List.mem_append.mp member with old | new
            · exact used source old
            · obtain ⟨-, rfl⟩ := mem_accepted.mp new
              exact absurd rfl apart
  · rw [sources]
    exact occupied p' (poller ▸ alive')

/-- A slot that is written keeps events routed when all sources under its token share a notifier. -/
theorem written_routes_iff {p after : Poller} {sources new : List Source} {token : Nat}
    {noted : Option ChannelId} {stored : Operation}
    (slots : ∀ key, after.tokens.get key = if key = token then some stored else p.tokens.get key)
    (notify : stored.notify = noted)
    (found : ∀ source ∈ sources, p.slotNotify source.token = source.notify)
    (added : ∀ source ∈ new, source.token = token) :
    (∀ source ∈ sources ++ new, ∃ now, some after = some now ∧
      now.slotNotify source.token = source.notify) ↔
    (∀ source ∈ sources, source.token = token → source.notify = noted) ∧
      ∀ source ∈ new, source.notify = noted := by
  -- Events of the written token go to the stored notifier, all others as before.
  have at_slot : ∀ key, after.slotNotify key =
      if key = token then noted else p.slotNotify key := by
    intro key
    unfold Poller.slotNotify
    rw [slots]
    by_cases same : key = token
    · simp [same, notify]
    · simp [same]
  constructor
  · intro routes
    refine ⟨fun source member same => ?_, fun source member => ?_⟩
    · obtain ⟨now, is_now, there⟩ := routes source (List.mem_append_left _ member)
      obtain rfl := Option.some.inj is_now
      rw [at_slot, if_pos same] at there
      exact there.symm
    · obtain ⟨now, is_now, there⟩ := routes source (List.mem_append_right _ member)
      obtain rfl := Option.some.inj is_now
      rw [at_slot, if_pos (added source member)] at there
      exact there.symm
  · rintro ⟨old, latest⟩ source member
    refine ⟨after, rfl, ?_⟩
    rw [at_slot]
    rcases List.mem_append.mp member with earlier | last
    · split
      · rename_i same
        exact (old source earlier same).symm
      · exact found source earlier
    · rw [if_pos (added source last)]
      exact (latest source last).symm

/-- Pushing an operation keeps all events routed exactly when it meets the condition. -/
theorem Pushed.routed_iff {p : Poller} {op : Operation} {os : OsReply} {poller : Option Poller}
    {sources : List Source} (pushed : Pushed policy s p op os poller sources)
    (alive : s.poller = some p) (pushes : act.pushed = some (op, os))
    (found : ∀ source ∈ s.sources, p.slotNotify source.token = source.notify)
    (used : ∀ source ∈ s.sources, p.tokens.get source.token ≠ none) :
    (∀ source ∈ sources, ∃ now, poller = some now ∧
      now.slotNotify source.token = source.notify) ↔ s.KeepsRoutes act := by
  -- In each result the sources there were are looked at, and then the one that is new.
  simp only [KeepsRoutes, alive, pushes]
  cases pushed with
  | panicked known vacant =>
    -- Without a poller no source is routed any more.
    simp only [known, vacant, if_true, reduceCtorEq, false_and, exists_false, imp_false]
    exact List.eq_nil_iff_forall_not_mem.symm
  | @unwritten after same failed occupied =>
    -- Nothing is stored, so every source keeps its notifier, and the condition asks nothing.
    refine iff_of_true (fun source member => ⟨after, rfl, ?_⟩) ?_
    · rw [Poller.slotNotify, same]
      exact found source member
    · cases known : p.eventSrcIds op.rawFd with
      | none => trivial
      | some entry =>
        show if p.tokens.get entry.1 = none then _ else _
        rw [if_neg (occupied entry.1 entry.2 known)]
        exact fun cloned => absurd failed cloned
  | @written after token noted stored cloned slots watches notify place =>
    have latest : (∀ source ∈ if os.register then [(⟨token, op.notify⟩ : Source)] else [],
        source.notify = noted) ↔ (os.register = true → op.notify = noted) := by
      simp only [mem_accepted]
      constructor
      · intro all accepted
        exact all _ ⟨accepted, rfl⟩
      · rintro same source ⟨accepted, rfl⟩
        exact same accepted
    rw [written_routes_iff slots notify found
      (fun source member => by rw [(mem_accepted.mp member).2]), latest]
    -- The slot is that of a known descriptor, or a vacant one that no source has.
    rcases place with ⟨known, occupied⟩ | ⟨unknown, vacant, supplied⟩
    · simp only [known, occupied, if_false, cloned, not_false_eq_true, forall_const]
    · simp only [unknown, iff_true]
      refine ⟨fun source member same => ?_, fun _ => supplied.symm⟩
      exact absurd (same ▸ vacant) (used source member)

/-- A step keeps all events routed exactly when it meets the condition. -/
theorem routed_step_iff (occupied : s.Occupied) (routed : s.Routed)
    (step : Steps (next policy) s act t) : t.Routed ↔ s.KeepsRoutes act := by
  -- Either an operation is pushed, or neither the slots nor the sources change.
  have after := occupied.step step
  rw [routed_iff after]
  have before := (routed_iff occupied).mp routed
  rcases step_cases step with ⟨op, os, pushes, asks, poller, sources⟩ | ⟨pushes, poller, sources⟩
  · cases alive : s.poller with
    | none =>
      -- Without a poller there was no source to begin with.
      rw [push_dead alive] at poller sources
      rw [poller, sources]
      simp only [KeepsRoutes, alive, iff_true]
      intro source member
      obtain ⟨p, alive', -⟩ := before source member
      simp [alive] at alive'
    | some p =>
      have found : ∀ source ∈ s.sources, p.slotNotify source.token = source.notify := by
        intro source member
        obtain ⟨p', alive', found⟩ := before source member
        obtain rfl : p = p' := Option.some.inj (alive.symm.trans alive')
        exact found
      have pushed := @push_pushed policy _ _ _ os alive asks
      rw [← poller, ← sources] at pushed
      exact pushed.routed_iff alive pushes found (occupied p alive).2
  · simp only [KeepsRoutes, pushes, poller, sources]
    simpa using before

end RoutingSystem

open RoutingSystem

/--
The events of every accepted source reach its own notifier throughout a history exactly when every
operation of the history is about an unknown descriptor number or finds its notifier recorded.
-/
theorem notifications_routed {policy : KeyPolicy} {acts : List RoutingAction} {s : RoutingSystem}
    (run : Run (Steps (next policy)) .new acts s) :
    Throughout (Steps (next policy)) .new Routed acts ↔
      Run (Guarded KeepsRoutes (Steps (next policy))) .new acts s := by
  -- A new poller has no slots, so the invariant holds at the start.
  have occupied : new.Occupied := by
    intro p alive
    obtain rfl : Poller.new = p := Option.some.inj alive
    exact ⟨fun key op stored => by simp [Poller.new, Slab.get, Slab.empty] at stored, by simp [new]⟩
  exact run.throughout_iff_guarded steps_functional occupied
    (fun _ _ _ before step => before.step step) (by simp [Routed, new])
    fun _ _ _ before routed step => routed_step_iff before routed step

/-- Two listeners are registered one after the other, and the second has the number of the first. -/
def twoListeners : List RoutingAction :=
  [.openFd 5, .pushTcp 5 .readable (some 0) ⟨some 6, true, 1, []⟩,
    .openFd 5, .pushTcp 5 .readable (some 1) ⟨some 7, true, 2, []⟩]

/-- The events of the second listener are sent to the notifier of the first one. -/
theorem second_listener_misrouted :
    ∃ s p, Run (Steps (next .inOrder)) .new twoListeners s ∧ s.poller = some p ∧
      s.sources = [⟨0, some 0⟩, ⟨0, some 1⟩] ∧ sendsFor p [⟨0, 1⟩] 0 = [(0, ⟨0, 1⟩)] ∧
      ¬ s.Routed := by
  -- The run is replayed, and its last state is tested.
  have replayed : (replay (next .inOrder) .new twoListeners).map (fun s =>
      s.sources == [⟨0, some 0⟩, ⟨0, some 1⟩] &&
        s.poller.any fun p => sendsFor p [⟨0, 1⟩] 0 == [(0, ⟨0, 1⟩)]) = some true := by
    decide
  obtain ⟨s, run, wrong⟩ := Run.of_replay_test replayed
  simp only [Bool.and_eq_true, beq_iff_eq, Option.any_eq_true] at wrong
  obtain ⟨sources, p, alive, sends⟩ := wrong
  refine ⟨s, p, run, alive, sources, sends, fun routed => ?_⟩
  obtain ⟨p', alive', own⟩ := routed ⟨0, some 1⟩ (by simp [sources])
  obtain rfl : p = p' := Option.some.inj (alive.symm.trans alive')
  have expected := (own [⟨0, 1⟩]).2
  rw [sends] at expected
  simp at expected

/-- A listener and a raw descriptor, the latter closed and its number registered again. -/
def reusedWithoutNotifier : List RoutingAction :=
  [.openFd 5, .pushTcp 5 .readable (some 0) ⟨some 6, true, 1, []⟩, .openFd 7,
    .pushFd 7 .readable none ⟨none, true, 2, [2]⟩,
    .closeFd 7, .openFd 7, .pushFd 7 .readable none ⟨none, true, 3, [3]⟩]

/-- A number can be used again without a notifier where none was supplied before. -/
theorem notifications_routed_without_notifier :
    ∃ s, Run (Steps (next .inOrder)) .new reusedWithoutNotifier s ∧
      Throughout (Steps (next .inOrder)) .new Routed reusedWithoutNotifier := by
  -- Every step of the replay is tested against the condition.
  have replayed : (replay (checked KeepsRoutes (next .inOrder)) .new
      reusedWithoutNotifier).isSome = true := by
    decide
  obtain ⟨s, guarded⟩ := Run.of_checked replayed
  exact ⟨s, guarded.unguard, (notifications_routed guarded.unguard).mpr guarded⟩

end Imputio
