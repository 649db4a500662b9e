import Imputio.EventBus.Ids
import Imputio.EventBus.Isolation

/-! With deferred deletion, an id is granted once and then belongs to one subscription for good. -/

namespace Imputio

open Transition

variable {build : Build} {τ : Type*}

/-- The id that a processed message has granted. -/
def Processed.grantedId (entry : Processed build τ) : Option SubId :=
  match entry.reply with
  | some (_, .ok (.subId id)) => some id
  | _ => none

/-- All ids that were granted, in the order of the grants. -/
def grantedIds (trace : List (Processed build τ)) : List SubId :=
  trace.filterMap Processed.grantedId

/-- A message that granted an id is one whose reply carries it. -/
theorem Processed.grantedId_iff {entry : Processed build τ} {id : SubId} :
    entry.grantedId = some id ↔ entry.Grants id := by
  -- An id is carried by a reply that is an id, and by no other one.
  unfold grantedId Grants
  constructor
  · intro granted
    split at granted
    · rename_i reply id' answered
      obtain rfl := Option.some.inj granted
      exact ⟨reply, answered⟩
    · cases granted
  · rintro ⟨reply, answered⟩
    rw [answered]

/-- The last message of a trace adds the id that it has granted, if any. -/
theorem grantedIds_concat (trace : List (Processed build τ)) (entry : Processed build τ) :
    grantedIds (trace ++ [entry]) = grantedIds trace ++ entry.grantedId.toList := by
  rw [grantedIds, List.filterMap_append, grantedIds]
  cases granted : entry.grantedId <;> simp [granted]

section Bus

variable {bus after : EventBus τ} {entry : Processed .delayDelete τ}
  {trace : List (Processed .delayDelete τ)}

/-- An id is free as long as it has not been granted: nothing ever gives it back. -/
theorem BusStep.stays_free (step : BusStep bus entry after) (id : SubId) :
    after.ids id = true ↔ bus.ids id = true ∧ ¬ entry.Grants id := by
  -- A grant is the only effect that changes the free ids in this build.
  have same : (∀ reply id, entry.reply ≠ some (reply, .ok (.subId id))) → after.ids = bus.ids →
      (after.ids id = true ↔ bus.ids id = true ∧ ¬ entry.Grants id) := by
    intro other ids
    rw [ids]
    exact ⟨fun free => ⟨free, fun ⟨reply, answered⟩ => other reply id answered⟩, And.left⟩
  cases step.effect with
  | @granted reply newId free =>
    have grants : Processed.Grants id
        (⟨.subscribe reply, some newId, some (reply, .ok (.subId newId))⟩ :
          Processed .delayDelete τ) ↔ newId = id := by
      simp [Processed.Grants]
    rw [grants]
    by_cases named : id = newId
    · simp [EventBus.subscribe, named]
    · simp [EventBus.subscribe, named, Ne.symm named]
  | exhausted => exact same (by simp) rfl
  -- Queues are removed at once in the other build only.
  | removed now => cases now
  | marked => exact same (by simp) rfl
  | pushed => exact same (by simp) rfl
  | @polled named =>
    refine same ?_ (bus.poll_rest named).1
    cases live : bus.eventQueues named <;> simp [EventBus.poll, live, Except.map]
  | @drained named =>
    refine same ?_ (bus.batchPoll_rest named).1
    cases live : bus.eventQueues named <;> simp [EventBus.batchPoll, live, Except.map]
  | cleaned => exact same (by simp) bus.cleanup_rest.1

/-- The free ids are those that have not been granted, and none was granted twice. -/
theorem single_use_of_run (run : Run BusStep .new trace bus) :
    (grantedIds trace).Nodup ∧ (∀ id ∈ grantedIds trace, 1 ≤ id ∧ id ≤ 65534) ∧
      ∀ id, bus.ids id = true ↔ (1 ≤ id ∧ id ≤ 65534) ∧ id ∉ grantedIds trace := by
  -- The induction carries that an id is free exactly until it is granted.
  induction run with
  | nil =>
    refine ⟨List.nodup_nil, by simp [grantedIds], fun id => ?_⟩
    -- At first exactly the ids of the range are free.
    change decide (1 ≤ id ∧ id < 65535) = true ↔ (1 ≤ id ∧ id ≤ 65534) ∧ id ∉ []
    rw [decide_eq_true_eq, Nat.lt_succ_iff, and_iff_left List.not_mem_nil]
  | @snoc trace before bus entry _ step ih =>
    obtain ⟨once, inside, free⟩ := ih
    have among : ∀ id, id ∈ entry.grantedId.toList ↔ entry.Grants id := fun id =>
      Option.mem_toList.trans Processed.grantedId_iff
    -- What is granted now was free, so it is one of the ids and had not been granted.
    have picked : ∀ id ∈ entry.grantedId.toList,
        (1 ≤ id ∧ id ≤ 65534) ∧ id ∉ grantedIds trace := by
      intro id new
      obtain ⟨-, -, -, -, before, -⟩ := step.picks ((among id).mp new)
      exact (free id).mp before
    rw [grantedIds_concat]
    refine ⟨?_, ?_, fun id => ?_⟩
    · exact once.append (by cases entry.grantedId <;> simp) fun id old new => (picked id new).2 old
    · intro id granted
      exact (List.mem_append.mp granted).elim (inside id) fun new => (picked id new).1
    -- What is free afterwards was free before and is not granted now.
    · rw [step.stays_free, free, List.mem_append, among, not_or, and_assoc]

/-- A granted id whose queue was removed never has a queue again. -/
theorem dead_for_good {later : EventBus τ} {more : List (Processed .delayDelete τ)} {id : SubId}
    (run : Run BusStep bus more later) (taken : bus.ids id = false) (dead : ¬ bus.Live id) :
    ¬ later.Live id := by
  -- Only a grant could bring the queue back, and the id is not free for one.
  have keeps : ∀ (bus : EventBus τ) (entry : Processed .delayDelete τ) after,
      bus.ids id = false ∧ ¬ bus.Live id → BusStep bus entry after →
        after.ids id = false ∧ ¬ after.Live id := by
    rintro bus entry after ⟨taken, dead⟩ step
    refine ⟨?_, fun live => ?_⟩
    · by_contra free
      -- No step makes an id free that was taken.
      have before := ((step.stays_free id).mp (by simpa using free)).1
      simp [taken] at before
    · rcases step.live_before live with before | grants
      · exact dead before
      · obtain ⟨-, -, -, -, picked, -⟩ := step.picks grants
        simp [taken] at picked
  exact (run.invariant ⟨taken, dead⟩ keeps).2

end Bus

/--
With deferred deletion, every id is granted at most once in the life of a bus.

So the bus serves 65534 subscriptions and refuses every later one, even if all of them have ended,
and a subscription that has ended is never continued by another one under the same id.
-/
theorem delayed_ids_granted_once {trace : List (Processed .delayDelete τ)} {bus : EventBus τ}
    (run : Run BusStep .new trace bus) :
    (grantedIds trace).Nodup ∧ (grantedIds trace).length ≤ 65534 ∧
    (∀ (entry : Processed .delayDelete τ) after reply, BusStep bus entry after →
      entry.message = .subscribe reply →
        (entry.reply = some (reply, .error .resourceExhaustion) ↔
          (grantedIds trace).length = 65534)) ∧
    ∀ id ∈ grantedIds trace, ¬ bus.Live id →
      ∀ (more : List (Processed .delayDelete τ)) later, Run BusStep bus more later →
        ¬ later.Live id := by
  -- Ids that were granted and free ids make up the range, and the former never come back.
  obtain ⟨once, inside, free⟩ := single_use_of_run run
  have within : (grantedIds trace).toFinset ⊆ Finset.Icc 1 65534 := fun id granted =>
    Finset.mem_Icc.mpr (inside id (List.mem_toFinset.mp granted))
  have count : (grantedIds trace).toFinset.card = (grantedIds trace).length :=
    List.toFinset_card_of_nodup once
  have all : (Finset.Icc 1 65534).card = 65534 := Nat.card_Icc 1 65534
  refine ⟨once, by rw [← count, ← all]; exact Finset.card_le_card within, ?_, ?_⟩
  · intro entry after reply step asked
    -- The bus refuses when nothing is free, that is, when every id was granted.
    have refused : entry.reply = some (reply, .error .resourceExhaustion) ↔ bus.freeIds = ∅ := by
      rcases step.subscribed asked with ⟨id, free, answered, -⟩ | ⟨empty, answered, -⟩
      · rw [answered]
        exact ⟨fun same => by simp at same, fun none => absurd free (by simp [none])⟩
      · exact ⟨fun _ => empty, fun _ => answered⟩
    rw [refused, ← count]
    constructor
    · intro empty
      -- An id that is not free was granted, so all of them were.
      have covered : Finset.Icc 1 65534 ⊆ (grantedIds trace).toFinset := by
        intro id known
        by_contra fresh
        have free : id ∈ bus.freeIds :=
          (free id).mpr ⟨Finset.mem_Icc.mp known, fun granted =>
            fresh (List.mem_toFinset.mpr granted)⟩
        simp [empty] at free
      rw [within.antisymm covered, all]
    · intro full
      -- So many different ids are all there are, so none is left.
      have same := Finset.eq_of_subset_of_card_le within (all.trans full.symm).le
      refine Set.eq_empty_of_forall_notMem fun id isFree => ?_
      obtain ⟨known, fresh⟩ := (free id).mp isFree
      exact fresh (List.mem_toFinset.mp (same ▸ Finset.mem_Icc.mpr known))
  · intro id granted dead more later onward
    have taken : bus.ids id = false := by
      by_contra isFree
      exact ((free id).mp (by simpa using isFree)).2 granted
    exact dead_for_good onward taken dead

/-- One id is granted and cleaned up, and another one is granted. -/
theorem delayed_ids_granted_once_cleaned :
    ∃ bus : EventBus Nat, Run BusStep .new
        ([⟨.subscribe 0, some 1, some (0, .ok (.subId 1))⟩, ⟨.unsubscribe 1, none, none⟩,
          ⟨.cleanUpBgTask rfl, none, none⟩, ⟨.subscribe 1, some 2, some (1, .ok (.subId 2))⟩] :
          List (Processed .delayDelete Nat)) bus ∧
      ∀ (more : List (Processed .delayDelete Nat)) later, Run BusStep bus more later →
        ¬ later.Live 1 := by
  -- The four messages are taken one after the other, and the bus picks what is free.
  have run : Run BusStep (.new : EventBus Nat)
      ([⟨.subscribe 0, some 1, some (0, .ok (.subId 1))⟩, ⟨.unsubscribe 1, none, none⟩,
        ⟨.cleanUpBgTask rfl, none, none⟩, ⟨.subscribe 1, some 2, some (1, .ok (.subId 2))⟩] :
        List (Processed .delayDelete Nat)) _ :=
    .cons ⟨fun _ _ => rfl, rfl⟩ <| .cons ⟨by simp, rfl⟩ <| .cons ⟨by simp, rfl⟩ <|
      .cons ⟨fun _ _ => rfl, rfl⟩ .nil
  obtain ⟨-, -, -, dead⟩ := delayed_ids_granted_once run
  exact ⟨_, run, dead 1 (by decide) (by rintro ⟨queue, live⟩; cases live)⟩

namespace BusSystem

variable {s t : BusSystem .delayDelete τ} {act : ClientAction τ}

/-- A free id has had no subscription, and whoever holds an id holds it for its only one. -/
structure SingleUse (s : BusSystem .delayDelete τ) : Prop where
  unowned : ∀ id, s.bus.ids id = true → s.owner id = none
  held : ∀ id subscription, s.Holds id subscription → s.owner id = some subscription

/-- The requests in the channel name the ids of the subscriptions that they are sent for. -/
def NamesOwn (s : BusSystem .delayDelete τ) : Prop :=
  ∀ request ∈ s.requests.queue, ∀ id subscription, request.message.Names id →
    request.subscription = some subscription → s.owner id = some subscription

/-- Nothing is held before the first subscription. -/
theorem newWithHandle_singleUse : (newWithHandle : BusSystem .delayDelete τ).SingleUse where
  unowned := fun _ _ => rfl
  held := fun _ _ holds => absurd (.inl holds) newWithHandle_carries

/-- The actor gives an id its owner when it grants it, and never another one. -/
theorem SingleUse.owner_kept (single : s.SingleUse) {bus : EventBus τ}
    {entry : Processed .delayDelete τ} (turn : BusStep s.bus entry bus) {id : SubId}
    {subscription : ReplyId} (owned : s.owner id = some subscription) :
    grant s.owner entry.reply id = some subscription := by
  -- Only a grant writes the owner of an id.
  rcases grant_apply s.owner entry.reply id with ⟨granted, sent, -⟩ | ⟨-, same⟩
  · -- A granted id was free, and a free id has no owner.
    obtain ⟨-, -, -, -, picked, -⟩ := turn.picks ⟨granted, sent⟩
    rw [single.unowned id picked] at owned
    cases owned
  · exact same.trans owned

/-- Every step keeps each id with its only subscription, whatever the clients unsubscribe. -/
theorem SingleUse.step (single : s.SingleUse) (step : SystemStep s act t) : t.SingleUse := by
  -- A client gets its handle from a reply, and the owner was written when the reply was sent.
  have effect := step.effect
  by_cases client : ∀ next, act ≠ .serve next
  · obtain ⟨bus, owner, older⟩ := effect.client client
    refine ⟨fun id free => ?_, fun id subscription holds => ?_⟩
    · rw [owner]
      exact single.unowned id (bus ▸ free)
    · rw [owner]
      exact single.held id subscription (older id subscription holds)
  · obtain ⟨next, rfl⟩ : ∃ next, act = .serve next := by simpa using client
    cases effect with
    | called client => exact absurd rfl (client _)
    | counted client => exact absurd rfl (client _)
    | @served _ request rest reply bus front turn =>
      obtain ⟨atBus, atOwner, -⟩ := deliver_rest ({ s with
        bus := bus
        requests := { s.requests with queue := rest }
        owner := grant s.owner reply } : BusSystem .delayDelete τ) reply
      refine ⟨fun id free => ?_, fun id subscription holds => ?_⟩
      · -- An id that is still free was free before and is not granted now.
        rw [atBus] at free
        rw [atOwner]
        obtain ⟨before, other⟩ := (turn.stays_free id).mp free
        rcases grant_apply s.owner reply id with ⟨granted, sent, -⟩ | ⟨-, same⟩
        -- An id that is granted in this step is not free any more.
        · exact absurd ⟨granted, sent⟩ other
        · exact same.trans (single.unowned id before)
      · rw [atOwner]
        rcases Holds.of_deliver holds with old | new
        · exact single.owner_kept turn (single.held id subscription old)
        · subst new
          exact Function.update_self id (some subscription) s.owner

/-- An id that has an owner keeps it in every step, whatever the clients do. -/
theorem SingleUse.step_owner (single : s.SingleUse) (step : SystemStep s act t) {id : SubId}
    {subscription : ReplyId} (owned : s.owner id = some subscription) :
    t.owner id = some subscription := by
  -- No client writes an owner, and the actor writes one only where there was none.
  have effect := step.effect
  by_cases client : ∀ next, act ≠ .serve next
  · rw [(effect.client client).2.1]
    exact owned
  · obtain ⟨next, rfl⟩ : ∃ next, act = .serve next := by simpa using client
    cases effect with
    | called client => exact absurd rfl (client _)
    | counted client => exact absurd rfl (client _)
    | @served _ request rest reply bus front turn =>
      rw [(deliver_rest _ reply).2.1]
      exact single.owner_kept turn owned

/-- So it keeps its owner for good. -/
theorem SingleUse.run_owner {acts : List (ClientAction τ)} (run : Run SystemStep s acts t)
    (single : s.SingleUse) {id : SubId} {subscription : ReplyId}
    (owned : s.owner id = some subscription) : t.owner id = some subscription := by
  -- The owner is kept by a step from a state in which ids have a single use.
  have keeps : ∀ (s : BusSystem .delayDelete τ) act t,
      s.SingleUse ∧ s.owner id = some subscription → SystemStep s act t →
        t.SingleUse ∧ t.owner id = some subscription :=
    fun _ _ _ before step => ⟨before.1.step step, before.1.step_owner step before.2⟩
  exact (run.invariant ⟨single, owned⟩ keeps).2

/-- Clients that unsubscribe their own ids only send messages about their own subscriptions. -/
theorem NamesOwn.step (names : s.NamesOwn) (single : s.SingleUse) (own : s.OwnIds act)
    (step : SystemStep s act t) : t.NamesOwn := by
  -- A client's message names what its sender holds, and the actor only takes messages away.
  intro request there id subscription named sent
  have effect := step.effect
  by_cases client : ∀ next, act ≠ .serve next
  · obtain ⟨-, owner, -⟩ := effect.client client
    rw [owner]
    -- Whatever is in the channel now was held, or in the channel, before.
    rcases effect.carries own client (.inr ⟨request, there, named, sent⟩) with
      holds | ⟨other, before, named', sent'⟩
    · exact single.held id subscription holds
    · exact names other before id subscription named' sent'
  · obtain ⟨next, rfl⟩ : ∃ next, act = .serve next := by simpa using client
    cases effect with
    | called client => exact absurd rfl (client _)
    | counted client => exact absurd rfl (client _)
    | @served _ first rest reply bus front turn =>
      obtain ⟨-, atOwner, -, atRequests, -⟩ := deliver_rest ({ s with
        bus := bus
        requests := { s.requests with queue := rest }
        owner := grant s.owner reply } : BusSystem .delayDelete τ) reply
      rw [atRequests] at there
      rw [atOwner]
      have before : request ∈ s.requests.queue := front ▸ List.mem_cons_of_mem _ there
      exact single.owner_kept turn (names request before id subscription named sent)

/-- Where all clients keep to their own ids, each message reaches the queue it is meant for. -/
theorem isolated_of_own {acts : List (ClientAction τ)}
    (run : Run (Guarded OwnIds SystemStep) newWithHandle acts s) : s.Isolated := by
  -- Along the run each id has one owner at most, and each message names the sender's own.
  have init : (newWithHandle : BusSystem .delayDelete τ).NamesOwn := by
    intro request there
    simp [newWithHandle, Channel.unbounded] at there
  have keeps : ∀ (s : BusSystem .delayDelete τ) act t, s.SingleUse ∧ s.NamesOwn →
      Guarded OwnIds SystemStep s act t → t.SingleUse ∧ t.NamesOwn :=
    fun _ _ _ before taken =>
      ⟨before.1.step taken.2, before.2.step before.1 taken.1 taken.2⟩
  -- The message at the front is one of those in the channel.
  obtain ⟨-, names⟩ := run.invariant ⟨newWithHandle_singleUse, init⟩ keeps
  intro request rest id subscription front named sent _
  exact names request (front ▸ List.mem_cons_self) id subscription named sent

end BusSystem

/--
With deferred deletion, no two subscriptions ever have the same id, whatever the clients do.

An id never gets a second owner in a run, and two handles with the same id, held at the same time or
at different ones, are of one subscription. If clients unsubscribe only the ids of their own
handles, a message of one subscription therefore never reaches the queue of another one, without any
condition on what the actor grants.
-/
theorem delayed_subscriptions_isolated {before acts : List (ClientAction τ)}
    {mid last : BusSystem .delayDelete τ} (first : Run SystemStep .newWithHandle before mid)
    (later : Run SystemStep mid acts last) :
    (∀ id subscription, mid.owner id = some subscription → last.owner id = some subscription) ∧
    (∀ handle other sub sub', mid.handles handle = some sub → last.handles other = some sub' →
      sub.id = sub'.id → sub.subscription = sub'.subscription) ∧
    (Run (Guarded BusSystem.OwnIds SystemStep) .newWithHandle (before ++ acts) last →
      last.Isolated) := by
  -- All three parts come down to an id that keeps its one owner along the run.
  have single : ∀ {acts : List (ClientAction τ)} {s : BusSystem .delayDelete τ},
      Run SystemStep .newWithHandle acts s → s.SingleUse := fun run =>
    run.invariant BusSystem.newWithHandle_singleUse fun _ _ _ before step => before.step step
  refine ⟨fun id subscription owned => (single first).run_owner later owned,
    fun handle other sub sub' held held' same => ?_, fun guarded => ?_⟩
  · -- Both handles are held for the owner of their id, which is the same in both states.
    have owned := (single first).run_owner later
      ((single first).held _ _ (BusSystem.Holds.of_handle held))
    have owned' := (single (first.append later)).held _ _ (BusSystem.Holds.of_handle held')
    rw [← same, owned] at owned'
    exact Option.some.inj owned'
  · exact BusSystem.isolated_of_own guarded

/-- A client unsubscribes, and its queue is removed. -/
def unsubscribedAndCleaned : List (ClientAction Nat) :=
  [.getSubscriber, .serve (some 1), .receive 0, .unsubscribe 0 1, .serve none, .cleanup,
    .serve none]

/-- The system after the cleanup. -/
def cleanedSystem : BusSystem .delayDelete Nat :=
  (replay BusSystem.next .newWithHandle unsubscribedAndCleaned).getD .newWithHandle

/-- Another client is granted an id, and the first one drops its handle. -/
def droppedLate : List (ClientAction Nat) :=
  [.getSubscriber, .serve (some 2), .receive 1, .dropSub 0]

/-- The id of the first subscription is still its own, and the late message disturbs nobody. -/
theorem delayed_subscriptions_isolated_late :
    ∃ last : BusSystem .delayDelete Nat,
      Run SystemStep .newWithHandle unsubscribedAndCleaned cleanedSystem ∧
      Run SystemStep cleanedSystem droppedLate last ∧ last.owner 1 = some 0 ∧
      last.owner 2 = some 1 ∧ last.Isolated := by
  -- Each step of both runs meets the condition, and they are put one behind the other.
  have first : Run (Guarded BusSystem.OwnIds SystemStep)
      (.newWithHandle : BusSystem .delayDelete Nat) unsubscribedAndCleaned cleanedSystem :=
    .cons ⟨trivial, by simp, rfl⟩ <|
    .cons ⟨trivial, fun _ _ _ _ same _ _ => by cases same; rfl, rfl⟩ <|
    .cons ⟨trivial, by simp, rfl⟩ <| .cons ⟨rfl, by simp, rfl⟩ <|
    .cons ⟨trivial, fun _ _ _ _ _ front asked => by cases front; simp at asked, rfl⟩ <|
    .cons ⟨trivial, by simp, rfl⟩ <|
    .single ⟨trivial, fun _ _ _ _ _ front asked => by cases front; simp at asked, rfl⟩
  have later : Run (Guarded BusSystem.OwnIds SystemStep) cleanedSystem droppedLate _ :=
    .cons ⟨trivial, by simp, rfl⟩ <|
    .cons ⟨trivial, fun _ _ _ _ same _ _ => by cases same; rfl, rfl⟩ <|
    .cons ⟨trivial, by simp, rfl⟩ <| .cons ⟨trivial, by simp, rfl⟩ .nil
  obtain ⟨kept, -, isolated⟩ := delayed_subscriptions_isolated first.unguard later.unguard
  exact ⟨_, first.unguard, later.unguard, kept 1 0 rfl, rfl, isolated (first.append later)⟩

end Imputio
