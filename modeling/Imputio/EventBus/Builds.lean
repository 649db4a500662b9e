import Imputio.EventBus.SingleUse

/-! The two builds of the bus are the same to clients that let unsubscribed ids be. -/

namespace Imputio

open Transition EventBus

variable {τ : Type*}

/-- What the build without deferred deletion is sent for a message; it knows no cleanup. -/
def EventBusMessage.undelayed :
    EventBusMessage .delayDelete τ → List (EventBusMessage .immediate τ)
  | .subscribe reply => [.subscribe reply]
  | .unsubscribe id => [.unsubscribe id]
  | .pushEvent event reply => [.pushEvent event reply]
  | .poll id reply => [.poll id reply]
  | .batchPoll id reply => [.batchPoll id reply]
  | .cleanUpBgTask _ => []

/-- What the build with deferred deletion is sent for a message. -/
def EventBusMessage.delayed : EventBusMessage .immediate τ → EventBusMessage .delayDelete τ
  | .subscribe reply => .subscribe reply
  | .unsubscribe id => .unsubscribe id
  | .pushEvent event reply => .pushEvent event reply
  | .poll id reply => .poll id reply
  | .batchPoll id reply => .batchPoll id reply
  | .cleanUpBgTask enabled => nomatch enabled

/-- A cleanup follows each end of a subscription. -/
def EventBusMessage.cleanups : EventBusMessage .immediate τ → List (Processed .delayDelete τ)
  | .unsubscribe _ => [⟨.cleanUpBgTask rfl, none, none⟩]
  | _ => []

/-- The same picks and replies without the cleanups. -/
def Processed.undelayed (entry : Processed .delayDelete τ) : List (Processed .immediate τ) :=
  entry.message.undelayed.map fun message => ⟨message, entry.next, entry.reply⟩

/-- The same picks and replies, with a cleanup behind each end of a subscription. -/
def Processed.delayed (entry : Processed .immediate τ) : List (Processed .delayDelete τ) :=
  ⟨entry.message.delayed, entry.next, entry.reply⟩ :: entry.message.cleanups

/-- It makes no difference to a message which remembered ids have been cleaned up by now. -/
def EventBus.Indifferent (bus : EventBus τ) (entry : Processed .delayDelete τ) : Prop :=
  match entry.message with
  -- An id is granted, and it is not waiting for a cleanup.
  | .subscribe _ => ∃ id, entry.next = some id ∧ id ∉ bus.recycle
  | .poll id _ => id ∉ bus.recycle
  | .batchPoll id _ => id ∉ bus.recycle
  | _ => True

/-- A bus has the queues that another one has after its next cleanup, and no fewer free ids. -/
structure EventBus.Settles (bus other : EventBus τ) : Prop where
  queues : ∀ id, other.eventQueues id = if id ∈ bus.recycle then none else bus.eventQueues id
  free : ∀ id, bus.ids id = true → other.ids id = true

variable {bus other after : EventBus τ}

/-- New buses have the same queues and the same free ids. -/
theorem new_settles : (new : EventBus τ).Settles new where
  queues := fun _ => by simp [new]
  free := fun _ => id

/-- A poll returns what it finds under its id. -/
theorem EventBus.poll_congr {id : SubId} (same : other.eventQueues id = bus.eventQueues id) :
    (other.poll id).1 = (bus.poll id).1 ∧ (other.batchPoll id).1 = (bus.batchPoll id).1 := by
  -- Both kinds of polls look up the one queue and nothing else.
  unfold poll batchPoll
  rw [same]
  cases bus.eventQueues id <;> exact ⟨rfl, rfl⟩

/-- A message that no cleanup makes a difference to does the same to a bus that is cleaned up. -/
theorem EventBus.Settles.step {entry : Processed .delayDelete τ} (settles : bus.Settles other)
    (indifferent : bus.Indifferent entry) (step : BusStep bus entry after) :
    ∃ after', Run BusStep other entry.undelayed after' ∧ after.Settles after' := by
  -- One case for each effect, in which the other bus does what this one leaves to a cleanup.
  have queues := settles.queues
  cases step.effect with
  | @granted reply id free =>
    obtain ⟨_, ⟨⟩, unmarked⟩ := indifferent
    -- What is free here is free there, so the same id may be picked.
    refine ⟨(other.subscribe (some id)).2, .single ⟨fun _ _ => settles.free id free, rfl⟩,
      fun named => ?_, fun named => ?_⟩
    · by_cases here : named = id
      · simp [EventBus.subscribe, here, show id ∉ bus.recycle from unmarked]
      · simpa [EventBus.subscribe, here] using queues named
    · by_cases here : named = id
      · simp [EventBus.subscribe, here]
      · simpa [EventBus.subscribe, here] using settles.free named
  | exhausted none_free =>
    obtain ⟨_, ⟨⟩, -⟩ := indifferent
  | removed now => cases now
  | @marked id next later =>
    -- The queue is removed there, and here it will be with the next cleanup.
    refine ⟨other.unsubscribe id, .single ⟨by simp, rfl⟩, fun named => ?_, fun named free => ?_⟩
    · rw [unsubscribe_eventQueues, queues]
      by_cases here : named = id <;> simp [EventBus.unsubscribeDelayed, here]
    · rw [unsubscribe_ids]
      split
      · rfl
      · exact settles.free named free
  | @pushed event reply next =>
    refine ⟨(other.pushToEventQueues event).2, .single ⟨by simp, rfl⟩, fun named => ?_,
      settles.free⟩
    by_cases marked : named ∈ bus.recycle <;> simp [EventBus.pushToEventQueues, queues, marked]
  | @polled id reply next =>
    have unmarked : id ∉ bus.recycle := indifferent
    have same : other.eventQueues id = bus.eventQueues id := by rw [queues, if_neg unmarked]
    refine ⟨(other.poll id).2, .single ⟨by simp, ?_⟩, fun named => ?_, fun named => ?_⟩
    · rw [← (poll_congr same).1]
      rfl
    · rw [poll_eventQueues, poll_eventQueues, (bus.poll_rest id).2, same, queues]
      by_cases here : named = id <;> simp [here, unmarked]
    · rw [(bus.poll_rest id).1, (other.poll_rest id).1]
      exact settles.free named
  | @drained id reply next =>
    have unmarked : id ∉ bus.recycle := indifferent
    have same : other.eventQueues id = bus.eventQueues id := by rw [queues, if_neg unmarked]
    refine ⟨(other.batchPoll id).2, .single ⟨by simp, ?_⟩, fun named => ?_, fun named => ?_⟩
    · rw [← (poll_congr same).2]
      rfl
    · rw [batchPoll_eventQueues, batchPoll_eventQueues, (bus.batchPoll_rest id).2, same,
        queues]
      by_cases here : named = id <;> simp [here, unmarked]
    · rw [(bus.batchPoll_rest id).1, (other.batchPoll_rest id).1]
      exact settles.free named
  | cleaned =>
    -- There the queues are gone already.
    refine ⟨other, .nil, fun named => ?_, fun named => ?_⟩
    · rw [queues, cleanup_eventQueues, (cleanup_rest bus).2]
      simp
    · rw [(cleanup_rest bus).1]
      exact settles.free named

/-- Two buses without remembered ids have the same queues, and one has no more free ids. -/
structure EventBus.Trails (bus other : EventBus τ) : Prop where
  queues : other.eventQueues = bus.eventQueues
  free : ∀ id, other.ids id = true → bus.ids id = true
  settled : other.recycle = []

/-- A message does the same to a bus that cleans up at once, if what it grants is free there. -/
theorem EventBus.Trails.step {entry : Processed .immediate τ} (trails : bus.Trails other)
    (fresh : ∀ id, entry.Grants id → other.ids id = true) (step : BusStep bus entry after) :
    ∃ after', Run BusStep other entry.delayed after' ∧ after.Trails after' := by
  -- One case for each effect; the one that differs is `Unsubscribe`, which is cleaned up at once.
  obtain ⟨queues, free, settled⟩ := trails
  cases step.effect with
  | @granted reply id isFree =>
    have there := fresh id ⟨reply, rfl⟩
    refine ⟨(other.subscribe (some id)).2, .single ⟨fun _ _ => there, rfl⟩, ?_, fun named => ?_,
      settled⟩
    · simp [EventBus.subscribe, queues]
    · by_cases here : named = id
      · simp [EventBus.subscribe, here]
      · simpa [EventBus.subscribe, here] using free named
  | exhausted none_free =>
    have nothing : ∀ id, other.ids id = false := by
      intro id
      by_contra isFree
      have there := free id (by simpa using isFree)
      simp [none_free id] at there
    exact ⟨other, .single ⟨fun _ _ => nothing, rfl⟩, queues, free, settled⟩
  | @removed id next now =>
    -- The id is remembered and cleaned up, but it is not freed.
    have removes : Run BusStep other (Processed.delayed ⟨.unsubscribe id, next, none⟩)
        (other.unsubscribeDelayed id).cleanup :=
      .cons ⟨by simp [EventBusMessage.delayed], rfl⟩ (.single ⟨by simp, rfl⟩)
    refine ⟨_, removes, funext fun named => ?_, fun named => ?_, (cleanup_rest _).2⟩
    · rw [unsubscribe_eventQueues, cleanup_eventQueues, ← queues]
      by_cases here : named = id <;> simp [EventBus.unsubscribeDelayed, settled, here]
    · rw [unsubscribe_ids, (cleanup_rest _).1]
      split
      · exact fun _ => rfl
      · exact free named
  | marked later => cases later
  | @pushed event reply next =>
    exact ⟨(other.pushToEventQueues event).2, .single ⟨by simp [EventBusMessage.delayed], rfl⟩,
      by simp [EventBus.pushToEventQueues, queues], free, settled⟩
  | @polled id reply next =>
    have same := congrFun queues id
    refine ⟨(other.poll id).2, .single ⟨by simp [EventBusMessage.delayed], ?_⟩,
      funext fun named => ?_, ?_, ?_⟩
    · rw [← (poll_congr same).1]
      rfl
    · rw [poll_eventQueues, poll_eventQueues, queues]
    · rw [(bus.poll_rest id).1, (other.poll_rest id).1]
      exact free
    · rw [(other.poll_rest id).2, settled]
  | @drained id reply next =>
    have same := congrFun queues id
    refine ⟨(other.batchPoll id).2, .single ⟨by simp [EventBusMessage.delayed], ?_⟩,
      funext fun named => ?_, ?_, ?_⟩
    · rw [← (poll_congr same).2]
      rfl
    · rw [batchPoll_eventQueues, batchPoll_eventQueues, queues]
    · rw [(bus.batchPoll_rest id).1, (other.batchPoll_rest id).1]
      exact free
    · rw [(other.batchPoll_rest id).2, settled]
  | @cleaned enabled => cases enabled

/-- Cleaning up grants nothing. -/
theorem grantedIds_delayed (trace : List (Processed .immediate τ)) :
    grantedIds (trace.flatMap Processed.delayed) = grantedIds trace := by
  -- The induction follows the trace, to which each message adds cleanups at most.
  induction trace with
  | nil => rfl
  | cons entry trace ih =>
    have cleanups : entry.message.cleanups.filterMap Processed.grantedId = [] := by
      cases entry.message <;> rfl
    have same : Processed.grantedId
        (⟨entry.message.delayed, entry.next, entry.reply⟩ : Processed .delayDelete τ) =
          entry.grantedId := rfl
    have here : entry.delayed.filterMap Processed.grantedId = entry.grantedId.toList := by
      rw [Processed.delayed, List.filterMap_cons, cleanups, same]
      cases entry.grantedId <;> rfl
    -- Each message grants what it granted, once.
    rw [List.flatMap_cons, grantedIds, List.filterMap_append, here, ← grantedIds, ih, grantedIds,
      grantedIds, List.filterMap_cons]
    cases entry.grantedId <;> rfl

/-- While no id is granted twice, a bus that cleans up at once does what the other build does. -/
theorem trails_of_run {trace : List (Processed .immediate τ)} (run : Run BusStep new trace bus)
    (once : (grantedIds trace).Nodup) :
    ∃ other : EventBus τ, Run BusStep new (trace.flatMap Processed.delayed) other ∧
      bus.Trails other := by
  -- The run is replayed message by message, and an id is free as long as it was not granted.
  induction run with
  | nil => exact ⟨new, .nil, rfl, fun _ => id, rfl⟩
  | @snoc trace before bus entry earlier step ih =>
    rw [grantedIds_concat] at once
    obtain ⟨other, run', trails⟩ := ih once.of_append_left
    obtain ⟨-, -, free⟩ := single_use_of_run run'
    -- What is granted now was free, and it has not been granted before.
    have fresh : ∀ id, entry.Grants id → other.ids id = true := by
      intro id grants
      obtain ⟨-, -, -, -, picked, -⟩ := step.picks grants
      have parts := earlier.invariant new_partition fun _ _ _ parts step => step.partition parts
      have known : id ∈ allIds := parts.whole ▸ .inl picked
      have now : id ∈ entry.grantedId.toList :=
        Option.mem_toList.mpr (Processed.grantedId_iff.mpr grants)
      obtain ⟨-, -, apart⟩ := List.nodup_append.mp once
      rw [free, grantedIds_delayed]
      exact ⟨known, fun old => apart id old id now rfl⟩
    obtain ⟨after, run'', trails'⟩ := trails.step fresh step
    refine ⟨after, ?_, trails'⟩
    rw [List.flatMap_append, List.flatMap_singleton]
    exact run'.append run''

/--
To clients that let unsubscribed ids be, the two builds of the bus are the same.

A run of the build with deferred deletion in which no id is polled or granted that waits for a
cleanup, and no subscription is refused, is a run of the other build once the cleanups are left
out: the same ids are picked and every reply is the same. The other way round, a run of the other
build in which no id is granted twice is a run of this one, with a cleanup behind each end of a
subscription.
-/
theorem builds_agree :
    (∀ (trace : List (Processed .delayDelete τ)) bus,
      Run (Guarded Indifferent BusStep) (new : EventBus τ) trace bus →
        ∃ other : EventBus τ, Run BusStep new (trace.flatMap Processed.undelayed) other ∧
          other.eventQueues = bus.cleanup.eventQueues) ∧
    (∀ (trace : List (Processed .immediate τ)) bus, Run BusStep (new : EventBus τ) trace bus →
      (grantedIds trace).Nodup →
        ∃ other : EventBus τ, Run BusStep new (trace.flatMap Processed.delayed) other ∧
          other.eventQueues = bus.eventQueues) := by
  -- Both directions go message by message; a cleanup answers nothing, or nothing answers it.
  refine ⟨fun trace bus run => ?_, fun trace bus run once => ?_⟩
  · obtain ⟨other, run', settles⟩ := run.expand
      (fun _ _ _ _ settles step => settles.step step.1 step.2) new_settles
    refine ⟨other, run', funext fun id => ?_⟩
    rw [settles.queues, cleanup_eventQueues]
  · obtain ⟨other, run', trails⟩ := trails_of_run run once
    exact ⟨other, run', trails.queues⟩

/-- An id is unsubscribed, and its queue is cleaned up after an event and another subscription. -/
def cleanedUpLater : List (Processed .delayDelete Nat) :=
  [⟨.subscribe 0, some 1, some (0, .ok (.subId 1))⟩, ⟨.unsubscribe 1, none, none⟩,
    ⟨.pushEvent 7 1, none, some (1, .ok .unit)⟩,
    ⟨.subscribe 2, some 2, some (2, .ok (.subId 2))⟩, ⟨.cleanUpBgTask rfl, none, none⟩]

/-- Without the cleanup it is a run of the other build, and with an early one of this one again. -/
theorem builds_agree_cleanedUpLater :
    ∃ bus other again : EventBus Nat, Run (Guarded Indifferent BusStep) new cleanedUpLater bus ∧
      Run BusStep new (cleanedUpLater.flatMap Processed.undelayed) other ∧
      other.eventQueues = bus.cleanup.eventQueues ∧
      Run BusStep new ((cleanedUpLater.flatMap Processed.undelayed).flatMap Processed.delayed)
        again ∧ again.eventQueues = other.eventQueues := by
  -- The run is written out once, and the theorem is applied to it in both directions.
  have run : Run (Guarded Indifferent BusStep) (new : EventBus Nat) cleanedUpLater _ :=
    .cons ⟨⟨1, rfl, by decide⟩, fun _ _ => rfl, rfl⟩ <| .cons ⟨trivial, by simp, rfl⟩ <|
    .cons ⟨trivial, by simp, rfl⟩ <| .cons ⟨⟨2, rfl, by decide⟩, fun _ _ => rfl, rfl⟩ <|
    .cons ⟨trivial, by simp, rfl⟩ .nil
  obtain ⟨toOther, toAgain⟩ := builds_agree (τ := Nat)
  obtain ⟨other, undelayed, queues⟩ := toOther _ _ run
  obtain ⟨again, delayed, same⟩ := toAgain _ _ undelayed (by decide)
  exact ⟨_, other, again, run, undelayed, queues, delayed, same⟩

end Imputio
