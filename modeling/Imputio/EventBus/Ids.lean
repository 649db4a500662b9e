import Mathlib.Order.Interval.Finset.Nat
import Imputio.EventBus.Bus
import Imputio.Lib.Allocator

/-! The pool of subscription ids: which ids are free, which are in use, and when ids are lost. -/

namespace Imputio

open Transition Allocator

variable {τ : Type*} {build : Build}

namespace EventBus

/-- The ids that subscriptions can have. -/
def allIds : Set SubId := { id | 1 ≤ id ∧ id ≤ 65534 }

/-- The ids that a subscription may be granted next. -/
def freeIds (bus : EventBus τ) : Set SubId := { id | bus.ids id = true }

/-- The ids that have a queue. -/
def liveIds (bus : EventBus τ) : Set SubId := { id | bus.Live id }

/-- There are 65534 ids. -/
theorem ncard_allIds : allIds.ncard = 65534 := by
  -- The ids are an interval of numbers.
  have interval : allIds = (Finset.Icc 1 65534 : Finset Nat) := by
    ext id
    simp [allIds]
  rw [interval, Set.ncard_coe_finset, Nat.card_Icc]

/-- There are finitely many ids. -/
theorem finite_allIds : allIds.Finite := Set.finite_Icc 1 65534

/-- A new bus has all ids free and none in use. -/
theorem new_partition : Partition allIds (new : EventBus τ).freeIds (new : EventBus τ).liveIds where
  apart := by
    rw [Set.disjoint_left]
    rintro id - ⟨queue, there⟩
    simp [new] at there
  whole := by
    -- The range that the constructor takes the ids from leaves out `u16::MAX`.
    have unused : (new : EventBus τ).liveIds = ∅ :=
      Set.eq_empty_of_forall_notMem fun id => not_live_iff.mpr rfl
    rw [unused, Set.union_empty]
    ext id
    change decide (1 ≤ id ∧ id < 65535) = true ↔ 1 ≤ id ∧ id ≤ 65534
    rw [decide_eq_true_eq, Nat.lt_succ_iff]

/-- The null id is not among the ids. -/
theorem ne_nullSubId {id : SubId} (known : id ∈ allIds) : id ≠ nullSubId := by
  rintro rfl
  simp [allIds, nullSubId] at known

end EventBus

open EventBus

section Steps

variable {bus after : EventBus τ} {entry : Processed build τ}

/-- What one message can do to the free ids and to the ids in use. -/
theorem BusStep.pool (step : BusStep bus entry after) :
    (∃ id ∈ bus.freeIds,
      after.freeIds = bus.freeIds \ {id} ∧ after.liveIds = insert id bus.liveIds) ∨
    (∃ id ∈ bus.liveIds,
      after.freeIds = insert id bus.freeIds ∧ after.liveIds = bus.liveIds \ {id}) ∨
    (after.freeIds = bus.freeIds ∧ after.liveIds = bus.liveIds) ∨
    ∃ enabled, entry.message = .cleanUpBgTask enabled ∧ after.freeIds = bus.freeIds ∧
      after.liveIds = bus.liveIds \ { id | id ∈ bus.recycle } := by
  -- Only a grant, an effective removal and a cleanup touch the two sets.
  cases step.effect with
  | @granted reply id free =>
    refine .inl ⟨id, free, ?_, ?_⟩
    · ext other
      by_cases same : other = id <;> simp [freeIds, subscribe, same]
    · ext other
      exact subscribe_live
  | exhausted => exact .inr (.inr (.inl ⟨rfl, rfl⟩))
  | @removed id next now =>
    by_cases live : bus.Live id
    · refine .inr (.inl ⟨id, live, ?_, ?_⟩)
      · ext other
        have there : (bus.eventQueues id).isSome := Option.isSome_iff_exists.mpr live
        by_cases same : other = id <;> simp [freeIds, unsubscribe_ids, same, there]
      · ext other
        exact unsubscribe_live.trans and_comm
    · -- Without a queue the request has no effect, whatever its id is.
      have same : bus.unsubscribe id = bus := by
        unfold unsubscribe
        rw [not_live_iff.mp live]
      rw [same]
      exact .inr (.inr (.inl ⟨rfl, rfl⟩))
  | marked => exact .inr (.inr (.inl ⟨rfl, rfl⟩))
  | pushed =>
    refine .inr (.inr (.inl ⟨rfl, ?_⟩))
    ext other
    exact pushToEventQueues_live
  | @polled id reply next =>
    refine .inr (.inr (.inl ⟨?_, ?_⟩))
    · rw [freeIds, (bus.poll_rest id).1, freeIds]
    · ext other
      exact poll_live
  | @drained id reply next =>
    refine .inr (.inr (.inl ⟨?_, ?_⟩))
    · rw [freeIds, (bus.batchPoll_rest id).1, freeIds]
    · ext other
      exact batchPoll_live
  | @cleaned enabled next =>
    refine .inr (.inr (.inr ⟨enabled, rfl, ?_, ?_⟩))
    · rw [freeIds, bus.cleanup_rest.1, freeIds]
    · ext other
      exact cleanup_live.trans and_comm

/-- A subscription is granted a free id, or fails because there is none. -/
theorem BusStep.subscribed {reply : ReplyId} (step : BusStep bus entry after)
    (asked : entry.message = .subscribe reply) :
    (∃ id ∈ bus.freeIds, entry.reply = some (reply, .ok (.subId id)) ∧
      after = (bus.subscribe (some id)).2) ∨
    (bus.freeIds = ∅ ∧ entry.reply = some (reply, .error .resourceExhaustion) ∧ after = bus) := by
  -- A request to subscribe has two of the effects, and both say what they answer.
  cases step.effect with
  | @granted reply' id free =>
    obtain rfl : reply' = reply := by injection asked
    exact .inl ⟨id, free, rfl, rfl⟩
  | @exhausted reply' none_free =>
    obtain rfl : reply' = reply := by injection asked
    refine .inr ⟨Set.eq_empty_of_forall_notMem fun id free => ?_, rfl, rfl⟩
    simp [freeIds, none_free] at free
  | removed => simp at asked
  | marked => simp at asked
  | pushed => simp at asked
  | polled => simp at asked
  | drained => simp at asked
  | cleaned => simp at asked

/-- With a free id left, a subscription is granted one. -/
theorem BusStep.grants_of_free {reply : ReplyId} (step : BusStep bus entry after)
    (asked : entry.message = .subscribe reply) (available : bus.freeIds.Nonempty) :
    ∃ id, entry.Grants id := by
  -- The other outcome of a subscription is that no id is free.
  rcases step.subscribed asked with ⟨id, -, answered, -⟩ | ⟨empty, -, -⟩
  · exact ⟨id, reply, answered⟩
  · rw [empty] at available
    exact absurd available Set.not_nonempty_empty

/-- Without deferred deletion, every message keeps the partition of the ids. -/
theorem BusStep.partition {entry : Processed .immediate τ} (step : BusStep bus entry after)
    (parts : Partition allIds bus.freeIds bus.liveIds) :
    Partition allIds after.freeIds after.liveIds := by
  -- The partition is the allocator of the library, which each effect is an operation of.
  rcases step.pool with ⟨id, free, frees, lives⟩ | ⟨id, live, frees, lives⟩ | ⟨frees, lives⟩ |
    ⟨enabled, -⟩
  · rw [frees, lives]
    exact parts.allocate free
  · rw [frees, lives]
    exact parts.release live
  · rw [frees, lives]
    exact parts
  · -- This build has no cleanup message.
    simp at enabled

end Steps

/--
Without deferred deletion, the free ids and the ids in use always partition the ids.

So no subscription takes over a live queue, and one fails only when all ids are in use.
-/
theorem id_pool_partitioned {trace : List (Processed .immediate τ)} {bus : EventBus τ}
    (run : Run BusStep .new trace bus) :
    (Disjoint bus.freeIds bus.liveIds ∧ bus.freeIds ∪ bus.liveIds = allIds) ∧
      ∀ (entry : Processed .immediate τ) after reply, BusStep bus entry after →
        entry.message = .subscribe reply →
        (entry.reply = some (reply, .error .resourceExhaustion) ∧ after = bus ↔
          bus.liveIds.ncard = 65534) ∧
        ∀ id, entry.Grants id → id ≠ nullSubId ∧ ¬ bus.Live id ∧
          ∀ other, other ≠ id → after.eventQueues other = bus.eventQueues other := by
  -- The partition is kept by every step, and the rest is read off it and the step.
  have parts : Partition allIds bus.freeIds bus.liveIds :=
    run.invariant new_partition fun _ _ _ before step => step.partition before
  refine ⟨⟨parts.apart, parts.whole⟩, ?_⟩
  intro entry after reply step asked
  refine ⟨?_, ?_⟩
  · -- The pool is exhausted exactly when the ids in use are as many as there are ids.
    rw [← ncard_allIds, ← parts.exhausted_iff finite_allIds]
    rcases step.subscribed asked with ⟨id, free, answered, -⟩ | ⟨empty, answered, same⟩
    · constructor
      · rintro ⟨failed, -⟩
        simp [answered] at failed
      · intro empty
        simp [empty] at free
    · exact ⟨fun _ => empty, fun _ => ⟨answered, same⟩⟩
  · intro id grants
    obtain ⟨-, -, -, -, free, rfl⟩ := step.picks grants
    have unused : ¬ bus.Live id := Set.disjoint_left.mp parts.apart free
    refine ⟨ne_nullSubId (parts.whole ▸ .inl free), unused, fun other apart => ?_⟩
    simp [subscribe, apart]

/-- One id is granted, an end is asked for twice, and the null id is unsubscribed. -/
def resubscribed : List (Processed .immediate Nat) :=
  [⟨.subscribe 0, some 1, some (0, .ok (.subId 1))⟩, ⟨.unsubscribe 1, none, none⟩,
    ⟨.unsubscribe 1, none, none⟩, ⟨.unsubscribe 0, none, none⟩,
    ⟨.subscribe 1, some 2, some (1, .ok (.subId 2))⟩]

/-- The second end of the same subscription and the null id leave the partition as it is. -/
theorem id_pool_partitioned_resubscribed :
    ∃ bus : EventBus Nat, Run BusStep .new resubscribed bus ∧
      Disjoint bus.freeIds bus.liveIds ∧ bus.freeIds ∪ bus.liveIds = allIds ∧
      ¬ bus.Live 1 ∧ bus.Live 2 := by
  -- The five messages are processed one by one.
  have run : Run BusStep .new resubscribed _ :=
    .cons ⟨fun _ _ => rfl, rfl⟩ <| .cons ⟨by simp, rfl⟩ <| .cons ⟨by simp, rfl⟩ <|
      .cons ⟨by simp, rfl⟩ <| .cons ⟨fun _ _ => rfl, rfl⟩ .nil
  obtain ⟨⟨apart, whole⟩, -⟩ := id_pool_partitioned run
  exact ⟨_, run, apart, whole, nofun, [], rfl⟩

namespace EventBus

/-- No id is lost, so that a subscription succeeds while not all of them are in use. -/
structure PoolIntact (bus : EventBus τ) : Prop where
  covers : ∀ id, 1 ≤ id → id ≤ 65534 → bus.ids id = true ∨ bus.Live id
  grants : ∀ (entry : Processed .delayDelete τ) after reply, BusStep bus entry after →
    entry.message = .subscribe reply → bus.liveIds.ncard < 65534 → ∃ id, entry.Grants id

/-- Every id that is free or in use is one of the ids, and none is both. -/
structure PoolSound (bus : EventBus τ) : Prop where
  apart : Disjoint bus.freeIds bus.liveIds
  inside : bus.freeIds ∪ bus.liveIds ⊆ allIds

/-- A cleanup finds no queue under the ids that it has been told to remove. -/
def CleansNothing (bus : EventBus τ) (entry : Processed build τ) : Prop :=
  ∀ enabled, entry.message = .cleanUpBgTask enabled → ∀ id ∈ bus.recycle, ¬ bus.Live id

/-- The pool is intact exactly when every id is free or in use. -/
theorem PoolSound.intact_iff {bus : EventBus τ} (sound : bus.PoolSound) :
    bus.PoolIntact ↔ Covers allIds bus.freeIds bus.liveIds := by
  -- The count of ids is what leads from a covered pool to a free id.
  constructor
  · rintro intact id ⟨low, high⟩
    exact intact.covers id low high
  · intro covers
    refine ⟨fun id low high => covers ⟨low, high⟩, ?_⟩
    intro entry after reply step asked room
    -- Fewer ids in use than there are leave a free one, since none is lost.
    have finite : bus.liveIds.Finite :=
      finite_allIds.subset (Set.subset_union_right.trans sound.inside)
    exact step.grants_of_free asked (covers.exists_free finite (ncard_allIds ▸ room))

end EventBus

section Steps

variable {bus after : EventBus τ} {entry : Processed build τ}

/-- No message makes an id both free and in use, or brings in a number that is no id. -/
theorem BusStep.poolSound (step : BusStep bus entry after) (sound : bus.PoolSound) :
    after.PoolSound := by
  -- What is free or in use keeps its union, except that a cleanup takes ids out of use.
  obtain ⟨apart, inside⟩ := sound
  obtain ⟨frees, lives⟩ := Set.union_subset_iff.mp inside
  rcases step.pool with ⟨id, free, nowFree, nowLive⟩ | ⟨id, live, nowFree, nowLive⟩ |
    ⟨nowFree, nowLive⟩ | ⟨enabled, -, nowFree, nowLive⟩
  · have parts := Partition.allocate ⟨apart, rfl⟩ free
    refine ⟨by rw [nowFree, nowLive]; exact parts.apart, ?_⟩
    rw [nowFree, nowLive, parts.whole]
    exact inside
  · have parts := Partition.release ⟨apart, rfl⟩ live
    refine ⟨by rw [nowFree, nowLive]; exact parts.apart, ?_⟩
    rw [nowFree, nowLive, parts.whole]
    exact inside
  · exact ⟨by rw [nowFree, nowLive]; exact apart, by rw [nowFree, nowLive]; exact inside⟩
  · refine ⟨by rw [nowFree, nowLive]; exact apart.mono_right Set.sdiff_subset, ?_⟩
    rw [nowFree, nowLive]
    exact Set.union_subset frees (Set.sdiff_subset.trans lives)

/-- With deferred deletion, a message loses ids exactly when it is a cleanup that finds queues. -/
theorem BusStep.intact_iff (step : BusStep bus entry after) (sound : bus.PoolSound)
    (intact : bus.PoolIntact) : after.PoolIntact ↔ bus.CleansNothing entry := by
  -- An intact pool covers all ids, and only a cleanup can take an id out of both sets.
  rw [(step.poolSound sound).intact_iff]
  rw [sound.intact_iff] at intact
  by_cases cleaning : ∃ enabled, entry.message = .cleanUpBgTask enabled
  · -- The ids of the removed queues are put back nowhere.
    obtain ⟨enabled, asked⟩ := cleaning
    cases step.effect with
    | cleaned =>
      have nowFree : bus.cleanup.freeIds = bus.freeIds := by
        rw [freeIds, bus.cleanup_rest.1, freeIds]
      have nowLive : bus.cleanup.liveIds = bus.liveIds \ { id | id ∈ bus.recycle } := by
        ext other
        exact cleanup_live.trans and_comm
      rw [nowFree, nowLive,
        intact.drop_iff sound.apart (Set.subset_union_right.trans sound.inside)]
      constructor
      · intro harmless _ _ id remembered live
        exact Set.disjoint_left.mp harmless live remembered
      · intro nothing
        exact Set.disjoint_left.mpr fun id live remembered =>
          nothing enabled asked id remembered live
    | granted => simp at asked
    | exhausted => simp at asked
    | removed => simp at asked
    | marked => simp at asked
    | pushed => simp at asked
    | polled => simp at asked
    | drained => simp at asked
  · have other : bus.CleansNothing entry := fun enabled asked => absurd ⟨enabled, asked⟩ cleaning
    refine iff_of_true ?_ other
    rcases step.pool with ⟨id, free, nowFree, nowLive⟩ | ⟨id, live, nowFree, nowLive⟩ |
      ⟨nowFree, nowLive⟩ | ⟨enabled, asked, -⟩
    · rw [nowFree, nowLive]
      exact intact.allocate id
    · rw [nowFree, nowLive]
      exact intact.release id
    · rw [nowFree, nowLive]
      exact intact
    · exact absurd ⟨enabled, asked⟩ cleaning

end Steps

/-- A message has one result. -/
theorem BusStep.functional {bus : EventBus τ} {entry : Processed build τ}
    {first second : EventBus τ} (step : BusStep bus entry first)
    (other : BusStep bus entry second) : first = second :=
  (Prod.mk.inj (step.processed.symm.trans other.processed)).1

/--
With deferred deletion, the pool of ids stays intact exactly in the runs in which no cleanup
finds a queue to remove.
-/
theorem id_pool_intact_iff {trace : List (Processed .delayDelete τ)} {bus : EventBus τ}
    (run : Run BusStep .new trace bus) :
    Throughout BusStep .new PoolIntact trace ↔
      Run (Guarded CleansNothing BusStep) .new trace bus := by
  -- One step decides, so the general rule for guarded runs applies.
  have sound : (EventBus.new : EventBus τ).PoolSound :=
    ⟨new_partition.apart, new_partition.whole.subset⟩
  refine run.throughout_iff_guarded (fun _ _ _ _ => BusStep.functional) sound
    (fun _ _ _ before step => step.poolSound before) ?_ ?_
  · exact sound.intact_iff.mpr new_partition.covers
  · intro s entry t before intact step
    exact step.intact_iff before intact

/-- A subscription ends and the cleanup removes its queue. -/
def cleanedUp : List (Processed .delayDelete Nat) :=
  [⟨.subscribe 0, some 1, some (0, .ok (.subId 1))⟩, ⟨.unsubscribe 1, none, none⟩,
    ⟨.cleanUpBgTask rfl, none, none⟩]

/-- The id of the cleaned subscription is neither free nor in use. -/
theorem cleanup_loses_id :
    ∃ bus : EventBus Nat, Run BusStep .new cleanedUp bus ∧ bus.ids 1 = false ∧ ¬ bus.Live 1 := by
  -- The three messages are processed one by one.
  have run : Run BusStep (.new : EventBus Nat) cleanedUp _ :=
    .cons ⟨fun _ _ => rfl, rfl⟩ <| .cons ⟨by simp, rfl⟩ <| .cons ⟨by simp, rfl⟩ .nil
  exact ⟨_, run, rfl, not_live_iff.mpr rfl⟩

/-- An id that is remembered but never had a queue does no harm to the pool. -/
theorem id_pool_intact_iff_unused :
    Throughout BusStep (.new : EventBus Nat) PoolIntact
      ([⟨.unsubscribe 7, none, none⟩, ⟨.cleanUpBgTask rfl, none, none⟩] :
        List (Processed .delayDelete Nat)) := by
  -- Neither of the two steps removes a queue, so the run meets the condition.
  have run : Run (Guarded CleansNothing BusStep) (.new : EventBus Nat)
      ([⟨.unsubscribe 7, none, none⟩, ⟨.cleanUpBgTask rfl, none, none⟩] :
        List (Processed .delayDelete Nat)) _ :=
    .cons ⟨by simp [CleansNothing], by simp, rfl⟩ <|
      .cons ⟨fun _ _ _ _ => not_live_iff.mpr rfl, by simp, rfl⟩ .nil
  exact (id_pool_intact_iff run.unguard).mpr run

end Imputio
