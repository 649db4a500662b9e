import Imputio.EventBus.Bus

/-! Deferred deletion: which subscriptions a cleanup ends, and which marks do it. -/

namespace Imputio

open Transition

variable {τ : Type*}

/-- The bus of the build with `delay-delete`, with everything that it has processed as history. -/
structure LoggedBus (τ : Type*) where
  bus : EventBus τ
  log : List (Processed .delayDelete τ)

namespace LoggedBus

/-- A new bus has processed nothing. -/
def new : LoggedBus τ := ⟨.new, []⟩

/-- The actor processes one message and remembers it. -/
structure Step (s : LoggedBus τ) (entry : Processed .delayDelete τ) (t : LoggedBus τ) : Prop where
  step : BusStep s.bus entry t.bus
  log : t.log = s.log ++ [entry]

/-- An `Unsubscribe` for an id was processed after the id was granted last. -/
def Unsubscribed (s : LoggedBus τ) (id : SubId) : Prop :=
  ∃ front next back, s.log = front ++ ⟨.unsubscribe id, next, none⟩ :: back ∧
    (∃ entry ∈ front, entry.Grants id) ∧ ∀ entry ∈ back, ¬ entry.Grants id

/-- A cleanup, if one comes now, removes only the queues of unsubscribed ids. -/
def CleansUnsubscribed (s : LoggedBus τ) : Prop :=
  ∀ id, s.bus.Live id → ¬ s.bus.cleanup.Live id → s.Unsubscribed id

/-- No subscription is granted an id that is marked for the next cleanup. -/
def GrantsUnmarked (s : LoggedBus τ) (entry : Processed .delayDelete τ) : Prop :=
  ∀ id, entry.Grants id → id ∉ s.bus.recycle

/-- Every subscription that is there was granted. -/
def Granted (s : LoggedBus τ) : Prop :=
  ∀ id, s.bus.Live id → ∃ entry ∈ s.log, entry.Grants id

variable {s t : LoggedBus τ} {entry : Processed .delayDelete τ}

/-- Every step keeps a record of the grants. -/
theorem Granted.step (granted : s.Granted) (step : Step s entry t) : t.Granted := by
  -- A queue that was not there before has been granted just now.
  intro id live
  rw [step.log]
  rcases step.step.live_before live with before | now
  · obtain ⟨found, among, grants⟩ := granted id before
    exact ⟨found, List.mem_append_left _ among, grants⟩
  · exact ⟨entry, List.mem_append_right _ (List.mem_singleton_self entry), now⟩

/-- A cleanup ends the ids that are marked. -/
theorem cleansUnsubscribed_iff : s.CleansUnsubscribed ↔
    ∀ id, s.bus.Live id → id ∈ s.bus.recycle → s.Unsubscribed id := by
  -- What a cleanup ends is known, id by id.
  refine forall_congr' fun id => forall_congr' fun live => ?_
  rw [EventBus.cleanup_live]
  simp [live]

/-- An id stays unsubscribed until it is granted again. -/
theorem Unsubscribed.step {id : SubId} (unsubscribed : s.Unsubscribed id)
    (step : Step s entry t) (other : ¬ entry.Grants id) : t.Unsubscribed id := by
  -- The same `Unsubscribe` is still behind the last grant.
  obtain ⟨front, next, back, log, granted, quiet⟩ := unsubscribed
  refine ⟨front, next, back ++ [entry], by rw [step.log, log]; simp, granted, ?_⟩
  intro later among
  rcases List.mem_append.mp among with old | new
  · exact quiet later old
  · obtain rfl := List.mem_singleton.mp new
    exact other

/-- An `Unsubscribe` marks a subscription that is there. -/
theorem Granted.unsubscribed {id : SubId} {next : Option SubId} (granted : s.Granted)
    (live : s.bus.Live id) (step : Step s ⟨.unsubscribe id, next, none⟩ t) : t.Unsubscribed id :=
  -- The grant comes before, and nothing comes after.
  ⟨s.log, next, [], step.log, granted id live, by simp⟩

/-- A subscription is not unsubscribed when it has just been granted. -/
theorem not_unsubscribed_of_grants {id : SubId} (step : Step s entry t)
    (grants : entry.Grants id) : ¬ t.Unsubscribed id := by
  -- The log would have to end in a message that grants nothing.
  rintro ⟨front, next, back, log, -, quiet⟩
  rw [step.log] at log
  -- The last message is the grant, so it is not an `Unsubscribe`, and it does not come after one.
  rcases List.eq_nil_or_concat back with rfl | ⟨earlier, last, rfl⟩
  · obtain ⟨-, same⟩ := List.append_inj' log rfl
    obtain ⟨reply, answered⟩ := grants
    simp [(List.cons.inj same).1] at answered
  · rw [List.concat_eq_append, ← List.cons_append, ← List.append_assoc] at log
    obtain ⟨-, same⟩ := List.append_inj' log rfl
    obtain rfl := (List.cons.inj same).1
    exact quiet entry (by simp) grants

/-- Only an `Unsubscribe` marks an id. -/
theorem Step.marks {id : SubId} (step : Step s entry t) (marked : id ∈ t.bus.recycle) :
    id ∈ s.bus.recycle ∨ ∃ next, entry = ⟨.unsubscribe id, next, none⟩ := by
  -- The delayed `Unsubscribe` alone adds a mark; a cleanup takes them all away.
  have effect := step.step.effect
  generalize t.bus = after at effect marked
  cases effect with
  | granted => exact .inl marked
  | exhausted => exact .inl marked
  | removed now => simp at now
  | @marked named next =>
    rcases List.mem_append.mp marked with old | new
    · exact .inl old
    · obtain rfl := List.mem_singleton.mp new
      exact .inr ⟨next, rfl⟩
  | pushed => exact .inl marked
  | polled => exact .inl (by simpa [EventBus.poll_rest] using marked)
  | drained => exact .inl (by simpa [EventBus.batchPoll_rest] using marked)
  | cleaned => simp [EventBus.cleanup_rest] at marked

/-- A step leaves only unsubscribed ids marked exactly if it grants no marked id. -/
theorem cleansUnsubscribed_step_iff (granted : s.Granted) (cleans : s.CleansUnsubscribed)
    (step : Step s entry t) : t.CleansUnsubscribed ↔ s.GrantsUnmarked entry := by
  -- Only marks of live ids matter, and a step adds a mark, a live id, or neither.
  rw [cleansUnsubscribed_iff] at cleans ⊢
  constructor
  · -- The id that is granted has a new subscription, whose mark is an old one.
    intro cleans' id grants marked
    obtain ⟨reply, -, -, -, -, bus⟩ := step.step.picks grants
    have marked' : id ∈ t.bus.recycle := by
      rw [bus]
      exact marked
    exact not_unsubscribed_of_grants step grants
      (cleans' id ⟨[], step.step.opens grants⟩ marked')
  · intro unmarked id live marked
    rcases step.marks marked with before | ⟨next, rfl⟩
    · have other : ¬ entry.Grants id := fun grants => unmarked id grants before
      rcases step.step.live_before live with old | new
      · exact (cleans id old before).step step other
      · exact absurd new other
    · rcases step.step.live_before live with old | ⟨reply, answered⟩
      · exact granted.unsubscribed old step
      · simp at answered

/-- A message has one effect only. -/
theorem step_functional (s : LoggedBus τ) (entry : Processed .delayDelete τ) (t u : LoggedBus τ)
    (first : Step s entry t) (second : Step s entry u) : t = u := by
  -- The processed message fixes the bus, and it is what the log grows by.
  obtain ⟨bus, log⟩ := t
  obtain ⟨bus', log'⟩ := u
  obtain rfl : log = log' := first.log.trans second.log.symm
  obtain rfl : bus = bus' :=
    (Prod.mk.inj (first.step.processed.symm.trans second.step.processed)).1
  rfl

/--
Two buses that differ in marks only, and not in the mark of any id that has a subscription or is
granted one.
-/
structure Agrees (bus other : EventBus τ) : Prop where
  tables : bus.SameTables other
  fewer : ∀ id ∈ other.recycle, id ∈ bus.recycle
  live : ∀ id, bus.Live id → id ∈ bus.recycle → id ∈ other.recycle

/-- The marks of unused ids stay the only difference when neither marks nor ids are added. -/
theorem Agrees.of_rest {bus other after after' : EventBus τ} (agrees : Agrees bus other)
    (tables : after.SameTables after') (marks : after.recycle = bus.recycle)
    (marks' : after'.recycle = other.recycle) (older : ∀ id, after.Live id → bus.Live id) :
    Agrees after after' := by
  -- The marks are the ones of before, and an id that is live now was so before.
  refine ⟨tables, fun id there => ?_, fun id there marked => ?_⟩
  · rw [marks]
    exact agrees.fewer id (marks' ▸ there)
  · rw [marks']
    exact agrees.live id (older id there) (marks ▸ marked)

/-- Buses that differ in marks of unused ids do the same, as long as no such id is granted. -/
theorem Agrees.step {bus other after : EventBus τ} (agrees : Agrees bus other)
    (unmarked : ∀ id, entry.Grants id → id ∉ bus.recycle) (step : BusStep bus entry after) :
    ∃ after', BusStep other entry after' ∧ Agrees after after' := by
  -- The message finds the same queues and the same free ids, so it is answered in the same way.
  obtain ⟨queues, ids, recycle⟩ := other
  obtain ⟨rfl, rfl⟩ := agrees.tables
  cases step.effect with
  | @granted reply id free =>
    refine ⟨_, ⟨step.picked, rfl⟩, ⟨rfl, rfl⟩, agrees.fewer, fun other there marked => ?_⟩
    rcases EventBus.subscribe_live.mp there with rfl | before
    · exact absurd marked (unmarked _ ⟨reply, rfl⟩)
    · exact agrees.live other before marked
  | exhausted => exact ⟨_, ⟨step.picked, rfl⟩, agrees⟩
  | removed now => simp at now
  | @marked id next =>
    refine ⟨_, ⟨step.picked, rfl⟩, ⟨rfl, rfl⟩, fun other there => ?_, fun other there marked => ?_⟩
    · exact List.mem_append.mpr ((List.mem_append.mp there).imp_left (agrees.fewer other))
    · exact List.mem_append.mpr ((List.mem_append.mp marked).imp_left (agrees.live other there))
  | pushed =>
    exact ⟨_, ⟨step.picked, rfl⟩, agrees.of_rest ⟨rfl, rfl⟩ rfl rfl
      fun _ => EventBus.pushToEventQueues_live.mp⟩
  | @polled id reply next =>
    refine ⟨(EventBus.poll ⟨bus.eventQueues, bus.ids, recycle⟩ id).2, ⟨step.picked, ?_⟩,
      agrees.of_rest ?_ (bus.poll_rest id).2 (EventBus.poll_rest _ id).2
        fun _ => EventBus.poll_live.mp⟩
    · simp only [EventBus.process, EventBus.poll]
      cases bus.eventQueues id <;> rfl
    · unfold EventBus.poll
      cases bus.eventQueues id <;> exact ⟨rfl, rfl⟩
  | @drained id reply next =>
    refine ⟨(EventBus.batchPoll ⟨bus.eventQueues, bus.ids, recycle⟩ id).2, ⟨step.picked, ?_⟩,
      agrees.of_rest ?_ (bus.batchPoll_rest id).2 (EventBus.batchPoll_rest _ id).2
        fun _ => EventBus.batchPoll_live.mp⟩
    · simp only [EventBus.process, EventBus.batchPoll]
      cases bus.eventQueues id <;> rfl
    · unfold EventBus.batchPoll
      cases bus.eventQueues id <;> exact ⟨rfl, rfl⟩
  | cleaned =>
    refine ⟨_, ⟨step.picked, rfl⟩, ⟨funext fun id => ?_, ?_⟩, ?_, ?_⟩
    · rw [EventBus.cleanup_eventQueues, EventBus.cleanup_eventQueues]
      -- A mark of an id without a queue makes no difference.
      by_cases live : bus.Live id
      · exact if_congr ⟨agrees.live id live, agrees.fewer id⟩ rfl rfl
      · rw [EventBus.not_live_iff.mp live, ite_self, ite_self]
    · rw [(EventBus.cleanup_rest _).1, (EventBus.cleanup_rest _).1]
    · rw [(EventBus.cleanup_rest _).2]
      simp
    · rw [(EventBus.cleanup_rest bus).2]
      simp

/-- What does not grant a marked id does the same without the marks of unused ids. -/
theorem Agrees.run {s' last : LoggedBus τ} {acts : List (Processed .delayDelete τ)}
    (agrees : Agrees s.bus s'.bus) (run : Run (Guarded GrantsUnmarked Step) s acts last) :
    ∃ last', Run Step s' acts last' ∧ last'.bus.SameTables last.bus := by
  -- The two runs go side by side, with the same messages and the same replies.
  have sim : ∀ (s : LoggedBus τ) entry t (s' : LoggedBus τ), Agrees s.bus s'.bus →
      Guarded GrantsUnmarked Step s entry t →
      ∃ entry' t', Step s' entry' t' ∧ Agrees t.bus t'.bus ∧ entry = entry' := by
    intro s entry t s' agrees step
    obtain ⟨after, step', agrees'⟩ := agrees.step step.1 step.2.step
    exact ⟨entry, ⟨after, s'.log ++ [entry]⟩, ⟨step', rfl⟩, agrees', rfl⟩
  obtain ⟨acts', last', run', related, labels⟩ := run.simulate sim agrees
  obtain rfl := List.forall₂_eq_eq_eq ▸ labels
  exact ⟨last', run', related.tables.1.symm, related.tables.2.symm⟩

/-- An `Unsubscribe` of an id without a subscription adds a mark of an unused id at most. -/
theorem agrees_of_unused {id : SubId} {next : Option SubId} (unused : ¬ s.bus.Live id)
    (step : Step s ⟨.unsubscribe id, next, none⟩ t) : Agrees t.bus s.bus := by
  -- Neither table is touched when an id is marked.
  have marked : (s.bus.unsubscribeDelayed id, none) = (t.bus, none) := step.step.processed
  have bus := (Prod.mk.inj marked).1
  rw [← bus]
  refine ⟨⟨rfl, rfl⟩, fun other there => List.mem_append_left _ there, fun other live there => ?_⟩
  -- The only new mark is that of the unused id.
  rcases List.mem_append.mp there with old | new
  · exact old
  · obtain rfl := List.mem_singleton.mp new
    exact absurd live unused

end LoggedBus

open LoggedBus

/--
Throughout a run a cleanup removes only what was unsubscribed after it was granted, exactly if no
subscription of the run is granted an id that is marked for deletion. In such a run an
`Unsubscribe` of an id that has no subscription can be left out: all queues and free ids are the
same without it.
-/
theorem deferred_deletion_iff {acts : List (Processed .delayDelete τ)} {last : LoggedBus τ}
    (run : Run Step new acts last) :
    (Throughout Step new CleansUnsubscribed acts ↔
      Run (Guarded GrantsUnmarked Step) new acts last) ∧
    (Run (Guarded GrantsUnmarked Step) new acts last →
      ∀ front id next back mid, acts = front ++ ⟨.unsubscribe id, next, none⟩ :: back →
        Run Step new front mid → ¬ mid.bus.Live id →
          ∃ last', Run Step new (front ++ back) last' ∧
            last'.bus.SameTables last.bus) := by
  -- The equivalence is decided step by step; the rest compares two buses along one run.
  have granted : (new : LoggedBus τ).Granted := by
    rintro id ⟨queue, live⟩
    simp [new, EventBus.new] at live
  have init : (new : LoggedBus τ).CleansUnsubscribed := by
    rintro id ⟨queue, live⟩
    simp [new, EventBus.new] at live
  refine ⟨run.throughout_iff_guarded step_functional granted
    (fun _ _ _ granted step => granted.step step) init
    fun _ _ _ granted cleans step => cleansUnsubscribed_step_iff granted cleans step, ?_⟩
  rintro guarded front id next back mid rfl reached unused
  -- The run is taken apart around the message.
  obtain ⟨before, first, second⟩ := guarded.split
  obtain rfl : before = mid := Run.functional step_functional first.unguard reached
  obtain ⟨after, ⟨-, marked⟩, rest⟩ := second.uncons
  obtain ⟨last', run', same⟩ := (agrees_of_unused unused marked).run rest
  exact ⟨last', first.unguard.append run', same⟩

/-- An id is unsubscribed while it is free, and then a subscription is granted it. -/
def staleMark (id : SubId) : List (Processed .delayDelete Nat) :=
  [⟨.unsubscribe id, none, none⟩, ⟨.subscribe 0, some id, some (0, .ok (.subId id))⟩]

/-- The bus and its log after these two messages. -/
def LoggedBus.staleMarked (id : SubId) : LoggedBus Nat where
  bus := ((EventBus.new.unsubscribeDelayed id).subscribe (some id)).2
  log := staleMark id

/-- The next cleanup would remove the queue of a subscription that nobody has unsubscribed. -/
theorem stale_mark_removes_queue :
    Run Step new (staleMark 5) (staleMarked 5) ∧ (staleMarked 5).bus.Live 5 ∧
      ¬ (staleMarked 5).bus.cleanup.Live 5 ∧ ¬ (staleMarked 5).Unsubscribed 5 ∧
      ¬ Throughout Step new CleansUnsubscribed (staleMark 5) := by
  -- The run marks the id first and grants it then, and the mark outlives the grant.
  have marks : Step (new : LoggedBus Nat) ⟨.unsubscribe 5, none, none⟩
      ⟨EventBus.new.unsubscribeDelayed 5, [⟨.unsubscribe 5, none, none⟩]⟩ := by
    refine ⟨⟨?_, rfl⟩, rfl⟩
    simp
  have grants : Step ⟨EventBus.new.unsubscribeDelayed 5, [⟨.unsubscribe 5, none, none⟩]⟩
      ⟨.subscribe 0, some 5, some (0, .ok (.subId 5))⟩ (staleMarked 5) :=
    ⟨⟨fun _ _ => rfl, rfl⟩, rfl⟩
  have run : Run Step new (staleMark 5) (staleMarked 5) := .cons marks (.single grants)
  have live : (staleMarked 5).bus.Live 5 := ⟨[], rfl⟩
  -- The mark is older than the grant, and the cleanup does not see that.
  have swept : ¬ (staleMarked 5).bus.cleanup.Live 5 := by
    rw [EventBus.cleanup_live]
    exact fun kept => kept.1 (List.mem_singleton_self 5)
  have unasked := not_unsubscribed_of_grants grants ⟨0, rfl⟩
  exact ⟨run, live, swept, unasked, fun through =>
    unasked (through _ _ List.prefix_rfl run 5 live swept)⟩

/-- A subscription, and an `Unsubscribe` of an id that nobody has, before its own one. -/
def unsubscribedTwice (id unused : SubId) : List (Processed .delayDelete Nat) :=
  [⟨.subscribe 0, some id, some (0, .ok (.subId id))⟩, ⟨.unsubscribe unused, none, none⟩,
    ⟨.unsubscribe id, none, none⟩]

/-- Only the one subscription is marked, and the other `Unsubscribe` may be left out. -/
theorem deferred_deletion_iff_twice :
    ∃ s : LoggedBus Nat, Run Step new (unsubscribedTwice 5 7) s ∧
      Throughout Step new CleansUnsubscribed (unsubscribedTwice 5 7) ∧
      ∃ t : LoggedBus Nat, Run Step new
          [⟨.subscribe 0, some 5, some (0, .ok (.subId 5))⟩, ⟨.unsubscribe 5, none, none⟩] t ∧
        t.bus.SameTables s.bus := by
  -- Every step of the run is shown to meet the condition, and the theorem is applied to it.
  have grants : Step (new : LoggedBus Nat) ⟨.subscribe 0, some 5, some (0, .ok (.subId 5))⟩
      ⟨(EventBus.new.subscribe (some 5)).2, [⟨.subscribe 0, some 5, some (0, .ok (.subId 5))⟩]⟩ :=
    ⟨⟨fun _ _ => rfl, rfl⟩, rfl⟩
  have marks : ∀ (s : LoggedBus Nat) id, Step s ⟨.unsubscribe id, none, none⟩
      ⟨s.bus.unsubscribeDelayed id, s.log ++ [⟨.unsubscribe id, none, none⟩]⟩ := by
    intro s id
    refine ⟨⟨?_, rfl⟩, rfl⟩
    simp
  have silent : ∀ (s : LoggedBus Nat) id, GrantsUnmarked s ⟨.unsubscribe id, none, none⟩ := by
    rintro s id other ⟨reply, answered⟩
    simp at answered
  -- Nothing is marked when the one id is granted.
  have first : Guarded GrantsUnmarked Step (new : LoggedBus Nat) _ _ :=
    ⟨fun _ _ marked => absurd marked List.not_mem_nil, grants⟩
  have guarded : Run (Guarded GrantsUnmarked Step) new (unsubscribedTwice 5 7) _ :=
    .cons first <| .cons ⟨silent _ 7, marks _ 7⟩ <| .single ⟨silent _ 5, marks _ 5⟩
  obtain ⟨exactly, without⟩ := deferred_deletion_iff guarded.unguard
  refine ⟨_, guarded.unguard, exactly.mpr guarded, ?_⟩
  refine without guarded [_] 7 none [_] _ rfl (.single grants) ?_
  rw [EventBus.subscribe_live]
  simp [EventBus.Live, EventBus.new]

end Imputio
