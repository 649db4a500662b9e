import Imputio.EventBus.Bus
import Imputio.Lib.Broadcast

/-! Every subscription receives the published events once each and in order. -/

namespace Imputio

open Transition

variable {τ : Type*} {build : Build}

/-- The events one processed message hands to whoever polls an id. -/
def Processed.delivered (id : SubId) (entry : Processed build τ) : List τ :=
  match entry.message, entry.reply with
  | .poll polled _, some (_, .ok (.event (some event))) => if polled = id then [event] else []
  | .batchPoll polled _, some (_, .ok (.events events)) => if polled = id then events else []
  | _, _ => []

/-- The events one processed message publishes. -/
def Processed.published (entry : Processed build τ) : List τ :=
  match entry.message with
  | .pushEvent event _ => [event]
  | _ => []

/-- The bus stands for a log in which each queue is what its reader has not read yet. -/
structure EventBus.Tracks (bus : EventBus τ) (log : Broadcast.State SubId τ) : Prop where
  disjoint : bus.PoolDisjoint
  bounded : log.Bounded
  queues : ∀ id, bus.eventQueues id = log.unread id

/-- An action of the log that has the same observable events as a processed message. -/
structure Processed.Mirrors (entry : Processed build τ) (act : Broadcast.Action SubId τ) :
    Prop where
  reads : ∀ id, act.readBy id = entry.delivered id
  publishes : act.published = entry.published

/-- A new bus stands for an empty log without readers. -/
theorem EventBus.new_tracks : (EventBus.new : EventBus τ).Tracks Broadcast.State.empty where
  disjoint := EventBus.new_poolDisjoint
  bounded := by simp [Broadcast.State.Bounded, Broadcast.State.empty]
  queues := fun _ => rfl

/-- A queue that is tracked is the log behind the reader's position. -/
theorem EventBus.Tracks.position {bus : EventBus τ} {log : Broadcast.State SubId τ} {id : SubId}
    {queue : List τ} (tracks : bus.Tracks log) (live : bus.eventQueues id = some queue) :
    ∃ position, log.cursor id = some position ∧ position ≤ log.log.length ∧
      queue = log.log.drop position := by
  -- The two descriptions of the queue are compared.
  rw [tracks.queues id] at live
  obtain ⟨position, placed, same⟩ := Option.map_eq_some_iff.mp live
  exact ⟨position, placed, tracks.bounded id position placed, same.symm⟩

/-- Taking some events from the front of a queue moves the reader forward in the log. -/
theorem EventBus.Tracks.read {bus after : EventBus τ} {log : Broadcast.State SubId τ} {id : SubId}
    {taken rest : List τ} (tracks : bus.Tracks log)
    (live : bus.eventQueues id = some (taken ++ rest)) (disjoint : after.PoolDisjoint)
    (queues : ∀ other, after.eventQueues other =
      if other = id then some rest else bus.eventQueues other) :
    ∃ log', Broadcast.Step log (.read id taken) log' ∧ after.Tracks log' := by
  -- The queue is the log behind the position, so what is taken is a prefix of it.
  obtain ⟨position, placed, inside, same⟩ := tracks.position live
  have step : Broadcast.Step log (.read id taken) _ := .read placed ⟨rest, same⟩
  refine ⟨_, step, disjoint, step.bounded tracks.bounded, fun other => ?_⟩
  rw [queues other]
  by_cases equal : other = id
  · subst equal
    have left : log.log.drop (position + taken.length) = rest := by
      rw [← List.drop_drop, ← same, List.drop_left]
    simp [Broadcast.State.unread, left]
  · simpa [Broadcast.State.unread, equal] using tracks.queues other

/-- Each message of the bus is one action of the log with the same observable events. -/
theorem BusStep.tracks {bus after : EventBus τ} {entry : Processed build τ}
    {log : Broadcast.State SubId τ} (tracks : bus.Tracks log) (step : BusStep bus entry after) :
    ∃ act log', Broadcast.Step log act log' ∧ after.Tracks log' ∧ entry.Mirrors act := by
  -- Each kind of message has its own counterpart on the log.
  have disjoint := step.poolDisjoint tracks.disjoint
  cases step.effect with
  | @granted reply id free =>
    -- A free id has no queue, so no reader is displaced.
    have absent : log.cursor id = none := by
      have unused := tracks.disjoint id free
      rw [tracks.queues id] at unused
      exact Option.map_eq_none_iff.mp unused
    have joined : Broadcast.Step log (.join id) _ := .join absent
    refine ⟨_, _, joined, ⟨disjoint, joined.bounded tracks.bounded, fun other => ?_⟩,
      fun _ => rfl, rfl⟩
    by_cases same : other = id
    · subst same; simp [EventBus.subscribe, Broadcast.State.unread]
    · simpa [EventBus.subscribe, Broadcast.State.unread, same] using tracks.queues other
  | exhausted => exact ⟨.idle, log, .idle, tracks, fun _ => rfl, rfl⟩
  | @removed id next now =>
    have left : Broadcast.Step log (.leave [id]) _ := .leave
    refine ⟨_, _, left, ⟨disjoint, left.bounded tracks.bounded, fun other => ?_⟩,
      fun _ => rfl, rfl⟩
    rw [EventBus.unsubscribe_eventQueues]
    by_cases same : other = id
    · simp [Broadcast.State.unread, same]
    · simpa [Broadcast.State.unread, same] using tracks.queues other
  | marked =>
    exact ⟨.idle, log, .idle, ⟨disjoint, tracks.bounded, tracks.queues⟩, fun _ => rfl, rfl⟩
  | @pushed event reply next =>
    have appended : Broadcast.Step log (.publish event) _ := .publish
    refine ⟨_, _, appended, ⟨disjoint, appended.bounded tracks.bounded, fun other => ?_⟩,
      fun _ => rfl, rfl⟩
    cases live : bus.eventQueues other with
    | none =>
      have absent : log.cursor other = none := by
        rw [tracks.queues other] at live
        exact Option.map_eq_none_iff.mp live
      simp [EventBus.pushToEventQueues, Broadcast.State.unread, live, absent]
    | some queue =>
      -- A position inside the log sees the new event behind what it already had to read.
      obtain ⟨position, placed, inside, same⟩ := tracks.position live
      simp [EventBus.pushToEventQueues, Broadcast.State.unread, live, placed, same,
        List.drop_append_of_le_length inside]
  | @polled id reply next =>
    cases live : bus.eventQueues id with
    | none =>
      have same : (bus.poll id).2 = bus := by simp [EventBus.poll, live]
      refine ⟨.idle, log, .idle, by rw [same]; exact tracks, fun other => ?_, rfl⟩
      simp [Processed.delivered, Broadcast.Action.readBy, EventBus.poll, live, Except.map]
    | some queue =>
      have after_queues : ∀ other, (bus.poll id).2.eventQueues other =
          if other = id then some queue.tail else bus.eventQueues other := by
        intro other
        rw [EventBus.poll_eventQueues, live, Option.map_some]
      have front : queue.head?.toList ++ queue.tail = queue := by cases queue <;> rfl
      obtain ⟨log', read, kept⟩ :=
        tracks.read (by rw [live, front]) disjoint after_queues
      refine ⟨_, log', read, kept, fun other => ?_, rfl⟩
      cases queue <;>
        simp [Processed.delivered, Broadcast.Action.readBy, EventBus.poll, live, Except.map]
  | @drained id reply next =>
    cases live : bus.eventQueues id with
    | none =>
      have same : (bus.batchPoll id).2 = bus := by simp [EventBus.batchPoll, live]
      refine ⟨.idle, log, .idle, by rw [same]; exact tracks, fun other => ?_, rfl⟩
      simp [Processed.delivered, Broadcast.Action.readBy, EventBus.batchPoll, live, Except.map]
    | some queue =>
      have after_queues : ∀ other, (bus.batchPoll id).2.eventQueues other =
          if other = id then some [] else bus.eventQueues other := by
        intro other
        rw [EventBus.batchPoll_eventQueues, live, Option.map_some]
      obtain ⟨log', read, kept⟩ :=
        tracks.read (by rw [live, List.append_nil]) disjoint after_queues
      refine ⟨_, log', read, kept, fun other => ?_, rfl⟩
      simp [Processed.delivered, Broadcast.Action.readBy, EventBus.batchPoll, live, Except.map,
        EventBus.drain_eq]
  | cleaned =>
    -- A cleanup lets all remembered readers leave at once.
    have left : Broadcast.Step log (.leave bus.recycle) _ := .leave
    refine ⟨_, _, left, ⟨disjoint, left.bounded tracks.bounded, fun other => ?_⟩,
      fun _ => rfl, rfl⟩
    rw [EventBus.cleanup_eventQueues]
    by_cases gone : other ∈ bus.recycle
    · simp [Broadcast.State.unread, gone]
    · simpa [Broadcast.State.unread, gone] using tracks.queues other

/-- Runs that mirror each other read and publish the same events. -/
theorem mirrors_flatMap {entries : List (Processed build τ)}
    {acts : List (Broadcast.Action SubId τ)}
    (mirrored : List.Forall₂ Processed.Mirrors entries acts) (id : SubId) :
    acts.flatMap (Broadcast.Action.readBy id) = entries.flatMap (Processed.delivered id) ∧
      acts.flatMap Broadcast.Action.published = entries.flatMap Processed.published := by
  -- The two histories are followed side by side.
  induction mirrored with
  | nil => simp
  | cons same _ ih => simp [List.flatMap_cons, ih.1, ih.2, same.reads, same.publishes]

/-- The bus refines the log on every run. -/
theorem bus_refines_log {entries : List (Processed build τ)} {bus after : EventBus τ}
    {log : Broadcast.State SubId τ} (tracks : bus.Tracks log)
    (run : Run BusStep bus entries after) :
    ∃ acts log', Run Broadcast.Step log acts log' ∧ after.Tracks log' ∧
      List.Forall₂ Processed.Mirrors entries acts :=
  run.simulate (fun _ _ _ _ related step => step.tracks related) tracks

/-- One stay of a subscription inside a longer run of the bus. -/
structure Subscription (trace : List (Processed build τ)) where
  id : SubId
  before : List (Processed build τ)
  grant : Processed build τ
  period : List (Processed build τ)
  after : List (Processed build τ)
  ungranted : EventBus τ
  opened : EventBus τ
  current : EventBus τ
  trace_eq : trace = before ++ grant :: (period ++ after)
  reached : Run BusStep EventBus.new before ungranted
  granted : BusStep ungranted grant opened
  grants : grant.Grants id
  -- The period ends before the message that removes the queue, so the queue is there throughout.
  stays : Run (Into (EventBus.Live id) BusStep) opened period current

namespace Subscription

variable {trace : List (Processed build τ)}

/-- Everything the subscription has been handed, followed by what its queue still holds. -/
def stream (sub : Subscription trace) : List τ :=
  sub.period.flatMap (Processed.delivered sub.id) ++ (sub.current.eventQueues sub.id).getD []

/-- How many events had been published when the subscription was granted. -/
def offset (sub : Subscription trace) : Nat := (sub.before.flatMap Processed.published).length

/-- The queue is there at the end of the period, and the stream is what was published in it. -/
theorem stream_eq (sub : Subscription trace) :
    sub.current.Live sub.id ∧ sub.stream = sub.period.flatMap Processed.published := by
  -- The whole history is replayed on the log, where reading and leaving unread add up.
  obtain ⟨_, log, _, tracks, _⟩ := bus_refines_log EventBus.new_tracks sub.reached
  obtain ⟨_, opened, _, openedTracks, _⟩ := sub.granted.tracks tracks
  -- Staying live on the bus is following the log, so the period is a stay of the reader.
  have sim : ∀ (bus : EventBus τ) (entry : Processed build τ) after log, bus.Tracks log →
      Into (EventBus.Live sub.id) BusStep bus entry after →
      ∃ act log', Into (Broadcast.Follows sub.id) Broadcast.Step log act log' ∧
        after.Tracks log' ∧ Processed.Mirrors entry act := by
    rintro bus entry after log related ⟨step, queue, here⟩
    obtain ⟨act, log', read, kept, mirrors⟩ := step.tracks related
    exact ⟨act, log', ⟨read, queue, (kept.queues _).symm.trans here⟩, kept, mirrors⟩
  obtain ⟨acts, last, stay, lastTracks, mirrored⟩ := sub.stays.simulate sim openedTracks
  have atStart : opened.unread sub.id = some [] := by
    rw [← openedTracks.queues, sub.granted.opens sub.grants]
  obtain ⟨queue, atEnd, equation⟩ :=
    Broadcast.Run.read_then_unread stay openedTracks.bounded atStart
  have here : sub.current.eventQueues sub.id = some queue := by rw [lastTracks.queues, atEnd]
  obtain ⟨reads, publishes⟩ := mirrors_flatMap mirrored sub.id
  refine ⟨⟨queue, here⟩, ?_⟩
  rw [stream, here, Option.getD_some, ← reads, equation, publishes, List.nil_append]

/-- Event number `i` of the stream is entry number `offset + i` of all that was published. -/
theorem stream_getElem (sub : Subscription trace) (i : Nat) (within : i < sub.stream.length) :
    sub.stream[i]? = (trace.flatMap Processed.published)[sub.offset + i]? := by
  -- The grant itself publishes nothing, so the period starts where the earlier messages end.
  have quiet : sub.grant.published = [] := by
    obtain ⟨reply, answered⟩ := sub.grants
    cases message : sub.grant.message with
    | pushEvent event reply' =>
      have processed := sub.granted.processed
      rw [message, answered] at processed
      simp [EventBus.process, EventBus.pushToEventQueues, Except.map] at processed
    | _ => simp [Processed.published, message]
  have whole : trace.flatMap Processed.published
      = sub.before.flatMap Processed.published ++
        (sub.stream ++ sub.after.flatMap Processed.published) := by
    conv_lhs => rw [sub.trace_eq]
    simp [quiet, sub.stream_eq.2]
  rw [whole, offset, List.getElem?_append_right (Nat.le_add_right _ _), Nat.add_sub_cancel_left,
    List.getElem?_append_left within]

/-- A batch poll hands out what was published to the subscription and not handed out before. -/
theorem drained (sub : Subscription trace) {earlier later : List (Processed build τ)}
    {entry : Processed build τ} {poll : ReplyId}
    (period : sub.period = earlier ++ entry :: later)
    (polled : entry.message = .batchPoll sub.id poll) :
    (earlier ++ [entry]).flatMap (Processed.delivered sub.id) =
      earlier.flatMap Processed.published := by
  -- The subscription is looked at right after the poll.
  have split : sub.period = (earlier ++ [entry]) ++ later := by simp [period]
  obtain ⟨now, soFar, -⟩ := (split ▸ sub.stays).split
  let upTo : Subscription trace :=
    { sub with
      period := earlier ++ [entry]
      after := later ++ sub.after
      current := now
      trace_eq := sub.trace_eq.trans (by rw [split, List.append_assoc])
      stays := soFar }
  -- Its queue has just been emptied.
  have empty : now.eventQueues sub.id = some [] := by
    obtain ⟨before, -, step, queue, here⟩ := soFar.unsnoc
    have processed := step.processed
    rw [polled] at processed
    obtain rfl : (before.batchPoll sub.id).2 = now := (Prod.mk.inj processed).1
    rw [EventBus.batchPoll_eventQueues, if_pos rfl] at here ⊢
    cases live : before.eventQueues sub.id with
    | none => simp [live] at here
    | some queue => rfl
  have equation := upTo.stream_eq.2
  rw [stream, show upTo.current.eventQueues upTo.id = some [] from empty, Option.getD_some,
    List.append_nil] at equation
  have quiet : entry.published = [] := by rw [Processed.published, polled]
  rw [show upTo.period = earlier ++ [entry] from rfl, List.flatMap_append, List.flatMap_append,
    List.flatMap_singleton Processed.published, quiet, List.append_nil, ← List.flatMap_append]
    at equation
  exact equation

/-- A subscription's stream covers an entry of all that was published. -/
def Covers (sub : Subscription trace) (entry : Nat) : Prop :=
  sub.offset ≤ entry ∧ entry < sub.offset + sub.stream.length

end Subscription

/--
Delivery loses, repeats and reorders nothing.

While a subscription stays, what its polls returned followed by its queue is exactly what was
published since it was granted. Two subscriptions agree on every published event they share.
-/
theorem delivery_lossless {trace : List (Processed build τ)} (sub : Subscription trace) :
    sub.current.Live sub.id ∧
      sub.stream = sub.period.flatMap Processed.published ∧
      (∀ i < sub.stream.length,
        sub.stream[i]? = (trace.flatMap Processed.published)[sub.offset + i]?) ∧
      ∀ (other : Subscription trace) (entry : Nat), sub.Covers entry → other.Covers entry →
        sub.stream[entry - sub.offset]? = other.stream[entry - other.offset]? := by
  -- Both positions name the same entry of the one sequence of published events.
  refine ⟨sub.stream_eq.1, sub.stream_eq.2, sub.stream_getElem, ?_⟩
  rintro other entry ⟨low, high⟩ ⟨otherLow, otherHigh⟩
  rw [sub.stream_getElem _ (by omega), other.stream_getElem _ (by omega),
    Nat.add_sub_cancel' low, Nat.add_sub_cancel' otherLow]

/-- Two subscriptions are granted, with an event published and polled in between and one after. -/
def sharedTrace : List (Processed .immediate Nat) :=
  [⟨.subscribe 0, some 1, some (0, .ok (.subId 1))⟩, ⟨.pushEvent 7 1, none, some (1, .ok .unit)⟩,
    ⟨.poll 1 2, none, some (2, .ok (.event (some 7)))⟩,
    ⟨.subscribe 3, some 2, some (3, .ok (.subId 2))⟩, ⟨.pushEvent 8 4, none, some (4, .ok .unit)⟩]

/-- The bus after a beginning of the trace. -/
def sharedBus (served : Nat) : EventBus Nat :=
  (sharedTrace.take served).foldl (fun bus entry => (bus.process entry.message entry.next).1) .new

/-- The first subscription has taken one event, and another one is in its queue. -/
def firstShared : Subscription sharedTrace where
  id := 1
  before := []
  grant := ⟨.subscribe 0, some 1, some (0, .ok (.subId 1))⟩
  period := sharedTrace.drop 1
  after := []
  ungranted := .new
  opened := sharedBus 1
  current := sharedBus 5
  trace_eq := rfl
  reached := .nil
  granted := ⟨fun _ _ => rfl, rfl⟩
  grants := ⟨0, rfl⟩
  stays := .cons ⟨⟨by simp, rfl⟩, [7], rfl⟩ <| .cons ⟨⟨by simp, rfl⟩, [], rfl⟩ <|
    .cons ⟨⟨fun _ _ => rfl, rfl⟩, [], rfl⟩ <| .single ⟨⟨by simp, rfl⟩, [8], rfl⟩

/-- The second subscription is granted between the two events. -/
def secondShared : Subscription sharedTrace where
  id := 2
  before := sharedTrace.take 3
  grant := ⟨.subscribe 3, some 2, some (3, .ok (.subId 2))⟩
  period := sharedTrace.drop 4
  after := []
  ungranted := sharedBus 3
  opened := sharedBus 4
  current := sharedBus 5
  trace_eq := rfl
  reached := .cons ⟨fun _ _ => rfl, rfl⟩ <| .cons ⟨by simp, rfl⟩ <| .single ⟨by simp, rfl⟩
  granted := ⟨fun _ _ => rfl, rfl⟩
  grants := ⟨3, rfl⟩
  stays := .single ⟨⟨by simp, rfl⟩, [8], rfl⟩

/-- The event that both subscriptions cover is the same in both streams. -/
theorem delivery_lossless_shared :
    firstShared.stream = [7, 8] ∧ firstShared.period.flatMap (Processed.delivered 1) = [7] ∧
      secondShared.stream = [8] ∧ firstShared.stream[1 - firstShared.offset]? =
        secondShared.stream[1 - secondShared.offset]? := by
  obtain ⟨-, -, -, common⟩ := delivery_lossless firstShared
  exact ⟨rfl, rfl, rfl, common secondShared 1 ⟨by decide, by decide⟩ ⟨by decide, by decide⟩⟩

end Imputio
