import Mathlib.Logic.Function.Basic
import Imputio.Lib.Transition

/-! The event bus actor: its messages, its tables, and what each message does to them. -/

namespace Imputio

open Transition

/-- The `delay-delete` feature chooses between two ways of ending a subscription. -/
inductive Build where
  | immediate
  | delayDelete
  deriving DecidableEq, Repr

/-- A subscription id, a `u32` in the source. -/
abbrev SubId := Nat

/-- The id of a handle that is subscribed to nothing. -/
def nullSubId : SubId := 0

/-- The errors the bus and its handles return. -/
inductive EventBusError where
  | resourceExhaustion
  | channelSendError
  | channelRcvError
  deriving DecidableEq, Repr

/-- The results of the bus and of its handles. -/
abbrev BusResult (α : Type*) := Except EventBusError α

/-- The one-slot reply channel that belongs to one request. -/
abbrev ReplyId := Nat

/-- The requests that handles send to the bus. -/
inductive EventBusMessage (build : Build) (τ : Type*) where
  | subscribe (reply : ReplyId)
  | unsubscribe (id : SubId)
  | pushEvent (event : τ) (reply : ReplyId)
  | poll (id : SubId) (reply : ReplyId)
  | batchPoll (id : SubId) (reply : ReplyId)
  -- This message exists only in the build with deferred deletion.
  | cleanUpBgTask (enabled : build = .delayDelete)

/-- What a reply channel carries when the request succeeds. -/
inductive Reply (τ : Type*) where
  | subId (id : SubId)
  | unit
  | event (event : Option τ)
  | events (events : List τ)
  deriving DecidableEq, Repr

/-- The tables of the bus; a queue is listed from its front. -/
structure EventBus (τ : Type*) where
  eventQueues : SubId → Option (List τ)
  ids : SubId → Bool
  -- Only the build with deferred deletion ever puts an id here.
  recycle : List SubId

/-- The largest `u16`. -/
def u16Max : Nat := 65535

/-- What `ids.iter().next()` may yield, since a hash set is iterated in no promised order. -/
def IterNext (ids : SubId → Bool) : Option SubId → Prop
  | some id => ids id = true
  | none => ∀ id, ids id = false

namespace EventBus

variable {τ : Type*} {build : Build}

/-- A bus with no subscriptions and every id from one up to `u16::MAX` free. -/
def new : EventBus τ where
  eventQueues := fun _ => none
  -- The range in the source leaves out its upper end.
  ids := fun id => decide (1 ≤ id ∧ id < u16Max)
  recycle := []

/-- Give a free id an empty queue; `next` is what the iteration over the free ids yields. -/
def subscribe (bus : EventBus τ) (next : Option SubId) : BusResult SubId × EventBus τ :=
  match next with
  -- No free id is left.
  | none => (.error .resourceExhaustion, bus)
  | some newId =>
    (.ok newId,
      { bus with
        -- An insert replaces whatever queue the id had.
        eventQueues := Function.update bus.eventQueues newId (some [])
        ids := Function.update bus.ids newId false })

/-- Remove a queue and free its id again, as the build without `delay-delete` does at once. -/
def unsubscribe (bus : EventBus τ) (id : SubId) : EventBus τ :=
  match bus.eventQueues id with
  | none => bus
  | some _ =>
    { bus with
      eventQueues := Function.update bus.eventQueues id none
      -- The id is only put back if it had a queue.
      ids := Function.update bus.ids id true }

/-- Remember an id for the next cleanup, as the build with `delay-delete` does. -/
def unsubscribeDelayed (bus : EventBus τ) (id : SubId) : EventBus τ :=
  { bus with recycle := bus.recycle ++ [id] }

/-- Remove the queues of all remembered ids. -/
def cleanup (bus : EventBus τ) : EventBus τ :=
  let cleanup := bus.recycle
  cleanup.foldl
    (fun bus id => { bus with eventQueues := Function.update bus.eventQueues id none })
    { bus with recycle := [] }

/-- Append an event to every queue. -/
def pushToEventQueues (bus : EventBus τ) (event : τ) : BusResult Unit × EventBus τ :=
  (.ok (), { bus with eventQueues := fun id => (bus.eventQueues id).map (· ++ [event]) })

/-- Take the front of one queue. -/
def poll (bus : EventBus τ) (id : SubId) : BusResult (Option τ) × EventBus τ :=
  match bus.eventQueues id with
  | none => (.ok none, bus)
  | some item =>
    (.ok item.head?,
      { bus with eventQueues := Function.update bus.eventQueues id (some item.tail) })

/-- The loop of a batch poll: pop from the front of the queue until it is empty. -/
def drain : List τ → List τ → List τ
  | items, [] => items
  | items, event :: item => drain (items ++ [event]) item

/-- Take everything one queue holds. -/
def batchPoll (bus : EventBus τ) (id : SubId) : BusResult (List τ) × EventBus τ :=
  match bus.eventQueues id with
  | none => (.ok [], bus)
  | some item =>
    (.ok (drain [] item),
      { bus with eventQueues := Function.update bus.eventQueues id (some []) })

/-- One turn of the actor's loop: apply a message and produce what is sent as its reply. -/
def process (bus : EventBus τ) (message : EventBusMessage build τ) (next : Option SubId) :
    EventBus τ × Option (ReplyId × BusResult (Reply τ)) :=
  match message with
  | .subscribe reply =>
    let (result, bus) := bus.subscribe next
    (bus, some (reply, result.map .subId))
  | .unsubscribe id =>
    match build with
    | .immediate => (bus.unsubscribe id, none)
    | .delayDelete => (bus.unsubscribeDelayed id, none)
  | .pushEvent event reply =>
    let (result, bus) := bus.pushToEventQueues event
    (bus, some (reply, result.map fun _ => .unit))
  | .poll id reply =>
    let (result, bus) := bus.poll id
    (bus, some (reply, result.map .event))
  | .batchPoll id reply =>
    let (result, bus) := bus.batchPoll id
    (bus, some (reply, result.map .events))
  -- Nobody waits for the end of a cleanup.
  | .cleanUpBgTask _ => (bus.cleanup, none)

end EventBus

/-- A message the actor has processed, with the free id it saw first and the reply it sent. -/
structure Processed (build : Build) (τ : Type*) where
  message : EventBusMessage build τ
  next : Option SubId
  reply : Option (ReplyId × BusResult (Reply τ))

/-- A processed message that granted an id to a new subscription. -/
def Processed.Grants (id : SubId) (entry : Processed build τ) : Prop :=
  ∃ reply, entry.reply = some (reply, .ok (.subId id))

/-- The actor processes one message; only a subscription looks at the free ids. -/
structure BusStep {τ : Type*} {build : Build} (bus : EventBus τ) (entry : Processed build τ)
    (after : EventBus τ) : Prop where
  picked : ∀ reply, entry.message = .subscribe reply → IterNext bus.ids entry.next
  processed : bus.process entry.message entry.next = (after, entry.reply)

namespace EventBus

variable {τ : Type*} {build : Build}

/-- The queues and the free ids of a bus are those of another one. -/
def SameTables (bus other : EventBus τ) : Prop :=
  bus.eventQueues = other.eventQueues ∧ bus.ids = other.ids

/-- The bus keeps a queue for an id. -/
def Live (id : SubId) (bus : EventBus τ) : Prop := ∃ queue, bus.eventQueues id = some queue

/-- Popping one event at a time hands over the whole queue in order. -/
theorem drain_eq (items queue : List τ) : drain items queue = items ++ queue := by
  -- Each turn moves one event from the front of the queue to the end of the result.
  induction queue generalizing items with
  | nil => simp [drain]
  | cons event queue ih => simp [drain, ih]

/-- A cleanup removes exactly the queues of the remembered ids. -/
theorem cleanup_eventQueues (bus : EventBus τ) (id : SubId) :
    bus.cleanup.eventQueues id = if id ∈ bus.recycle then none else bus.eventQueues id := by
  -- The loop over the remembered ids is followed for an arbitrary starting bus.
  have general : ∀ (ids : List SubId) (start : EventBus τ),
      (ids.foldl (fun bus id =>
        { bus with eventQueues := Function.update bus.eventQueues id none }) start).eventQueues id
        = if id ∈ ids then none else start.eventQueues id := by
    intro ids
    induction ids with
    | nil => simp
    | cons first rest ih =>
      intro start
      rw [List.foldl_cons, ih]
      by_cases later : id ∈ rest
      · simp [later]
      · by_cases now : id = first <;> simp [later, now]
  exact general bus.recycle _

/-- A cleanup leaves the free ids alone and forgets what it has removed. -/
theorem cleanup_rest (bus : EventBus τ) :
    bus.cleanup.ids = bus.ids ∧ bus.cleanup.recycle = [] := by
  -- The loop only touches the queues, whatever bus it starts with.
  have general : ∀ (ids : List SubId) (start : EventBus τ),
      (ids.foldl (fun bus id =>
        { bus with
          eventQueues := Function.update bus.eventQueues id none }) start).ids = start.ids ∧
      (ids.foldl (fun bus id =>
        { bus with eventQueues := Function.update bus.eventQueues id none }) start).recycle
        = start.recycle := by
    intro ids
    induction ids with
    | nil => simp
    | cons first rest ih =>
      intro start
      simpa using ih { start with eventQueues := Function.update start.eventQueues first none }
  exact general bus.recycle _

/-- No id is both free and in use. -/
def PoolDisjoint (bus : EventBus τ) : Prop :=
  ∀ id, bus.ids id = true → bus.eventQueues id = none

/-- A new bus uses no id at all. -/
theorem new_poolDisjoint : (new : EventBus τ).PoolDisjoint := fun _ _ => rfl

/-- What one message does to the tables and what it is answered, by the kind of the message. -/
inductive Effect (bus : EventBus τ) : Processed build τ → EventBus τ → Prop
  | granted {reply : ReplyId} {id : SubId} (free : bus.ids id = true) :
      Effect bus ⟨.subscribe reply, some id, some (reply, .ok (.subId id))⟩
        (bus.subscribe (some id)).2
  | exhausted {reply : ReplyId} (none_free : ∀ id, bus.ids id = false) :
      Effect bus ⟨.subscribe reply, none, some (reply, .error .resourceExhaustion)⟩ bus
  | removed {id : SubId} {next : Option SubId} (now : build = .immediate) :
      Effect bus ⟨.unsubscribe id, next, none⟩ (bus.unsubscribe id)
  | marked {id : SubId} {next : Option SubId} (later : build = .delayDelete) :
      Effect bus ⟨.unsubscribe id, next, none⟩ (bus.unsubscribeDelayed id)
  | pushed {event : τ} {reply : ReplyId} {next : Option SubId} :
      Effect bus ⟨.pushEvent event reply, next, some (reply, .ok .unit)⟩
        (bus.pushToEventQueues event).2
  | polled {id : SubId} {reply : ReplyId} {next : Option SubId} :
      Effect bus ⟨.poll id reply, next, some (reply, (bus.poll id).1.map .event)⟩ (bus.poll id).2
  | drained {id : SubId} {reply : ReplyId} {next : Option SubId} :
      Effect bus ⟨.batchPoll id reply, next, some (reply, (bus.batchPoll id).1.map .events)⟩
        (bus.batchPoll id).2
  | cleaned {enabled : build = .delayDelete} {next : Option SubId} :
      Effect bus ⟨.cleanUpBgTask enabled, next, none⟩ bus.cleanup

/-- Removing one queue, with or without an entry to remove. -/
theorem unsubscribe_eventQueues (bus : EventBus τ) (id other : SubId) :
    (bus.unsubscribe id).eventQueues other =
      if other = id then none else bus.eventQueues other := by
  -- An id without a queue stays without one.
  unfold unsubscribe
  cases found : bus.eventQueues id with
  | none => by_cases same : other = id <;> simp [same, found]
  | some queue => by_cases same : other = id <;> simp [same]

/-- An id becomes free only when its queue is removed. -/
theorem unsubscribe_ids (bus : EventBus τ) (id other : SubId) :
    (bus.unsubscribe id).ids other =
      if other = id ∧ (bus.eventQueues id).isSome then true else bus.ids other := by
  -- Without a queue nothing happens, and else the one id is given back.
  unfold unsubscribe
  cases found : bus.eventQueues id with
  | none => simp
  | some queue => by_cases same : other = id <;> simp [same]

/-- A poll takes at most the front of the queue it names. -/
theorem poll_eventQueues (bus : EventBus τ) (id other : SubId) :
    (bus.poll id).2.eventQueues other =
      if other = id then (bus.eventQueues id).map List.tail else bus.eventQueues other := by
  -- A queue that is missing is not made.
  unfold poll
  cases found : bus.eventQueues id with
  | none => by_cases same : other = id <;> simp [same, found]
  | some queue => by_cases same : other = id <;> simp [same]

/-- A batch poll empties the queue it names. -/
theorem batchPoll_eventQueues (bus : EventBus τ) (id other : SubId) :
    (bus.batchPoll id).2.eventQueues other =
      if other = id then (bus.eventQueues id).map (fun _ => []) else bus.eventQueues other := by
  -- Without a queue nothing happens, and else the one queue is replaced.
  unfold batchPoll
  cases found : bus.eventQueues id with
  | none => by_cases same : other = id <;> simp [same, found]
  | some queue => by_cases same : other = id <;> simp [same]

/-- An id without a queue is one the table has no entry for. -/
theorem not_live_iff {bus : EventBus τ} {id : SubId} :
    ¬ bus.Live id ↔ bus.eventQueues id = none :=
  -- A queue that is there is a value of the lookup.
  (not_congr Option.isSome_iff_exists.symm).trans Option.not_isSome_iff_eq_none

/-- A subscription makes the granted id live. -/
theorem subscribe_live {bus : EventBus τ} {id other : SubId} :
    (bus.subscribe (some id)).2.Live other ↔ other = id ∨ bus.Live other := by
  by_cases same : other = id <;> simp [Live, subscribe, same]

/-- Removing a queue ends one id. -/
theorem unsubscribe_live {bus : EventBus τ} {id other : SubId} :
    (bus.unsubscribe id).Live other ↔ other ≠ id ∧ bus.Live other := by
  -- An id is live if it has a queue, so this is read off the queues.
  unfold Live
  rw [unsubscribe_eventQueues]
  by_cases same : other = id <;> simp [same]

/-- Publishing changes the queues, but not which ids have one. -/
theorem pushToEventQueues_live {bus : EventBus τ} {event : τ} {id : SubId} :
    (bus.pushToEventQueues event).2.Live id ↔ bus.Live id := by
  simp [Live, pushToEventQueues]

/-- A poll keeps the emptied queue in the table. -/
theorem poll_live {bus : EventBus τ} {id other : SubId} :
    (bus.poll id).2.Live other ↔ bus.Live other := by
  -- The queue may be shorter afterwards, but it is there.
  unfold Live
  rw [poll_eventQueues]
  by_cases same : other = id <;> simp [same]

/-- A batch poll keeps the emptied queue in the table. -/
theorem batchPoll_live {bus : EventBus τ} {id other : SubId} :
    (bus.batchPoll id).2.Live other ↔ bus.Live other := by
  -- The queue is empty afterwards, but it is there.
  unfold Live
  rw [batchPoll_eventQueues]
  by_cases same : other = id <;> simp [same]

/-- A cleanup ends the remembered ids. -/
theorem cleanup_live {bus : EventBus τ} {id : SubId} :
    bus.cleanup.Live id ↔ id ∉ bus.recycle ∧ bus.Live id := by
  -- The queues that go are those of the remembered ids.
  unfold Live
  rw [cleanup_eventQueues]
  by_cases gone : id ∈ bus.recycle <;> simp [gone]

/-- Polls leave the free ids and the remembered ids alone. -/
theorem poll_rest (bus : EventBus τ) (id : SubId) :
    (bus.poll id).2.ids = bus.ids ∧ (bus.poll id).2.recycle = bus.recycle := by
  unfold poll
  cases bus.eventQueues id <;> exact ⟨rfl, rfl⟩

/-- Batch polls leave the free ids and the remembered ids alone. -/
theorem batchPoll_rest (bus : EventBus τ) (id : SubId) :
    (bus.batchPoll id).2.ids = bus.ids ∧ (bus.batchPoll id).2.recycle = bus.recycle := by
  unfold batchPoll
  cases bus.eventQueues id <;> exact ⟨rfl, rfl⟩

end EventBus

section Steps

variable {τ : Type*} {build : Build} {bus after : EventBus τ} {entry : Processed build τ}

open EventBus

/-- Every step of the actor has the effect listed for its message. -/
theorem BusStep.effect (step : BusStep bus entry after) : bus.Effect entry after := by
  -- One case for each message, and for an end of a subscription one for each build.
  obtain ⟨picked, processed⟩ := step
  obtain ⟨message, next, reply⟩ := entry
  cases message with
  | subscribe reply =>
    -- The free id the actor saw decides between a grant and exhaustion.
    have valid := picked reply rfl
    cases next with
    | none =>
      obtain ⟨rfl, rfl⟩ := Prod.mk.inj processed
      exact .exhausted valid
    | some id =>
      obtain ⟨rfl, rfl⟩ := Prod.mk.inj processed
      exact .granted valid
  | unsubscribe id =>
    cases build with
    | immediate =>
      obtain ⟨rfl, rfl⟩ := Prod.mk.inj processed
      exact .removed rfl
    | delayDelete =>
      obtain ⟨rfl, rfl⟩ := Prod.mk.inj processed
      exact .marked rfl
  | pushEvent event reply =>
    obtain ⟨rfl, rfl⟩ := Prod.mk.inj processed
    exact .pushed
  | poll id reply =>
    obtain ⟨rfl, rfl⟩ := Prod.mk.inj processed
    exact .polled
  | batchPoll id reply =>
    obtain ⟨rfl, rfl⟩ := Prod.mk.inj processed
    exact .drained
  | cleanUpBgTask enabled =>
    obtain ⟨rfl, rfl⟩ := Prod.mk.inj processed
    exact .cleaned

/-- Every message keeps the free ids apart from the ids in use. -/
theorem BusStep.poolDisjoint (step : BusStep bus entry after) (disjoint : bus.PoolDisjoint) :
    after.PoolDisjoint := by
  -- An id is used from its grant to its removal, and it is not free in between.
  intro other free
  rw [← not_live_iff]
  have absent : bus.ids other = true → ¬ bus.Live other :=
    fun before => not_live_iff.mpr (disjoint other before)
  cases step.effect with
  | @granted reply id available =>
    have apart : other ≠ id := by
      rintro rfl
      simp [subscribe] at free
    have before : bus.ids other = true := by simpa [subscribe, apart] using free
    rw [subscribe_live, or_iff_right apart]
    exact absent before
  | exhausted => exact absent free
  | @removed id next now =>
    -- The removed id may be free now, but it has no queue any more.
    rw [unsubscribe_live]
    rintro ⟨apart, live⟩
    exact absent (by simpa [unsubscribe_ids, apart] using free) live
  | marked => exact absent free
  | pushed =>
    rw [pushToEventQueues_live]
    exact absent free
  | polled =>
    rw [poll_live]
    exact absent (by simpa [poll_rest] using free)
  | drained =>
    rw [batchPoll_live]
    exact absent (by simpa [batchPoll_rest] using free)
  | cleaned =>
    rw [cleanup_live]
    exact fun live => absent (by simpa [cleanup_rest] using free) live.2

/-- A message is answered with an id exactly by picking that id from the free ones. -/
theorem BusStep.picks {id : SubId} (step : BusStep bus entry after) (grants : entry.Grants id) :
    ∃ reply, entry.message = .subscribe reply ∧ entry.next = some id ∧
      entry.reply = some (reply, .ok (.subId id)) ∧ bus.ids id = true ∧
      after = (bus.subscribe (some id)).2 := by
  -- Every other message is answered with something else, or not at all.
  obtain ⟨reply, answered⟩ := grants
  cases step.effect with
  | @granted reply' id' free =>
    simp only [Option.some.injEq, Prod.mk.injEq, Except.ok.injEq, Reply.subId.injEq] at answered
    obtain ⟨rfl, rfl⟩ := answered
    exact ⟨_, rfl, rfl, rfl, free, rfl⟩
  | exhausted => simp at answered
  | removed => simp at answered
  | marked => simp at answered
  | pushed => simp at answered
  | @polled polled =>
    cases live : bus.eventQueues polled <;> simp [poll, live, Except.map] at answered
  | @drained polled =>
    cases live : bus.eventQueues polled <;> simp [batchPoll, live, Except.map] at answered
  | cleaned => simp at answered

/-- A message that grants an id leaves that id with an empty queue. -/
theorem BusStep.opens {id : SubId} (step : BusStep bus entry after) (grants : entry.Grants id) :
    after.eventQueues id = some [] := by
  obtain ⟨reply, _, _, _, _, rfl⟩ := step.picks grants
  simp [subscribe]

/-- A queue that is there after a message was there before, unless the message granted its id. -/
theorem BusStep.live_before {id : SubId} (step : BusStep bus entry after) (live : after.Live id) :
    bus.Live id ∨ entry.Grants id := by
  -- Only a grant adds an entry to the table.
  cases step.effect with
  | @granted reply granted free =>
    rcases subscribe_live.mp live with rfl | before
    · exact .inr ⟨reply, rfl⟩
    · exact .inl before
  | exhausted => exact .inl live
  | removed => exact .inl (unsubscribe_live.mp live).2
  | marked => exact .inl live
  | pushed => exact .inl (pushToEventQueues_live.mp live)
  | polled => exact .inl (poll_live.mp live)
  | drained => exact .inl (batchPoll_live.mp live)
  | cleaned => exact .inl (cleanup_live.mp live).2

end Steps

end Imputio
