import Imputio.Lib.Channel
import Imputio.Io.Poller

/-! Dispatch of a batch to the channels behind the user-supplied notifiers. -/

namespace Imputio

/-- The channels behind the user-supplied notifiers. -/
abbrev NotifierChannels := ChannelId → Channel Event

/-- How a call of `poll` ends. -/
inductive PollEnding where
  | returned (result : PollResult Unit)
  -- A `todo!()` arm was reached.
  | panicked
  -- A bounded channel is full, and the send waits for its receiver.
  | blocked
  deriving DecidableEq

/-- The poller and the channels after a call of `poll`. -/
structure PollRun where
  poller : Poller
  channels : NotifierChannels
  ending : PollEnding

namespace Poller

/-- The loop over the events of one batch, with the sends it makes on its way. -/
def dispatchTo (p : Poller) (channels : NotifierChannels) : List Event → PollRun
  | [] => ⟨p, channels, .returned (.ok ())⟩
  | event :: events =>
    match p.dispatch event with
    | .silent => p.dispatchTo channels events
    | .notified notify =>
      match (channels notify).send event with
      | .sent channel => p.dispatchTo (Function.update channels notify channel) events
      -- The error is logged, and the loop goes on.
      | .disconnected => p.dispatchTo channels events
      | .full => ⟨p, channels, .blocked⟩
    | .unfinished => ⟨p, channels, .panicked⟩

/-- Wait for events and send them to their notifiers. -/
def pollTo (p : Poller) (channels : NotifierChannels) (ready : PollResult (List Event)) :
    PollRun :=
  match ready with
  | .error error => ⟨p, channels, .returned (.error error)⟩
  | .ok events => p.dispatchTo channels events

/-- A call whose sends were delivered, up to the first one that waits. -/
def runOf (p : Poller) (outcome : PollOutcome) (delivered : NotifierChannels × Bool) :
    PollRun where
  poller := p
  channels := delivered.1
  ending := match delivered.2, outcome.result with
    | false, _ => .blocked
    | true, none => .panicked
    | true, some result => .returned result

variable {p : Poller} {channels : NotifierChannels}

/-- The loop makes the sends of the batch in order, and a send that waits is where it stops. -/
theorem dispatchTo_eq (events : List Event) :
    p.dispatchTo channels events =
      p.runOf (p.dispatchAll events)
        (Channel.deliverAll channels (p.dispatchAll events).sends) := by
  -- The induction follows the loop, over the channels as each event finds them.
  induction events generalizing channels with
  | nil => rfl
  | cons event events ih =>
    rw [dispatchTo, dispatchAll]
    cases p.dispatch event with
    | silent => exact ih
    | unfinished => rfl
    | notified notify =>
      simp only [Channel.deliverAll, Channel.deliver]
      cases (channels notify).send event with
      | sent channel => exact ih
      | disconnected => exact ih
      | full => rfl

/-- What a call sends is what its events lead to. -/
theorem pollTo_eq (ready : PollResult (List Event)) :
    p.pollTo channels ready =
      p.runOf (p.poll ready) (Channel.deliverAll channels (p.poll ready).sends) := by
  -- An error sends nothing, and a batch is dispatched event by event.
  cases ready with
  | error error => rfl
  | ok events => exact dispatchTo_eq events

/-- The events that are sent to one notifier are those whose slots carry it. -/
theorem AllWatch.messagesFor (watch : p.AllWatch) (events : List Event) (notify : ChannelId) :
    Channel.messagesFor notify (p.poll (.ok events)).sends =
      events.filter fun event => p.slotNotify event.token = some notify := by
  -- The induction follows the batch.
  rw [watch.poll]
  induction events with
  | nil => rfl
  | cons event events ih =>
    unfold Channel.messagesFor at ih ⊢
    cases found : p.slotNotify event.token with
    | none => simpa [found] using ih
    | some target =>
      by_cases same : target = notify
      · simpa [found, same] using ih
      · simpa [found, same] using ih

/-- Every send of a batch is to a notifier that some slot carries. -/
theorem AllWatch.sends_carried (watch : p.AllWatch) (events : List Event) :
    ∀ sent ∈ (p.poll (.ok events)).sends, ∃ token, p.slotNotify token = some sent.1 := by
  -- Each send is one of the events, with the notifier of its slot.
  rw [watch.poll]
  intro sent among
  obtain ⟨event, -, found⟩ := List.mem_filterMap.mp among
  obtain ⟨notify, carried, rfl⟩ := Option.map_eq_some_iff.mp found
  exact ⟨event.token, carried⟩

/--
With add-registrations in all slots, a batch is dispatched to its end. Every connected channel gets
the events whose slots carry it, in order, and nothing else changes.
-/
theorem poll_delivers (watch : p.AllWatch) (channels : NotifierChannels)
    (unbounded : ∀ token notify, p.slotNotify token = some notify →
      (channels notify).connected = true → (channels notify).capacity = none)
    (events : List Event) :
    (p.pollTo channels (.ok events)).ending = .returned (.ok ()) ∧
      (p.pollTo channels (.ok events)).poller = p ∧
      ∀ notify, (p.pollTo channels (.ok events)).channels notify =
        if (channels notify).connected then
          { channels notify with
            queue := (channels notify).queue ++
              events.filter fun event => p.slotNotify event.token = some notify }
        else channels notify := by
  -- Each notifier that a slot carries has a channel that never waits.
  have never : ∀ sent ∈ (p.poll (.ok events)).sends, (channels sent.1).NeverWaits := by
    intro sent among
    obtain ⟨token, carried⟩ := watch.sends_carried events sent among
    exact unbounded token sent.1 carried
  -- Nothing waits, so the channels get what the batch sends them.
  rw [pollTo_eq, Channel.deliverAll_eq _ never]
  refine ⟨?_, rfl, fun notify => ?_⟩
  · rw [runOf, watch.poll]
  · rw [← watch.messagesFor events notify]
    rfl

/-- Which operations are stored can be read off the keys in use. -/
theorem allWatch_iff :
    (∀ key ∈ p.tokens.keys, ∀ op ∈ p.tokens.get key, op.Watches) ↔ p.AllWatch := by
  -- A key that holds something is in use.
  constructor
  · intro among key op stored
    have used : key ∈ p.tokens.keys := by
      rw [p.tokens.mem_keys]
      exact Option.isSome_iff_exists.mpr ⟨op, stored⟩
    exact among key used op stored
  · exact fun watch key _ op stored => watch key op stored

instance (p : Poller) : Decidable p.AllWatch := decidable_of_iff _ allWatch_iff

/-- A listener between two raw descriptors. -/
def threeRegistered : List Registered :=
  [⟨7, 2, 0, rwInterests⟩, ⟨5, 1, 1, rwInterests⟩, ⟨8, 3, 2, rwInterests⟩]

/-- Three sources, two of which share a notifier. -/
def threeSources : Poller where
  registry := threeRegistered
  eventSrcIds fd :=
    if fd = 7 then some (0, none)
    else if fd = 5 then some (1, some 0)
    else if fd = 8 then some (2, none)
    else none
  tokens := ((Slab.empty.insert .inOrder (.registrationFdAdd 7 .readable (some 0))).insert .inOrder
    (.registrationTcpAdd ⟨6, 5, 1⟩ .readable (some 0))).insert .inOrder
      (.registrationFdAdd 8 .readable (some 1))
  accepted := threeRegistered

/-- The user has dropped the receiver of the notifier that is not shared. -/
def oneReceiverGone (notify : ChannelId) : Channel Event := ⟨[], none, notify ≠ 1⟩

/-- Events of all three sources, and one with a token that nothing is stored under. -/
def mixedBatch : List Event := [⟨1, 1⟩, ⟨2, 1⟩, ⟨0, 2⟩, ⟨9, 1⟩, ⟨1, 1⟩]

/-- The shared channel gets the events of both sources, past a failed send and a vacant slot. -/
theorem poll_delivers_shared :
    (threeSources.pollTo oneReceiverGone (.ok mixedBatch)).channels 0 =
      { oneReceiverGone 0 with queue := [⟨1, 1⟩, ⟨0, 2⟩, ⟨1, 1⟩] } := by
  -- The theorem says what is in the channel, and the batch is filtered.
  obtain ⟨-, -, delivered⟩ := poll_delivers (by decide : threeSources.AllWatch) oneReceiverGone
    (fun _ _ _ _ => rfl) mixedBatch
  rw [delivered]
  decide

end Poller

end Imputio
