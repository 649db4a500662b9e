import Imputio.EventBus.Delivery
import Imputio.EventBus.Protocol

/-! The loops that poll a subscription until an event matches, among all other clients. -/

namespace Imputio

open Transition

/-- The two ways in which a subscriber's handle asks for events. -/
inductive PollMethod where
  | poll
  | batchPoll
  deriving DecidableEq, Repr

/-- What a caller hands to `poll_matcher`, with the event tests of the two wrappers. -/
structure PollMatcher (τ S : Type*) where
  handle : HandleId
  pollFn : PollMethod
  -- The reply of a successful call is either one event at most or a batch of them.
  handler : Reply τ → Bool
  notify : Option S

/-- Where the loop stands. -/
inductive MatcherLoop where
  | polling
  | awaiting (reply : ReplyId)
  -- The loop is left, and the notice is next.
  | exited
  | returned
  deriving DecidableEq, Repr

/-- A step of the loop, or one of the other clients and of the actor. -/
inductive MatcherAction (τ : Type*) where
  | others (act : ClientAction τ)
  | poll
  | resume
  | notify

/--
The bus, its clients, and one loop among them.

What the loop was handed, what was published meanwhile and the notices are history.
-/
structure MatcherSystem (build : Build) (τ S : Type*) where
  system : BusSystem build τ
  loop : MatcherLoop
  taken : List τ
  published : List τ
  notices : List S

variable {build : Build} {τ S : Type*}

/-- `event_poll_matcher`: the loop over single polls. -/
def eventPollMatcher (handle : HandleId) (matcher : τ → Bool) (notify : Option S) :
    PollMatcher τ S where
  handle := handle
  pollFn := .poll
  handler := fun
    | .event (some ev) => if matcher ev then true else false
    | _ => false
  notify := notify

/-- `event_batch_poll_matcher`: the loop over batch polls. -/
def eventBatchPollMatcher (handle : HandleId) (matcher : τ → Bool) (notify : Option S) :
    PollMatcher τ S where
  handle := handle
  pollFn := .batchPoll
  -- The events of a batch are tested one after the other, up to the first match.
  handler := fun
    | .events events => events.any matcher
    | _ => false
  notify := notify

/-- The method call behind each way of polling. -/
def PollMethod.call (pollFn : PollMethod) (handle : HandleId) : ClientAction τ :=
  match pollFn with
  | .poll => .poll handle
  | .batchPoll => .batchPoll handle

/-- The request that the method sends. -/
def PollMethod.message (pollFn : PollMethod) (id : SubId) (reply : ReplyId) :
    EventBusMessage build τ :=
  match pollFn with
  | .poll => .poll id reply
  | .batchPoll => .batchPoll id reply

/-- The events that a reply hands over. -/
def Reply.contents : Reply τ → List τ
  | .event item => item.toList
  | .events items => items
  | _ => []

/-- The replies that a way of polling can get, by the type of its reply channel. -/
def PollMethod.Returns : PollMethod → Reply τ → Prop
  | .poll, .event _ => True
  | .batchPoll, .events _ => True
  | _, _ => False

/-- The events that the next step of the system adds to every queue. -/
def BusSystem.publishes (s : BusSystem build τ) : ClientAction τ → List τ
  | .serve _ =>
    match s.requests.queue with
    | ⟨.pushEvent event _, _⟩ :: _ => [event]
    | _ => []
  | _ => []

/-- The loop stands where it is while another client or the actor takes a step. -/
def MatcherSystem.aside (s : MatcherSystem build τ S) (act : ClientAction τ)
    (system : BusSystem build τ) : MatcherSystem build τ S :=
  { s with system := system, published := s.published ++ s.system.publishes act }

section Aside

variable (s : MatcherSystem build τ S) (act : ClientAction τ) (system : BusSystem build τ)

@[simp] theorem MatcherSystem.aside_system : (s.aside act system).system = system := rfl

@[simp] theorem MatcherSystem.aside_loop : (s.aside act system).loop = s.loop := rfl

@[simp] theorem MatcherSystem.aside_taken : (s.aside act system).taken = s.taken := rfl

@[simp] theorem MatcherSystem.aside_published :
    (s.aside act system).published = s.published ++ s.system.publishes act := rfl

@[simp] theorem MatcherSystem.aside_notices : (s.aside act system).notices = s.notices := rfl

end Aside

namespace PollMatcher

variable (m : PollMatcher τ S)

/-- The loop is about to begin. -/
def start (system : BusSystem build τ) : MatcherSystem build τ S where
  system := system
  loop := .polling
  taken := []
  published := []
  notices := []

/-- Nobody else completes or drops the call of the loop, or the handle that it borrows. -/
def spares (s : MatcherSystem build τ S) : ClientAction τ → Bool
  | .receive reply => s.loop != .awaiting reply
  | .abandon reply => s.loop != .awaiting reply
  | .dropSub handle => handle != m.handle
  | _ => true

/-- The loop body behind the poll: test what it returned, and leave on a match or on an error. -/
def afterPoll (s : MatcherSystem build τ S) (event : BusResult (Reply τ)) :
    MatcherSystem build τ S :=
  match event with
  | .ok event =>
    { s with
      taken := s.taken ++ event.contents
      loop := if m.handler event then .exited else .polling }
  | .error _ => { s with loop := .exited }

/-- What each step does, where it is possible. -/
def next (s : MatcherSystem build τ S) : MatcherAction τ → Option (MatcherSystem build τ S)
  | .others act =>
    if m.spares s act then (s.system.next act).map (s.aside act) else none
  | .poll =>
    if s.loop = .polling then
      (s.system.next (m.pollFn.call m.handle)).map fun system =>
        { s with system := system, loop := .awaiting s.system.nextReply }
    else none
  | .resume =>
    match s.loop with
    | .awaiting reply =>
      match s.system.calls reply with
      | .replied _ result =>
        (s.system.receive reply).map fun system => m.afterPoll { s with system := system } result
      -- The request could not be sent at all.
      | .returned result => some (m.afterPoll s result)
      | _ => none
    | _ => none
  | .notify =>
    if s.loop = .exited then
      some { s with loop := .returned, notices := s.notices ++ m.notify.toList }
    else none

end PollMatcher

/-- One step of the loop or of the others; the actor sees a free id iteration can yield first. -/
structure MatcherStep (m : PollMatcher τ S) (s : MatcherSystem build τ S) (act : MatcherAction τ)
    (t : MatcherSystem build τ S) : Prop where
  picked : ∀ next request rest reply, act = .others (.serve next) →
    s.system.requests.queue = request :: rest → request.message = .subscribe reply →
      IterNext s.system.bus.ids next
  taken : m.next s act = some t

/-- The reply channel of a request that takes events from the queue of an id. -/
def EventBusMessage.takesFrom (id : SubId) : EventBusMessage build τ → Option ReplyId
  | .poll named reply => if named = id then some reply else none
  | .batchPoll named reply => if named = id then some reply else none
  | _ => none

/-- Only the loop's own requests take events from the queue of its id. -/
def SoleConsumer (id : SubId) (s : MatcherSystem build τ S) (act : MatcherAction τ) : Prop :=
  ∀ next request rest reply, act = .others (.serve next) →
    s.system.requests.queue = request :: rest → request.message.takesFrom id = some reply →
      s.loop = .awaiting reply

/-- The steps during which the loop is the single consumer of a subscription that stays. -/
def Consumes (m : PollMatcher τ S) (id : SubId) :
    MatcherSystem build τ S → MatcherAction τ → MatcherSystem build τ S → Prop :=
  Into (fun s => s.system.bus.Live id) (Guarded (SoleConsumer id) (MatcherStep m))

/-- A test that suffices for the loop to be the only one that takes events. -/
def PollMatcher.soleConsumer (id : SubId) (s : MatcherSystem build τ S) : MatcherAction τ → Bool
  | .others (.serve _) =>
    match s.system.requests.queue with
    | request :: _ => (request.message.takesFrom id).all fun reply => s.loop = .awaiting reply
    | [] => true
  | _ => true

/-- A test that suffices for the chosen free id to be one that iteration can yield first. -/
def PollMatcher.mayPick (s : MatcherSystem build τ S) : MatcherAction τ → Bool
  | .others act => s.system.mayPick act
  | _ => true

/-- The loop run with these tests, on a subscription that stays. -/
def PollMatcher.consume (m : PollMatcher τ S) (id : SubId) (s : MatcherSystem build τ S)
    (act : MatcherAction τ) : Option (MatcherSystem build τ S) :=
  if soleConsumer id s act ∧ mayPick s act then
    (m.next s act).filter fun t => (t.system.bus.eventQueues id).isSome
  else none

/-- Whatever passes the tests is a step of a loop that is the single consumer. -/
theorem consumes_of_consume {m : PollMatcher τ S} {id : SubId} (s : MatcherSystem build τ S)
    (act : MatcherAction τ) (t : MatcherSystem build τ S) (taken : Steps (m.consume id) s act t) :
    Consumes m id s act t := by
  -- The tests are the two sides of the guard, and each is read back as what it tests.
  obtain ⟨⟨sole, picks⟩, passed⟩ := Option.ite_none_right_eq_some.mp taken
  obtain ⟨moved, stays⟩ := Option.filter_eq_some_iff.mp passed
  refine ⟨⟨?_, ?_, moved⟩, Option.isSome_iff_exists.mp stays⟩
  · rintro next request rest reply rfl front takes
    simpa [PollMatcher.soleConsumer, front, takes] using sole
  · -- Only a subscription at the front of the channel looks at the free ids.
    rintro next request rest reply rfl front subscribing
    cases next with
    | some id => exact picks
    | none =>
      obtain ⟨message, subscription⟩ := request
      obtain rfl : message = .subscribe reply := subscribing
      simp [PollMatcher.mayPick, BusSystem.mayPick, front] at picks

section Moves

variable {m : PollMatcher τ S} {s t : MatcherSystem build τ S} {act : MatcherAction τ}

/-- What a step of the loop or of the others does, by the kind of the step. -/
inductive MatcherSystem.Move (m : PollMatcher τ S) (s : MatcherSystem build τ S) :
    MatcherAction τ → MatcherSystem build τ S → Prop
  | others {act : ClientAction τ} {system : BusSystem build τ} (spares : m.spares s act)
      (step : SystemStep s.system act system) : Move m s (.others act) (s.aside act system)
  | polled {system : BusSystem build τ} (atTop : s.loop = .polling)
      (step : SystemStep s.system (m.pollFn.call m.handle) system) :
      Move m s .poll { s with system := system, loop := .awaiting s.system.nextReply }
  | resumed {reply : ReplyId} {caller : Caller} {result : BusResult (Reply τ)}
      {system : BusSystem build τ} (waits : s.loop = .awaiting reply)
      (found : s.system.calls reply = .replied caller result)
      (step : SystemStep s.system (.receive reply) system) :
      Move m s .resume (m.afterPoll { s with system := system } result)
  | failed {reply : ReplyId} {result : BusResult (Reply τ)} (waits : s.loop = .awaiting reply)
      (found : s.system.calls reply = .returned result) : Move m s .resume (m.afterPoll s result)
  | notified (left : s.loop = .exited) :
      Move m s .notify { s with loop := .returned, notices := s.notices ++ m.notify.toList }

/-- Every step is one of the listed moves. -/
theorem MatcherStep.move (step : MatcherStep m s act t) : s.Move m act t := by
  -- The tests that a step has passed are taken apart action by action.
  obtain ⟨picked, taken⟩ := step
  cases act with
  | others act =>
    obtain ⟨spares, moved⟩ := Option.ite_none_right_eq_some.mp taken
    obtain ⟨system, step, rfl⟩ := Option.map_eq_some_iff.mp moved
    refine .others spares ⟨fun next request rest reply serving => ?_, step⟩
    exact picked next request rest reply (congrArg _ serving)
  | poll =>
    obtain ⟨atTop, moved⟩ := Option.ite_none_right_eq_some.mp taken
    obtain ⟨system, step, rfl⟩ := Option.map_eq_some_iff.mp moved
    refine .polled atTop ⟨fun next request rest reply serving => ?_, step⟩
    -- A poll is not a step of the actor.
    cases polling : m.pollFn <;> simp [polling, PollMethod.call] at serving
  | resume =>
    simp only [PollMatcher.next] at taken
    split at taken
    · rename_i reply waits
      split at taken
      · rename_i caller result found
        obtain ⟨system, step, rfl⟩ := Option.map_eq_some_iff.mp taken
        exact .resumed waits found ⟨by simp, step⟩
      · rename_i result found
        obtain rfl := Option.some.inj taken
        exact .failed waits found
      · simp at taken
    · simp at taken
  | notify =>
    obtain ⟨left, rfl⟩ := enabled_iff.mp taken
    exact .notified left

end Moves

end Imputio
