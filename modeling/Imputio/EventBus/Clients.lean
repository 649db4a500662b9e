import Imputio.EventBus.Bus
import Imputio.Lib.Channel

/-! The bus together with its handles: requests, replies, clones, drops and the actor's loop. -/

namespace Imputio

open Transition

/-- Names one live `SubHandle` value. -/
abbrev HandleId := Nat

/--
A subscriber's handle.

The subscription is history: it is the request that was granted the id, kept by clones.
-/
structure SubHandle where
  id : SubId
  subscription : ReplyId
  deriving DecidableEq, Repr

/-- The handle a method was called on. -/
inductive Caller where
  | busHandle
  | pubHandle
  | subHandle (handle : HandleId)
  deriving DecidableEq, Repr

/-- A call that expects a reply, from its request to its end. -/
inductive CallState (τ : Type*) where
  | unused
  | waiting (caller : Caller)
  | replied (caller : Caller) (reply : BusResult (Reply τ))
  | returned (reply : BusResult (Reply τ))
  -- The future was dropped before it completed.
  | abandoned

/-- A message in the request channel, with the subscription whose handle sent it as history. -/
structure Request (build : Build) (τ : Type*) where
  message : EventBusMessage build τ
  subscription : Option ReplyId

/-- The actor, its request channel, and everything its clients hold. -/
structure BusSystem (build : Build) (τ : Type*) where
  bus : EventBus τ
  -- The channel is connected as long as the actor is in its loop.
  requests : Channel (Request build τ)
  calls : ReplyId → CallState τ
  handles : HandleId → Option SubHandle
  busHandles : Nat
  pubHandles : Nat
  -- How many unfinished calls borrow each handle.
  borrows : Caller → Nat
  nextReply : ReplyId
  nextHandle : HandleId
  -- History: the subscription that was granted the id last.
  owner : SubId → Option ReplyId

/-- One atomic step of a client or of the actor. -/
inductive ClientAction (τ : Type*) where
  | getSubscriber
  | subscribe (handle : HandleId)
  | unsubscribe (handle : HandleId) (id : SubId)
  | poll (handle : HandleId)
  | batchPoll (handle : HandleId)
  | publishEvent (event : τ)
  | cleanup
  | receive (reply : ReplyId)
  | abandon (reply : ReplyId)
  | cloneSub (handle : HandleId)
  | dropSub (handle : HandleId)
  | cloneBus
  | dropBus
  | getPublisher
  | clonePub
  | dropPub
  -- The actor takes a message; the argument is the free id it would see first.
  | serve (next : Option SubId)
  -- The actor leaves its loop.
  | stop

namespace BusSystem

variable {build : Build} {τ : Type*}

/-- `EventBusHandle::new_with_handle`: a fresh actor and one handle to it. -/
def newWithHandle : BusSystem build τ where
  bus := .new
  -- The constructor makes an unbounded channel and starts the actor on it.
  requests := .unbounded
  calls := fun _ => .unused
  handles := fun _ => none
  busHandles := 1
  pubHandles := 0
  borrows := fun _ => 0
  nextReply := 0
  nextHandle := 0
  owner := fun _ => none

/-- Send a message that has no reply, ignoring a closed channel. -/
def send (s : BusSystem build τ) (message : EventBusMessage build τ)
    (subscription : Option ReplyId) :
    BusSystem build τ :=
  match s.requests.send ⟨message, subscription⟩ with
  -- A message without a reply is sent and forgotten.
  | .sent requests => { s with requests := requests }
  | _ => s

/-- Send a message with a new reply channel and wait on it, or fail at once. -/
def call (s : BusSystem build τ) (caller : Caller) (message : ReplyId → EventBusMessage build τ)
    (subscription : Option ReplyId) : BusSystem build τ :=
  match s.requests.send ⟨message s.nextReply, subscription⟩ with
  | .sent requests =>
    { s with
      requests := requests
      calls := Function.update s.calls s.nextReply (.waiting caller)
      borrows := Function.update s.borrows caller (s.borrows caller + 1)
      nextReply := s.nextReply + 1 }
  | _ =>
    { s with
      -- A closed channel is reported at once, and nothing is borrowed.
      calls := Function.update s.calls s.nextReply (.returned (.error .channelSendError))
      nextReply := s.nextReply + 1 }

/-- The handle a successful subscription returns. -/
def newHandle (s : BusSystem build τ) (handle : SubHandle) : BusSystem build τ :=
  { s with
    handles := Function.update s.handles s.nextHandle (some handle)
    nextHandle := s.nextHandle + 1 }

/-- A call ends, giving back the handle it borrowed. -/
def finish (s : BusSystem build τ) (reply : ReplyId) (caller : Caller) (state : CallState τ) :
    BusSystem build τ :=
  { s with
    calls := Function.update s.calls reply state
    borrows := Function.update s.borrows caller (s.borrows caller - 1) }

/-- A caller takes the reply it waits for; only a granted id makes a new handle. -/
def receive (s : BusSystem build τ) (reply : ReplyId) : Option (BusSystem build τ) :=
  match s.calls reply with
  | .replied caller result =>
    let s := s.finish reply caller (.returned result)
    match result with
    -- The call was a subscription, and its id becomes a handle.
    | .ok (.subId id) => some (s.newHandle ⟨id, reply⟩)
    | _ => some s
  | _ => none

/-- A caller drops its future before the call has ended. -/
def abandon (s : BusSystem build τ) (reply : ReplyId) : Option (BusSystem build τ) :=
  match s.calls reply with
  -- The request stays in the channel, and its reply will find nobody.
  | .waiting caller => some (s.finish reply caller .abandoned)
  | .replied caller _ => some (s.finish reply caller .abandoned)
  | _ => none

/-- `Drop for SubHandle`: the id is unsubscribed unless it is the null id. -/
def dropSub (s : BusSystem build τ) (handle : HandleId) : Option (BusSystem build τ) :=
  match s.handles handle with
  | none => none
  | some sub =>
    -- A handle that an unfinished call borrows cannot be dropped.
    if s.borrows (.subHandle handle) = 0 then
      let s := { s with handles := Function.update s.handles handle none }
      if sub.id ≠ nullSubId then some (s.send (.unsubscribe sub.id) (some sub.subscription))
      else some s
    else none

/-- The reply reaches its caller unless the caller has given up. -/
def deliver (s : BusSystem build τ) (reply : Option (ReplyId × BusResult (Reply τ))) :
    BusSystem build τ :=
  match reply with
  | none => s
  | some (reply, result) =>
    match s.calls reply with
    | .waiting caller =>
      { s with calls := Function.update s.calls reply (.replied caller result) }
    | _ => s

/-- The subscription that holds each id after a reply is sent. -/
def grant (owner : SubId → Option ReplyId) :
    Option (ReplyId × BusResult (Reply τ)) → SubId → Option ReplyId
  | some (reply, .ok (.subId id)) => Function.update owner id (some reply)
  | _ => owner

/-- The actor takes the oldest message, applies it and replies. -/
def serve (s : BusSystem build τ) (next : Option SubId) : Option (BusSystem build τ) :=
  match s.requests.tryRecv with
  | none => none
  | some (request, requests) =>
    let (bus, reply) := s.bus.process request.message next
    some ({ s with
      bus := bus
      requests := requests
      owner := grant s.owner reply }.deliver reply)

/-- No handle with a sender of the request channel is left. -/
def Unreferenced (s : BusSystem build τ) : Prop :=
  s.busHandles = 0 ∧ s.pubHandles = 0 ∧ ∀ handle < s.nextHandle, s.handles handle = none

instance (s : BusSystem build τ) : Decidable s.Unreferenced :=
  inferInstanceAs (Decidable (_ ∧ _ ∧ _))

/-- What each action does, where it is possible. -/
def next (s : BusSystem build τ) : ClientAction τ → Option (BusSystem build τ)
  | .getSubscriber => if 0 < s.busHandles then some (s.call .busHandle .subscribe none) else none
  | .subscribe handle =>
    (s.handles handle).map fun _ => s.call (.subHandle handle) .subscribe none
  | .unsubscribe handle id =>
    (s.handles handle).map fun sub => s.send (.unsubscribe id) (some sub.subscription)
  | .poll handle =>
    (s.handles handle).map fun sub =>
      s.call (.subHandle handle) (.poll sub.id) (some sub.subscription)
  | .batchPoll handle =>
    (s.handles handle).map fun sub =>
      s.call (.subHandle handle) (.batchPoll sub.id) (some sub.subscription)
  | .publishEvent event =>
    if 0 < s.pubHandles then some (s.call .pubHandle (.pushEvent event) none) else none
  | .cleanup =>
    if enabled : build = .delayDelete then
      if 0 < s.busHandles then some (s.send (.cleanUpBgTask enabled) none) else none
    else none
  | .receive reply => s.receive reply
  | .abandon reply => s.abandon reply
  | .cloneSub handle => (s.handles handle).map s.newHandle
  | .dropSub handle => s.dropSub handle
  | .cloneBus =>
    if 0 < s.busHandles then some { s with busHandles := s.busHandles + 1 } else none
  | .dropBus =>
    -- The handle that an unfinished call borrows is not the one that is dropped.
    if 0 < s.busHandles ∧ (s.borrows .busHandle = 0 ∨ 1 < s.busHandles) then
      some { s with busHandles := s.busHandles - 1 }
    else none
  | .getPublisher =>
    if 0 < s.busHandles then some { s with pubHandles := s.pubHandles + 1 } else none
  | .clonePub =>
    if 0 < s.pubHandles then some { s with pubHandles := s.pubHandles + 1 } else none
  | .dropPub =>
    if 0 < s.pubHandles ∧ (s.borrows .pubHandle = 0 ∨ 1 < s.pubHandles) then
      some { s with pubHandles := s.pubHandles - 1 }
    else none
  | .serve next => if s.requests.connected then s.serve next else none
  | .stop =>
    -- Receiving fails only when the channel is empty and every sender is gone.
    if s.requests.connected ∧ s.requests.queue.isEmpty ∧ s.Unreferenced then
      some { s with requests := s.requests.disconnect }
    else none

end BusSystem

/-- One step of the system, where the actor sees a free id that iteration can yield first. -/
structure SystemStep {build : Build} {τ : Type*} (s : BusSystem build τ) (act : ClientAction τ)
    (t : BusSystem build τ) : Prop where
  picked : ∀ next request rest reply, act = .serve next → s.requests.queue = request :: rest →
    request.message = .subscribe reply → IterNext s.bus.ids next
  taken : s.next act = some t

/-- The ids that a message is about. -/
def EventBusMessage.Names {build : Build} {τ : Type*} (id : SubId) :
    EventBusMessage build τ → Prop
  | .unsubscribe named => named = id
  | .poll named _ => named = id
  | .batchPoll named _ => named = id
  | _ => False

instance {build : Build} {τ : Type*} (id : SubId) (message : EventBusMessage build τ) :
    Decidable (message.Names id) := by
  cases message <;> unfold EventBusMessage.Names <;> infer_instance

/-- The reply channel that a message carries. -/
def EventBusMessage.replyTo {build : Build} {τ : Type*} :
    EventBusMessage build τ → Option ReplyId
  | .subscribe reply => some reply
  | .pushEvent _ reply => some reply
  | .poll _ reply => some reply
  | .batchPoll _ reply => some reply
  | .unsubscribe _ => none
  | .cleanUpBgTask _ => none

namespace BusSystem

variable {build : Build} {τ : Type*}

/-- A message is queued at the end, or nothing happens when the actor is gone. -/
theorem send_cases (s : BusSystem build τ) (message : EventBusMessage build τ)
    (subscription : Option ReplyId) :
    s.send message subscription = s ∨ s.send message subscription = { s with
      requests := { s.requests with queue := s.requests.queue ++ [⟨message, subscription⟩] } } := by
  -- The outcome of the send says which of the two it is.
  unfold send
  split
  · rename_i requests sent
    exact .inr (by rw [(Channel.send_eq_sent_iff.mp sent).2.2])
  · exact .inl rfl

/-- Sending a message only ever changes the request channel. -/
@[simp] theorem send_rest (s : BusSystem build τ) (message : EventBusMessage build τ)
    (subscription : Option ReplyId) :
    (s.send message subscription).bus = s.bus ∧ (s.send message subscription).calls = s.calls ∧
      (s.send message subscription).handles = s.handles ∧
      (s.send message subscription).owner = s.owner ∧
      (s.send message subscription).nextReply = s.nextReply := by
  -- Both outcomes of a send leave everything but the channel as it is.
  rcases s.send_cases message subscription with same | queued
  · rw [same]; exact ⟨rfl, rfl, rfl, rfl, rfl⟩
  · rw [queued]; exact ⟨rfl, rfl, rfl, rfl, rfl⟩

/-- A call waits behind a queued message, or has already failed. -/
theorem call_cases (s : BusSystem build τ) (caller : Caller)
    (message : ReplyId → EventBusMessage build τ) (subscription : Option ReplyId) :
    (∃ borrows, s.call caller message subscription = { s with
      requests := { s.requests with
        queue := s.requests.queue ++ [⟨message s.nextReply, subscription⟩] }
      calls := Function.update s.calls s.nextReply (.waiting caller)
      borrows := borrows
      nextReply := s.nextReply + 1 }) ∨
    s.call caller message subscription = { s with
      calls := Function.update s.calls s.nextReply (.returned (.error .channelSendError))
      nextReply := s.nextReply + 1 } := by
  -- The request channel decides between the two outcomes.
  unfold call
  split
  · rename_i requests sent
    exact .inl ⟨_, by rw [(Channel.send_eq_sent_iff.mp sent).2.2]⟩
  · exact .inr rfl

/-- Replying only ever changes the state of the call that waits for the reply. -/
theorem deliver_cases (s : BusSystem build τ) (reply : Option (ReplyId × BusResult (Reply τ))) :
    s.deliver reply = s ∨ ∃ id caller result, reply = some (id, result) ∧
      s.calls id = .waiting caller ∧ s.deliver reply =
        { s with calls := Function.update s.calls id (.replied caller result) } := by
  -- A reply counts only if its caller is still waiting for it.
  unfold deliver
  split
  · exact .inl rfl
  · rename_i id result
    split
    · rename_i caller waiting
      exact .inr ⟨id, caller, result, rfl, waiting, rfl⟩
    · exact .inl rfl

/-- A handle of the kind, or the very handle, is still there. -/
def Alive (s : BusSystem build τ) : Caller → Prop
  | .busHandle => 0 < s.busHandles
  | .pubHandle => 0 < s.pubHandles
  | .subHandle handle => s.handles handle ≠ none

/-- What a step does, and on what it depends: a live handle, an open call, or the actor. -/
inductive Move (s : BusSystem build τ) : ClientAction τ → BusSystem build τ → Prop
  -- A call through a handle names the id of that handle only.
  | called {act : ClientAction τ} {caller : Caller} {message : ReplyId → EventBusMessage build τ}
      {subscription : Option ReplyId} (client : ∀ next, act ≠ .serve next)
      (alive : s.Alive caller) (asks : ∀ reply, (message reply).replyTo = some reply)
      (owned : ∀ reply id, (message reply).Names id → ∃ handle sub,
        s.handles handle = some sub ∧ sub.id = id ∧ subscription = some sub.subscription) :
      Move s act (s.call caller message subscription)
  | unsubscribed {handle : HandleId} {id : SubId} {sub : SubHandle}
      (held : s.handles handle = some sub) :
      Move s (.unsubscribe handle id) (s.send (.unsubscribe id) (some sub.subscription))
  | cleaned {enabled : build = .delayDelete} (there : 0 < s.busHandles) :
      Move s .cleanup (s.send (.cleanUpBgTask enabled) none)
  | counted {act : ClientAction τ} {caller : Caller} {busHandles pubHandles : Nat}
      (client : ∀ next, act ≠ .serve next) (alive : s.Alive caller)
      (buses : 0 < s.borrows .busHandle → 0 < s.busHandles → 0 < busHandles)
      (pubs : 0 < s.borrows .pubHandle → 0 < s.pubHandles → 0 < pubHandles) :
      Move s act { s with busHandles := busHandles, pubHandles := pubHandles }
  | received {reply : ReplyId} {caller : Caller} {result : BusResult (Reply τ)}
      (found : s.calls reply = .replied caller result) (plain : ∀ id, result ≠ .ok (.subId id)) :
      Move s (.receive reply) (s.finish reply caller (.returned result))
  | granted {reply : ReplyId} {caller : Caller} {id : SubId}
      (found : s.calls reply = .replied caller (.ok (.subId id))) :
      Move s (.receive reply)
        ((s.finish reply caller (.returned (.ok (.subId id)))).newHandle ⟨id, reply⟩)
  | abandoned {reply : ReplyId} {caller : Caller}
      (found : s.calls reply = .waiting caller ∨ ∃ result, s.calls reply = .replied caller result) :
      Move s (.abandon reply) (s.finish reply caller .abandoned)
  | cloned {handle : HandleId} {sub : SubHandle} (held : s.handles handle = some sub) :
      Move s (.cloneSub handle) (s.newHandle sub)
  | dropped {handle : HandleId} {sub : SubHandle} (held : s.handles handle = some sub)
      (unborrowed : s.borrows (.subHandle handle) = 0) (null : sub.id = nullSubId) :
      Move s (.dropSub handle) { s with handles := Function.update s.handles handle none }
  | announced {handle : HandleId} {sub : SubHandle} (held : s.handles handle = some sub)
      (unborrowed : s.borrows (.subHandle handle) = 0) (proper : sub.id ≠ nullSubId) :
      Move s (.dropSub handle) ({ s with handles := Function.update s.handles handle none }.send
        (.unsubscribe sub.id) (some sub.subscription))
  | served {next : Option SubId} {request : Request build τ} {rest : List (Request build τ)}
      {answer : Option (ReplyId × BusResult (Reply τ))} {bus : EventBus τ}
      (connected : s.requests.connected = true) (front : s.requests.queue = request :: rest)
      (turn : BusStep s.bus ⟨request.message, next, answer⟩ bus) :
      Move s (.serve next)
        ({ s with
          bus := bus
          requests := { s.requests with queue := rest }
          owner := grant s.owner answer }.deliver answer)
  | stopped (connected : s.requests.connected = true) (empty : s.requests.queue = [])
      (unreferenced : s.Unreferenced) : Move s .stop { s with requests := s.requests.disconnect }

/-- What each kind of step does to the system, one constructor for each shape of update. -/
inductive Effect (s : BusSystem build τ) : ClientAction τ → BusSystem build τ → Prop
  -- A call through a handle names the id of that handle only, and never unsubscribes.
  | called {act : ClientAction τ} {caller : Caller}
      {message : ReplyId → EventBusMessage build τ} {subscription : Option ReplyId}
      (client : ∀ next, act ≠ .serve next)
      (owned : ∀ reply id, (message reply).Names id → ∃ handle sub,
        s.handles handle = some sub ∧ sub.id = id ∧ subscription = some sub.subscription)
      (polite : ∀ reply id, message reply ≠ .unsubscribe id) :
      Effect s act (s.call caller message subscription)
  | unsubscribed {handle : HandleId} {id : SubId} {sub : SubHandle}
      (held : s.handles handle = some sub) :
      Effect s (.unsubscribe handle id) (s.send (.unsubscribe id) (some sub.subscription))
  | cleaned {enabled : build = .delayDelete} :
      Effect s .cleanup (s.send (.cleanUpBgTask enabled) none)
  | counted {act : ClientAction τ} {busHandles pubHandles : Nat}
      (client : ∀ next, act ≠ .serve next) :
      Effect s act { s with busHandles := busHandles, pubHandles := pubHandles }
  | received {reply : ReplyId} {caller : Caller} {result : BusResult (Reply τ)}
      (found : s.calls reply = .replied caller result)
      (plain : ∀ id, result ≠ .ok (.subId id)) :
      Effect s (.receive reply) (s.finish reply caller (.returned result))
  | granted {reply : ReplyId} {caller : Caller} {id : SubId}
      (found : s.calls reply = .replied caller (.ok (.subId id))) :
      Effect s (.receive reply)
        ((s.finish reply caller (.returned (.ok (.subId id)))).newHandle ⟨id, reply⟩)
  | abandoned {reply : ReplyId} {caller : Caller}
      (found : s.calls reply = .waiting caller ∨ ∃ result, s.calls reply = .replied caller result) :
      Effect s (.abandon reply) (s.finish reply caller .abandoned)
  | cloned {handle : HandleId} {sub : SubHandle} (held : s.handles handle = some sub) :
      Effect s (.cloneSub handle) (s.newHandle sub)
  | dropped {handle : HandleId} {sub : SubHandle} {t : BusSystem build τ}
      (held : s.handles handle = some sub)
      (result : t = { s with handles := Function.update s.handles handle none } ∨
        t = { s with handles := Function.update s.handles handle none }.send
          (.unsubscribe sub.id) (some sub.subscription)) :
      Effect s (.dropSub handle) t
  | served {next : Option SubId} {request : Request build τ} {rest : List (Request build τ)}
      {reply : Option (ReplyId × BusResult (Reply τ))} {bus : EventBus τ}
      (front : s.requests.queue = request :: rest)
      (step : BusStep s.bus ⟨request.message, next, reply⟩ bus) :
      Effect s (.serve next)
        ({ s with
          bus := bus
          requests := { s.requests with queue := rest }
          owner := grant s.owner reply }.deliver reply)
  | stopped : Effect s .stop { s with requests := s.requests.disconnect }

end BusSystem

section Steps

variable {build : Build} {τ : Type*} {s t : BusSystem build τ} {act : ClientAction τ}

open BusSystem

/-- A held handle is alive. -/
theorem BusSystem.alive_of_held {handle : HandleId} {sub : SubHandle}
    (held : s.handles handle = some sub) : s.Alive (.subHandle handle) := by
  simp [Alive, held]

/-- A bus handle that is there is alive. -/
theorem BusSystem.alive_of_bus (there : 0 < s.busHandles) : s.Alive .busHandle := there

/-- A publisher that is there is alive. -/
theorem BusSystem.alive_of_pub (there : 0 < s.pubHandles) : s.Alive .pubHandle := there

/-- Every step is one of the listed moves. -/
theorem BusSystem.step_move (step : SystemStep s act t) : s.Move act t := by
  -- One case per method, whose own test says which handle is alive.
  obtain ⟨picked, taken⟩ := step
  cases act with
  | getSubscriber =>
    obtain ⟨there, rfl⟩ := enabled_iff.mp taken
    exact .called (by simp) (alive_of_bus there) (fun _ => rfl) fun _ _ named => named.elim
  | subscribe handle =>
    obtain ⟨sub, held, rfl⟩ := Option.map_eq_some_iff.mp taken
    exact .called (by simp) (alive_of_held held) (fun _ => rfl) fun _ _ named => named.elim
  | unsubscribe handle id =>
    obtain ⟨sub, held, rfl⟩ := Option.map_eq_some_iff.mp taken
    exact .unsubscribed held
  | poll handle =>
    obtain ⟨sub, held, rfl⟩ := Option.map_eq_some_iff.mp taken
    exact .called (by simp) (alive_of_held held) (fun _ => rfl)
      fun _ _ named => ⟨handle, sub, held, named, rfl⟩
  | batchPoll handle =>
    obtain ⟨sub, held, rfl⟩ := Option.map_eq_some_iff.mp taken
    exact .called (by simp) (alive_of_held held) (fun _ => rfl)
      fun _ _ named => ⟨handle, sub, held, named, rfl⟩
  | publishEvent event =>
    obtain ⟨there, rfl⟩ := enabled_iff.mp taken
    exact .called (by simp) (alive_of_pub there) (fun _ => rfl) fun _ _ named => named.elim
  | cleanup =>
    simp only [BusSystem.next] at taken
    split at taken
    · obtain ⟨there, rfl⟩ := enabled_iff.mp taken
      exact .cleaned there
    · simp at taken
  | receive reply =>
    simp only [BusSystem.next, BusSystem.receive] at taken
    split at taken
    · rename_i caller result found
      split at taken
      · obtain rfl := Option.some.inj taken
        exact .granted found
      · rename_i other
        obtain rfl := Option.some.inj taken
        exact .received found fun id => other id
    · simp at taken
  | abandon reply =>
    simp only [BusSystem.next, BusSystem.abandon] at taken
    split at taken
    · rename_i caller found
      obtain rfl := Option.some.inj taken
      exact .abandoned (.inl found)
    · rename_i caller result found
      obtain rfl := Option.some.inj taken
      exact .abandoned (.inr ⟨result, found⟩)
    · simp at taken
  | cloneSub handle =>
    obtain ⟨sub, held, rfl⟩ := Option.map_eq_some_iff.mp taken
    exact .cloned held
  | dropSub handle =>
    simp only [BusSystem.next, BusSystem.dropSub] at taken
    split at taken
    · simp at taken
    · rename_i sub held
      obtain ⟨unborrowed, dropped⟩ := Option.ite_none_right_eq_some.mp taken
      split at dropped
      · rename_i proper
        obtain rfl := Option.some.inj dropped
        exact .announced held unborrowed proper
      · rename_i null
        obtain rfl := Option.some.inj dropped
        exact .dropped held unborrowed (not_not.mp null)
  | cloneBus =>
    obtain ⟨there, rfl⟩ := enabled_iff.mp taken
    exact .counted (by simp) (alive_of_bus there) (fun _ _ => Nat.succ_pos _) fun _ still => still
  | dropBus =>
    obtain ⟨⟨there, spare⟩, rfl⟩ := enabled_iff.mp taken
    refine .counted (by simp) (alive_of_bus there) (fun borrowed _ => ?_) fun _ still => still
    omega
  | getPublisher =>
    obtain ⟨there, rfl⟩ := enabled_iff.mp taken
    exact .counted (by simp) (alive_of_bus there) (fun _ still => still) fun _ _ => Nat.succ_pos _
  | clonePub =>
    obtain ⟨there, rfl⟩ := enabled_iff.mp taken
    exact .counted (by simp) (alive_of_pub there) (fun _ still => still) fun _ _ => Nat.succ_pos _
  | dropPub =>
    obtain ⟨⟨there, spare⟩, rfl⟩ := enabled_iff.mp taken
    refine .counted (by simp) (alive_of_pub there) (fun _ still => still) fun borrowed _ => ?_
    omega
  | serve next =>
    obtain ⟨connected, served⟩ := Option.ite_none_right_eq_some.mp taken
    unfold BusSystem.serve at served
    split at served
    · simp at served
    · rename_i request requests received
      obtain ⟨front, rest⟩ := Channel.tryRecv_eq_some_iff.mp received
      obtain rfl := Option.some.inj served
      rw [rest]
      refine .served connected front ⟨fun reply subscribing => ?_, rfl⟩
      exact picked next request requests.queue reply rfl front subscribing
  | stop =>
    obtain ⟨⟨connected, empty, unreferenced⟩, rfl⟩ := enabled_iff.mp taken
    exact .stopped connected (List.isEmpty_iff.mp empty) unreferenced

/-- Every step of the system has one of the listed effects. -/
theorem SystemStep.effect (step : SystemStep s act t) : s.Effect act t := by
  -- An effect is a move without the tests that made it possible.
  cases step_move step with
  | called client _ asks owned =>
    refine .called client owned fun reply id same => ?_
    have carries := asks reply
    rw [same] at carries
    simp [EventBusMessage.replyTo] at carries
  | unsubscribed held => exact .unsubscribed held
  | cleaned => exact .cleaned
  | counted client => exact .counted client
  | received found plain => exact .received found plain
  | granted found => exact .granted found
  | abandoned found => exact .abandoned found
  | cloned held => exact .cloned held
  | dropped held => exact .dropped held (.inl rfl)
  | announced held => exact .dropped held (.inr rfl)
  | served _ front turn => exact .served front turn
  | stopped => exact .stopped

end Steps

namespace BusSystem

variable {build : Build} {τ : Type*}

/-- A test that suffices for the chosen free id to be one that iteration can yield first. -/
def mayPick (s : BusSystem build τ) : ClientAction τ → Bool
  | .serve (some id) => s.bus.ids id
  | .serve none =>
    match s.requests.queue with
    | ⟨.subscribe _, _⟩ :: _ => false
    | _ => true
  | _ => true

/-- The system run with that test and with a test on the clients' behaviour. -/
def nextIf (cond : BusSystem build τ → ClientAction τ → Prop) [∀ s act, Decidable (cond s act)]
    (s : BusSystem build τ) (act : ClientAction τ) : Option (BusSystem build τ) :=
  if cond s act ∧ s.mayPick act then s.next act else none

/-- Whatever passes the tests is a step of the system that meets the condition. -/
theorem step_of_nextIf {cond : BusSystem build τ → ClientAction τ → Prop}
    [∀ s act, Decidable (cond s act)] (s : BusSystem build τ) (act : ClientAction τ)
    (t : BusSystem build τ) (taken : Steps (nextIf cond) s act t) :
    Guarded cond SystemStep s act t := by
  -- Only a subscription at the front of the channel looks at the free ids.
  obtain ⟨⟨meets, picks⟩, step⟩ := Option.ite_none_right_eq_some.mp taken
  refine ⟨meets, ?_, step⟩
  intro next request rest reply serving front subscribing
  subst serving
  cases next with
  | some id => exact picks
  | none =>
    obtain ⟨message, subscription⟩ := request
    obtain rfl : message = .subscribe reply := subscribing
    simp [mayPick, front] at picks

end BusSystem

end Imputio
