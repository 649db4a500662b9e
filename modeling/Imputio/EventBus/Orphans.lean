import Imputio.EventBus.Ids
import Imputio.EventBus.Protocol

/-! Queues that nobody would ever remove, in the build without deferred deletion. -/

namespace Imputio

open Transition Allocator

variable {build : Build} {τ : Type*}

namespace BusSystem

/-- Nobody gives up on a subscription before its reply is received. -/
def ReceivesSubscriptions (s : BusSystem build τ) : ClientAction τ → Prop
  | .abandon reply =>
    (∀ request ∈ s.requests.queue, request.message ≠ .subscribe reply) ∧
      ∀ caller id, s.calls reply ≠ .replied caller (.ok (.subId id))
  | _ => True

/-- An id is carried by a live handle, by a reply not yet received, or by a queued end. -/
def Attended (s : BusSystem build τ) (id : SubId) : Prop :=
  (∃ handle sub, s.handles handle = some sub ∧ sub.id = id) ∨
  (∃ reply caller, s.calls reply = .replied caller (.ok (.subId id))) ∨
  ∃ request ∈ s.requests.queue, request.message = .unsubscribe id

/-- Every queue is attended to, and every subscription that is asked for is still awaited. -/
structure Unorphaned (s : BusSystem build τ) : Prop where
  protocol : s.Protocol
  parts : Partition EventBus.allIds s.bus.freeIds s.bus.liveIds
  awaited : ∀ request ∈ s.requests.queue, ∀ reply, request.message = .subscribe reply →
    s.calls reply ≠ .abandoned
  attended : ∀ id, s.bus.Live id → s.Attended id

variable {s t : BusSystem build τ} {act : ClientAction τ} {id : SubId} {reply : ReplyId}

/-- Attention is traced through changes of the handles, of the calls and of the channel. -/
theorem Attended.trace (attended : s.Attended id)
    (handles : ∀ handle sub, s.handles handle = some sub → sub.id = id → t.Attended id)
    (replies : ∀ reply caller, s.calls reply = .replied caller (.ok (.subId id)) → t.Attended id)
    (queue : ∀ request ∈ s.requests.queue, request.message = .unsubscribe id → t.Attended id) :
    t.Attended id := by
  -- There are three ways to be attended to, and a hypothesis for each.
  rcases attended with ⟨handle, sub, held, named⟩ | ⟨reply, caller, granted⟩ |
    ⟨request, there, ends⟩
  · exact handles handle sub held named
  · exact replies reply caller granted
  · exact queue request there ends

/-- A new handle takes no attention away. -/
theorem Attended.newHandle (attended : s.Attended id) (protocol : s.Protocol) (sub : SubHandle) :
    (s.newHandle sub).Attended id := by
  -- Calls and requests are as they were, so only the handles are looked at.
  refine attended.trace ?_ (fun reply caller granted => .inr (.inl ⟨reply, caller, granted⟩))
    fun request there ends => .inr (.inr ⟨request, there, ends⟩)
  intro handle found held named
  -- The number of the new handle was not in use.
  have apart : handle ≠ s.nextHandle := by
    rintro rfl
    simp [protocol.unmade] at held
  exact .inl ⟨handle, found, by simpa [BusSystem.newHandle, apart] using held, named⟩

/-- The end of a call takes no attention away unless the call had been granted the id. -/
theorem Attended.finish (attended : s.Attended id) {caller : Caller} {state : CallState τ}
    (plain : ∀ caller, s.calls reply ≠ .replied caller (.ok (.subId id))) :
    (s.finish reply caller state).Attended id := by
  -- Handles and requests are as they were, so only the calls are looked at.
  refine attended.trace (fun handle sub held named => .inl ⟨handle, sub, held, named⟩) ?_
    fun request there ends => .inr (.inr ⟨request, there, ends⟩)
  -- A grant that waits in another call waits there still.
  intro other caller granted
  have apart : other ≠ reply := by
    rintro rfl
    exact plain caller granted
  exact .inr (.inl ⟨other, caller, by simpa [BusSystem.finish, apart] using granted⟩)

/-- Sending takes no attention away. -/
theorem Attended.send (attended : s.Attended id) (message : EventBusMessage build τ)
    (subscription : Option ReplyId) : (s.send message subscription).Attended id := by
  -- A message goes to the end of the queue, if it is sent at all.
  rcases s.send_cases message subscription with same | queued
  · rw [same]
    exact attended
  · rw [queued]
    exact attended.trace (fun handle sub held named => .inl ⟨handle, sub, held, named⟩)
      (fun reply caller granted => .inr (.inl ⟨reply, caller, granted⟩))
      fun request there ends => .inr (.inr ⟨request, List.mem_append_left _ there, ends⟩)

/-- A call takes no attention away. -/
theorem Attended.call (attended : s.Attended id) (protocol : s.Protocol) (caller : Caller)
    (message : ReplyId → EventBusMessage build τ) (subscription : Option ReplyId) :
    (s.call caller message subscription).Attended id := by
  -- A reply that was received belongs to an older call than the one that is made.
  have older : ∀ {state : CallState τ} other who, s.calls other = .replied who (.ok (.subId id)) →
      Function.update s.calls s.nextReply state other = .replied who (.ok (.subId id)) := by
    intro state other who granted
    have made : other < s.nextReply := protocol.made (by simp [granted])
    simpa [Nat.ne_of_lt made] using granted
  rcases s.call_cases caller message subscription with ⟨borrows, queued⟩ | failed
  · rw [queued]
    exact attended.trace (fun handle sub held named => .inl ⟨handle, sub, held, named⟩)
      (fun reply who granted => .inr (.inl ⟨reply, who, older reply who granted⟩))
      fun request there ends => .inr (.inr ⟨request, List.mem_append_left _ there, ends⟩)
  · rw [failed]
    exact attended.trace (fun handle sub held named => .inl ⟨handle, sub, held, named⟩)
      (fun reply who granted => .inr (.inl ⟨reply, who, older reply who granted⟩))
      fun request there ends => .inr (.inr ⟨request, there, ends⟩)

/-- Whoever does not hold the dropped handle still attends to the id. -/
theorem Attended.removed {handle : HandleId} {sub : SubHandle} (attended : s.Attended id)
    (held : s.handles handle = some sub) (apart : sub.id ≠ id) :
    { s with handles := Function.update s.handles handle none }.Attended id := by
  -- Only the dropped handle is gone, and it is a handle of another id.
  refine attended.trace ?_ (fun reply caller granted => .inr (.inl ⟨reply, caller, granted⟩))
    fun request there ends => .inr (.inr ⟨request, there, ends⟩)
  intro other found there named
  have distinct : other ≠ handle := by
    rintro rfl
    obtain rfl : sub = found := Option.some.inj (held.symm.trans there)
    exact apart named
  exact .inl ⟨other, found, by simpa [distinct] using there, named⟩

/-- Dropping a handle leaves its queue to the message that the drop has sent. -/
theorem Attended.announced {handle : HandleId} {sub : SubHandle} (attended : s.Attended id)
    (protocol : s.Protocol) (held : s.handles handle = some sub) :
    ({ s with handles := Function.update s.handles handle none }.send (.unsubscribe sub.id)
      (some sub.subscription)).Attended id := by
  -- The drop of a handle of this id is what ends its queue, once it is served.
  by_cases same : sub.id = id
  · subst same
    rw [send_eq (by exact protocol.roomy) (by exact protocol.connected (alive_of_held held))]
    exact .inr (.inr ⟨_, List.mem_append_right _ (List.mem_singleton.mpr rfl), rfl⟩)
  · exact (attended.removed held same).send _ _

/-- A request is given up only by its caller. -/
theorem Effect.abandoned_before (effect : s.Effect act t)
    (gone : t.calls reply = .abandoned) : s.calls reply = .abandoned ∨ act = .abandon reply := by
  -- Every other change of a call is to another state.
  have updated : ∀ {calls : ReplyId → CallState τ} {other : ReplyId} {state : CallState τ},
      state ≠ .abandoned → Function.update calls other state reply = .abandoned →
      calls reply = .abandoned := by
    intro calls other state plain gone
    by_cases same : reply = other
    · subst same
      exact absurd (by simpa using gone) plain
    · simpa [same] using gone
  cases effect with
  | @called _ caller message subscription =>
    rcases s.call_cases caller message subscription with ⟨borrows, queued⟩ | failed
    · rw [queued] at gone
      exact .inl (updated (by simp) gone)
    · rw [failed] at gone
      exact .inl (updated (by simp) gone)
  | unsubscribed => exact .inl (by simpa using gone)
  | cleaned => exact .inl (by simpa using gone)
  | counted => exact .inl gone
  | received => exact .inl (updated (by simp) gone)
  | granted => exact .inl (updated (by simp) gone)
  | @abandoned other caller =>
    by_cases same : reply = other
    · exact .inr (by rw [same])
    · exact .inl (by simpa [finish, same] using gone)
  | cloned => exact .inl gone
  | dropped held result =>
    rcases result with rfl | rfl
    · exact .inl gone
    · exact .inl (by simpa using gone)
  | served =>
    rcases deliver_calls _ _ reply with same | ⟨caller, result, -, -, told⟩
    · rw [same] at gone
      exact .inl gone
    · simp [told] at gone
  | stopped => exact .inl gone

end BusSystem

namespace BusSystem

variable {s t : BusSystem .immediate τ} {act : ClientAction τ}

/-- Nothing is subscribed yet when the actor starts. -/
theorem newWithHandle_unorphaned : (newWithHandle : BusSystem .immediate τ).Unorphaned where
  protocol := newWithHandle_protocol
  parts := EventBus.new_partition
  awaited := by simp [newWithHandle, Channel.unbounded]
  attended := fun id live => absurd live (EventBus.not_live_iff.mpr rfl)

/-- Requests for subscriptions stay awaited. -/
theorem Unorphaned.awaits (kept : s.Unorphaned) (receives : s.ReceivesSubscriptions act)
    (step : SystemStep s act t) : ∀ request ∈ t.requests.queue, ∀ reply,
      request.message = .subscribe reply → t.calls reply ≠ .abandoned := by
  -- A client adds requests whose callers wait, and the actor takes one away.
  intro request there reply asks gone
  -- A request that was queued before was awaited, and giving it up is excluded.
  have old : request ∈ s.requests.queue → False := by
    intro before
    rcases step.effect.abandoned_before gone with already | rfl
    · exact kept.awaited request before reply asks already
    · exact receives.1 request before asks
  by_cases client : ∀ next, act ≠ .serve next
  · obtain ⟨posted, queue, waits⟩ := kept.protocol.posts step client
    rw [queue] at there
    rcases List.mem_append.mp there with before | new
    · exact old before
    · obtain ⟨-, caller, waiting⟩ := waits request new reply (by rw [asks]; rfl)
      simp [waiting] at gone
  · obtain ⟨next, rfl⟩ : ∃ next, act = .serve next := by simpa using client
    cases step.effect with
    | called client _ _ => exact absurd rfl (client _)
    | counted client => exact absurd rfl (client _)
    | served front _ =>
      rw [(deliver_rest _ _).2.2.2.1] at there
      exact old (front ▸ List.mem_cons_of_mem _ there)

/-- Serving a request keeps every queue attended to. -/
theorem Unorphaned.served (kept : s.Unorphaned) {request : Request .immediate τ}
    {rest : List (Request .immediate τ)} {next : Option SubId}
    {answer : Option (ReplyId × BusResult (Reply τ))} {bus : EventBus τ}
    (front : s.requests.queue = request :: rest)
    (turn : BusStep s.bus ⟨request.message, next, answer⟩ bus) (id : SubId) (live : bus.Live id) :
    ({ s with
      bus := bus
      requests := { s.requests with queue := rest }
      owner := grant s.owner answer }.deliver answer).Attended id := by
  -- Only a grant adds a queue, and only a processed end takes the attention of one away.
  set served : BusSystem .immediate τ := { s with
      bus := bus
      requests := { s.requests with queue := rest }
      owner := grant s.owner answer }
  obtain ⟨-, -, atHandles, atRequests, -⟩ := deliver_rest served answer
  -- A queue that is there now was there before, or its id has just been granted.
  rcases turn.live_before live with before | grants
  · refine (kept.attended id before).trace ?_ ?_ ?_
    · intro handle sub held named
      exact .inl ⟨handle, sub, by rw [atHandles]; exact held, named⟩
    · intro reply caller granted
      rcases served.deliver_calls answer reply with same | ⟨who, -, -, waits, -⟩
      · exact .inr (.inl ⟨reply, caller, same.trans granted⟩)
      · have waiting : s.calls reply = .waiting who := waits
        simp [granted] at waiting
    · -- An end that has just been processed has removed the queue.
      intro other there ends
      rw [front] at there
      rcases List.mem_cons.mp there with rfl | later
      · rw [ends] at turn
        cases turn.effect with
        | removed => exact absurd rfl (EventBus.unsubscribe_live.mp live).1
        | marked later => simp at later
      · exact .inr (.inr ⟨other, by rw [atRequests]; exact later, ends⟩)
  · -- The granted id is in the reply, and its caller has not given up.
    obtain ⟨reply, asks, -, sent, -⟩ := turn.picks grants
    have asked : request.message = .subscribe reply := asks
    have there : request ∈ s.requests.queue := by simp [front]
    have owed : reply ∈ s.queuedReplies :=
      List.mem_filterMap.mpr ⟨request, there, by rw [asked]; rfl⟩
    rcases kept.protocol.awaited reply owed with ⟨caller, waits⟩ | gone
    · have answered : answer = some (reply, .ok (.subId id)) := sent
      have waiting : served.calls reply = .waiting caller := waits
      exact .inr (.inl ⟨reply, caller, by simp [answered, deliver, waiting]⟩)
    · exact absurd gone (kept.awaited request there reply asked)

/-- Every step under the condition keeps every queue attended to. -/
theorem Unorphaned.step (kept : s.Unorphaned) (receives : s.ReceivesSubscriptions act)
    (step : SystemStep s act t) : t.Unorphaned := by
  -- The moves of the clients are gone through one by one, and then the one of the actor.
  have protocol := kept.protocol.step step
  have awaited := kept.awaits receives step
  by_cases client : ∀ next, act ≠ .serve next
  · -- A client changes no queue, so only those who attend to the queues have to be followed.
    have bus : t.bus = s.bus := (step.effect.client client).1
    refine ⟨protocol, bus ▸ kept.parts, awaited, fun id live => ?_⟩
    rw [bus] at live
    have attended := kept.attended id live
    cases step_move step with
    | called => exact attended.call kept.protocol _ _ _
    | unsubscribed => exact attended.send _ _
    | cleaned => exact attended.send _ _
    | counted =>
      exact attended.trace (fun handle sub held named => .inl ⟨handle, sub, held, named⟩)
        (fun reply caller granted => .inr (.inl ⟨reply, caller, granted⟩))
        fun request there ends => .inr (.inr ⟨request, there, ends⟩)
    | received found plain =>
      refine attended.finish fun caller granted => ?_
      rw [found] at granted
      injection granted with _ same
      exact plain id same
    | @granted reply caller granted found =>
      by_cases same : granted = id
      · -- The reply becomes a handle.
        subst same
        exact .inl ⟨s.nextHandle, ⟨granted, reply⟩, by simp [newHandle, finish], rfl⟩
      · have finished : (s.finish reply caller (.returned (.ok (.subId granted)))).Attended id := by
          refine attended.finish fun who other => ?_
          rw [found] at other
          simp [same] at other
        exact finished.newHandle (kept.protocol.received found) _
    | abandoned => exact attended.finish fun caller => receives.2 caller id
    | cloned => exact attended.newHandle kept.protocol _
    | dropped held _ null =>
      -- No subscription has the null id.
      refine attended.removed held fun same => ?_
      exact EventBus.ne_nullSubId (kept.parts.used_subset live) (same.symm.trans null)
    | announced held => exact attended.announced kept.protocol held
    | served => exact absurd rfl (client _)
    | stopped => exact attended
  · obtain ⟨next, rfl⟩ : ∃ next, act = .serve next := by simpa using client
    cases step_move step with
    | called client => exact absurd rfl (client _)
    | counted client => exact absurd rfl (client _)
    | served _ front turn =>
      refine ⟨protocol, ?_, awaited, fun id live => ?_⟩
      · rw [(deliver_rest _ _).1]
        exact turn.partition kept.parts
      · rw [(deliver_rest _ _).1] at live
        exact kept.served front turn id live

end BusSystem

open BusSystem

/--
No queue is orphaned, in every run in which nobody gives up on a subscription.

Each queue is left to a live handle, to a reply not yet received, or to a queued message that
ends it; without any of these there is no queue.
-/
theorem no_orphan_queues {acts : List (ClientAction τ)} {s : BusSystem .immediate τ}
    (run : Run (Guarded ReceivesSubscriptions SystemStep) newWithHandle acts s) :
    (∀ id, s.bus.Live id →
      (∃ handle sub, s.handles handle = some sub ∧ sub.id = id) ∨
      (∃ reply caller, s.calls reply = .replied caller (.ok (.subId id))) ∨
      ∃ request ∈ s.requests.queue, request.message = .unsubscribe id) ∧
    ((∀ handle, s.handles handle = none) →
      (∀ reply caller id, s.calls reply ≠ .replied caller (.ok (.subId id))) →
      s.requests.queue = [] → ∀ id, s.bus.eventQueues id = none) := by
  -- The condition is a guard of the run, under which the invariant is kept.
  have kept : s.Unorphaned := run.invariant newWithHandle_unorphaned
    fun _ _ _ before step => before.step step.1 step.2
  refine ⟨kept.attended, fun dropped received drained id => ?_⟩
  rw [← EventBus.not_live_iff]
  intro live
  rcases kept.attended id live with ⟨handle, sub, held, -⟩ | ⟨reply, caller, granted⟩ |
    ⟨request, there, -⟩
  · simp [dropped] at held
  · exact received reply caller id granted
  · simp [drained] at there

/-- A handle and its clone are dropped, and both messages are processed. -/
theorem no_orphan_queues_dropped :
    ∃ s : BusSystem .immediate Nat,
      Run (Guarded ReceivesSubscriptions SystemStep) newWithHandle
        [.getSubscriber, .serve (some 1), .receive 0, .cloneSub 0, .dropSub 0, .dropSub 1,
          .serve none, .serve none] s ∧ ∀ id, s.bus.eventQueues id = none := by
  -- The run ends with two ends of the same subscription, of which the second does nothing.
  have run : Run (Guarded ReceivesSubscriptions SystemStep)
      (newWithHandle : BusSystem .immediate Nat)
      [.getSubscriber, .serve (some 1), .receive 0, .cloneSub 0, .dropSub 0, .dropSub 1,
        .serve none, .serve none] _ :=
    .cons ⟨trivial, by simp, rfl⟩ <|
    .cons ⟨trivial, fun _ _ _ _ same _ _ => by cases same; rfl, rfl⟩ <|
    .cons ⟨trivial, by simp, rfl⟩ <| .cons ⟨trivial, by simp, rfl⟩ <|
    .cons ⟨trivial, by simp, rfl⟩ <| .cons ⟨trivial, by simp, rfl⟩ <|
    .cons ⟨trivial, fun _ _ _ _ _ front asked => by cases front; simp at asked, rfl⟩ <|
    .cons ⟨trivial, fun _ _ _ _ _ front asked => by cases front; simp at asked, rfl⟩ .nil
  refine ⟨_, run, (no_orphan_queues run).2 ?_ ?_ rfl⟩
  · -- Both handles were dropped, and no other was made.
    intro handle
    change Function.update (Function.update (Function.update (Function.update (fun _ => none) 0
      (some ⟨1, 0⟩)) 1 (some ⟨1, 0⟩)) 0 none) 1 none handle = (none : Option SubHandle)
    simp only [Function.update_apply]
    split_ifs <;> rfl
  · intro reply caller id granted
    change Function.update (Function.update (Function.update (fun _ => CallState.unused) 0
      (CallState.waiting .busHandle)) 0 (CallState.replied .busHandle (.ok (.subId 1)))) 0
      (CallState.returned (.ok (.subId 1))) reply = (_ : CallState Nat) at granted
    simp only [Function.update_apply] at granted
    split_ifs at granted

end Imputio
