import Imputio.EventBus.Holders

/-! Messages sent for one subscription and the queue of another that was granted the same id. -/

namespace Imputio

open Transition

variable {build : Build} {τ : Type*}

namespace BusSystem

/-- A client still carries an id for a subscription, in a holder or in an unprocessed message. -/
def Carries (s : BusSystem build τ) (id : SubId) (subscription : ReplyId) : Prop :=
  s.Holds id subscription ∨ ∃ request ∈ s.requests.queue,
    request.message.Names id ∧ request.subscription = some subscription

/-- Clients unsubscribe only the id of the handle they call the method on. -/
def OwnIds (s : BusSystem build τ) : ClientAction τ → Prop
  | .unsubscribe handle id => (s.handles handle).map SubHandle.id = some id
  | _ => True

instance (s : BusSystem build τ) (act : ClientAction τ) : Decidable (s.OwnIds act) := by
  cases act <;> unfold OwnIds <;> infer_instance

/-- The id that the actor grants next is not held any more by anyone who was granted it before. -/
def GrantsUnheld (s : BusSystem build τ) (act : ClientAction τ) : Prop :=
  ∀ id request rest reply, act = .serve (some id) → s.requests.queue = request :: rest →
    request.message = .subscribe reply → ∀ subscription, ¬ s.Carries id subscription

/--
The message processed next is aimed at the queue of the subscription it was sent for.

It may also be aimed at no queue at all, but never at the queue of another subscription.
-/
def Isolated (s : BusSystem build τ) : Prop :=
  ∀ request rest id subscription, s.requests.queue = request :: rest →
    request.message.Names id → request.subscription = some subscription →
    s.bus.Live id → s.owner id = some subscription

/-- Whoever holds an id with a queue holds it for the subscription that owns the queue. -/
def HeldByOwner (s : BusSystem build τ) : Prop :=
  ∀ id subscription, s.Carries id subscription → s.bus.Live id → s.owner id = some subscription

end BusSystem

namespace BusSystem

variable {s t : BusSystem build τ} {act : ClientAction τ} {id : SubId} {subscription : ReplyId}

/-- After a message is queued, its sender may be a new carrier of what it names. -/
theorem Carries.of_append {message : EventBusMessage build τ} {sender : Option ReplyId}
    (queue : t.requests.queue = s.requests.queue ++ [⟨message, sender⟩])
    (holds : ∀ id subscription, t.Holds id subscription → s.Holds id subscription)
    (own : ∀ id, message.Names id → ∃ granted, sender = some granted ∧ s.Holds id granted)
    (carries : t.Carries id subscription) : s.Carries id subscription := by
  -- A carrier after the step is an old one or the new message.
  rcases carries with held | ⟨request, queued, named, sent⟩
  · exact .inl (holds id subscription held)
  · rw [queue] at queued
    rcases List.mem_append.mp queued with old | new
    · exact .inr ⟨request, old, named, sent⟩
    · -- The new message names only what its sender holds already.
      obtain rfl := List.mem_singleton.mp new
      obtain ⟨granted, sender, held⟩ := own id named
      obtain rfl : granted = subscription := Option.some.inj (sender.symm.trans sent)
      exact .inl held

/-- Without a new message there is no new carrier. -/
theorem Carries.of_same (carries : t.Carries id subscription)
    (holds : ∀ id subscription, t.Holds id subscription → s.Holds id subscription)
    (queue : t.requests.queue = s.requests.queue) : s.Carries id subscription := by
  -- A carrier holds the id or is a message in the channel.
  rcases carries with held | queued
  · exact .inl (holds id subscription held)
  · exact .inr (queue ▸ queued)

/-- Whatever a client sends names an id that one of its handles already holds. -/
theorem Effect.carries (effect : s.Effect act t) (own : s.OwnIds act)
    (client : ∀ next, act ≠ .serve next) (carries : t.Carries id subscription) :
    s.Carries id subscription := by
  -- Every kind of message is traced to the handle it was sent through.
  obtain ⟨-, -, holds⟩ := effect.client client
  have sent : ∀ (u : BusSystem build τ) (message : EventBusMessage build τ)
      (sender : Option ReplyId), (u.send message sender).requests.queue = u.requests.queue ∨
        (u.send message sender).requests.queue = u.requests.queue ++ [⟨message, sender⟩] := by
    intro u message sender
    rcases u.send_cases message sender with same | queued
    · exact .inl (by rw [same])
    · exact .inr (by rw [queued])
  cases effect with
  | @called _ caller message sender _ owned _ =>
    rcases s.call_cases caller message sender with ⟨borrows, queued⟩ | failed
    · refine carries.of_append (by rw [queued]) holds fun id named => ?_
      obtain ⟨handle, sub, held, rfl, from_⟩ := owned _ id named
      exact ⟨_, from_, .of_handle held⟩
    · exact carries.of_same holds (by rw [failed])
  | @unsubscribed handle id' sub held =>
    rcases sent s (.unsubscribe id') (some sub.subscription) with same | queued
    · exact carries.of_same holds same
    · refine carries.of_append queued holds fun id named => ⟨_, rfl, ?_⟩
      obtain rfl : id' = id := named
      obtain rfl : sub.id = id' := by simpa [OwnIds, held] using own
      exact .of_handle held
  | @cleaned enabled =>
    rcases sent s (.cleanUpBgTask enabled) none with same | queued
    · exact carries.of_same holds same
    · exact carries.of_append queued holds fun id named => named.elim
  | @dropped handle sub t held result =>
    rcases result with rfl | rfl
    · exact carries.of_same holds rfl
    · -- The message that a drop sends names the id of the handle that is dropped.
      rcases sent { s with handles := Function.update s.handles handle none }
        (.unsubscribe sub.id) (some sub.subscription) with same | queued
      · exact carries.of_same holds same
      · refine carries.of_append queued holds fun id named => ⟨_, rfl, ?_⟩
        obtain rfl : sub.id = id := named
        exact .of_handle held
  | counted => exact carries.of_same holds rfl
  | received => exact carries.of_same holds rfl
  | granted => exact carries.of_same holds rfl
  | abandoned => exact carries.of_same holds rfl
  | cloned => exact carries.of_same holds rfl
  | served => exact absurd rfl (client _)
  | stopped => exact carries.of_same holds rfl

/-- Processing a message makes a new carrier only of the id that the reply carries. -/
theorem Carries.of_served {request : Request build τ} {rest : List (Request build τ)}
    {reply : Option (ReplyId × BusResult (Reply τ))} {bus : EventBus τ}
    (front : s.requests.queue = request :: rest)
    (carries : ({ s with
      bus := bus
      requests := { s.requests with queue := rest }
      owner := grant s.owner reply }.deliver reply).Carries id subscription) :
    s.Carries id subscription ∨ reply = some (subscription, .ok (.subId id)) := by
  -- The processed message leaves the channel, so it carries nothing any more.
  rcases carries with held | ⟨other, queued, named, sent⟩
  · rcases held.of_deliver with old | new
    · exact .inl (.inl old)
    · exact .inr new
  · obtain ⟨-, -, -, requests, -⟩ := deliver_rest ({ s with
      bus := bus
      requests := { s.requests with queue := rest }
      owner := grant s.owner reply } : BusSystem build τ) reply
    rw [requests] at queued
    exact .inl (.inr ⟨other, front ▸ List.mem_cons_of_mem _ queued, named, sent⟩)

/-- Nobody carries any id before the first subscription. -/
theorem newWithHandle_carries : ¬ (newWithHandle : BusSystem build τ).Carries id subscription := by
  -- There is neither a handle nor a reply nor a message.
  rintro ((⟨_, held⟩ | ⟨_, granted⟩) | ⟨_, queued, _⟩)
  · simp [newWithHandle] at held
  · simp [newWithHandle] at granted
  · simp [newWithHandle, Channel.unbounded] at queued

/-- Every step under the condition keeps each id in the hands of the owner of its queue. -/
theorem HeldByOwner.step (held : s.HeldByOwner) (own : s.OwnIds act) (unheld : s.GrantsUnheld act)
    (step : SystemStep s act t) : t.HeldByOwner := by
  -- A client and the actor keep the property for different reasons.
  intro id subscription carries live
  have effect := step.effect
  by_cases client : ∀ next, act ≠ .serve next
  · -- A client moves ids around but neither grants nor removes one.
    obtain ⟨bus, owner, -⟩ := effect.client client
    rw [owner]
    exact held id subscription (effect.carries own client carries) (bus ▸ live)
  · obtain ⟨next, rfl⟩ : ∃ next, act = .serve next := by simpa using client
    cases effect with
    | called client _ _ => exact absurd rfl (client _)
    | counted client => exact absurd rfl (client _)
    | @served _ request rest reply bus front turn =>
      obtain ⟨atBus, atOwner, -⟩ := deliver_rest ({ s with
        bus := bus
        requests := { s.requests with queue := rest }
        owner := grant s.owner reply } : BusSystem build τ) reply
      rw [atBus] at live
      rw [atOwner]
      rcases grant_apply s.owner reply id with ⟨granted, sent, now⟩ | ⟨other, before⟩
      · -- Nobody held the granted id before, so its only holder is the new subscription.
        obtain ⟨asked, subscribing, picked, -, -, -⟩ := turn.picks ⟨granted, sent⟩
        obtain rfl : next = some id := picked
        have nobody := unheld id request rest asked rfl front subscribing
        rcases Carries.of_served front carries with old | new
        · exact absurd old (nobody subscription)
        · obtain rfl : granted = subscription := by
            have same := sent.symm.trans new
            simp only [Option.some.injEq, Prod.mk.injEq] at same
            exact same.1
          exact now
      · -- The id was in use before, by the same owner.
        rcases turn.live_before live with liveBefore | ⟨granted, sent⟩
        · rcases Carries.of_served front carries with old | new
          · exact before.trans (held id subscription old liveBefore)
          · exact absurd new (other subscription)
        · exact absurd sent (other granted)

end BusSystem

open BusSystem

/--
Messages of one subscription never reach the queue of another, in every run in which the actor
grants only ids that nobody holds any more.
-/
theorem subscription_isolation {acts : List (ClientAction τ)} {s : BusSystem .immediate τ}
    (run : Run (Guarded (fun s act => s.OwnIds act ∧ s.GrantsUnheld act) SystemStep)
      newWithHandle acts s) : s.Isolated := by
  -- The message at the front of the channel is itself one of the holders of the id it names.
  have held : s.HeldByOwner := run.invariant
    (fun id subscription carries _ => absurd carries newWithHandle_carries)
    fun _ _ _ before step => before.step step.1.1 step.1.2 step.2
  intro request rest id subscription front named sent live
  exact held id subscription (.inr ⟨request, front ▸ List.mem_cons_self, named, sent⟩) live

/-- A client unsubscribes, another is granted the same id, and then the first drops its handle. -/
def reusedId : List (ClientAction Nat) :=
  [.getSubscriber, .serve (some 1), .receive 0, .unsubscribe 0 1, .serve none,
    .getSubscriber, .serve (some 1), .receive 1, .dropSub 0]

/-- The second client's queue is live, and a message of the first client is about to remove it. -/
def staleMessage (s : BusSystem .immediate Nat) : Bool :=
  (s.handles 1 == some ⟨1, 1⟩ && s.bus.eventQueues 1 == some [] && s.owner 1 == some 1) &&
    (match s.requests.queue with
      | [⟨.unsubscribe 1, some 0⟩] => true
      | _ => false) &&
    (s.next (.serve none)).any fun t =>
      t.handles 1 == some ⟨1, 1⟩ && t.bus.eventQueues 1 == none

/-- Dropping an unsubscribed handle removes the queue of the next subscriber with the same id. -/
theorem stale_drop_silences_successor :
    ∃ s t : BusSystem .immediate Nat,
      Run (Guarded OwnIds SystemStep) newWithHandle reusedId s ∧ ¬ s.Isolated ∧
        SystemStep s (.serve none) t ∧ s.handles 1 = some ⟨1, 1⟩ ∧ s.bus.Live 1 ∧
        t.handles 1 = some ⟨1, 1⟩ ∧ ¬ t.bus.Live 1 := by
  -- The run is replayed, and its last state is tested.
  have replayed : (replay (nextIf OwnIds) newWithHandle reusedId).map staleMessage = some true := by
    decide
  obtain ⟨s, run, stale⟩ := Run.of_replay_test replayed
  simp only [staleMessage, Bool.and_eq_true, beq_iff_eq, Option.any_eq_true] at stale
  obtain ⟨⟨⟨⟨held, queue⟩, owner⟩, front⟩, t, taken, heldAfter, removed⟩ := stale
  split at front
  · rename_i queued
    refine ⟨s, t, run.mono step_of_nextIf, fun isolated => ?_, ⟨?_, taken⟩, held, ⟨[], queue⟩,
      heldAfter, by simp [EventBus.Live, removed]⟩
    · -- The message was sent for the first subscription, but the second one owns the queue.
      have same := isolated _ _ 1 0 queued rfl rfl ⟨[], queue⟩
      rw [owner] at same
      simp at same
    · intro next request rest reply serving at_ subscribing
      rw [queued] at at_
      obtain ⟨rfl, -⟩ := List.cons.inj at_
      simp at subscribing
  · simp at front

/-- A client drops its handle, and another is granted the same id afterwards and unsubscribes. -/
def reusedAfterDrop : List (ClientAction Nat) :=
  [.getSubscriber, .serve (some 1), .receive 0, .dropSub 0, .serve none,
    .getSubscriber, .serve (some 1), .receive 1, .unsubscribe 1 1]

/-- The second client alone holds the id, and the message that names it is the client's own. -/
theorem subscription_isolation_alone :
    ∃ s : BusSystem .immediate Nat,
      Run (Guarded (fun s act => s.OwnIds act ∧ s.GrantsUnheld act) SystemStep) newWithHandle
        reusedAfterDrop s ∧
      s.requests.queue = [⟨.unsubscribe 1, some 1⟩] ∧ s.bus.Live 1 ∧ s.owner 1 = some 1 ∧
      s.Isolated := by
  -- Only two steps grant an id.
  have quiet : ∀ {s t : BusSystem .immediate Nat} {act : ClientAction Nat},
      s.OwnIds act → (∀ id, act ≠ .serve (some id)) → SystemStep s act t →
      Guarded (fun s act => s.OwnIds act ∧ s.GrantsUnheld act) SystemStep s act t :=
    fun own silent step => ⟨⟨own, fun id _ _ _ serving => absurd serving (silent id)⟩, step⟩
  -- There is no handle before either of them, no reply that is not taken, and no message of one.
  have grants : ∀ {s t : BusSystem .immediate Nat}, (∀ handle, s.handles handle = none) →
      (∀ subscription caller result, s.calls subscription ≠ .replied caller result) →
      (∀ request ∈ s.requests.queue, request.subscription = none) →
      SystemStep s (.serve (some 1)) t → Guarded (fun s act => s.OwnIds act ∧ s.GrantsUnheld act)
        SystemStep s (.serve (some 1)) t := by
    intro s t dropped taken unnamed step
    refine ⟨⟨trivial, fun id _ _ _ _ _ _ subscription carries => ?_⟩, step⟩
    rcases carries with (⟨handle, held⟩ | ⟨caller, granted⟩) | ⟨request, queued, -, sent⟩
    · simp [dropped handle] at held
    · exact taken _ _ _ granted
    · simp [unnamed request queued] at sent
  have run : Run (Guarded (fun s act => s.OwnIds act ∧ s.GrantsUnheld act) SystemStep)
      (newWithHandle : BusSystem .immediate Nat) reusedAfterDrop _ :=
    .cons (quiet trivial (by simp) ⟨by simp, rfl⟩) <|
    .cons (grants (fun _ => rfl) (fun | 0, _, _ => nofun | _ + 1, _, _ => nofun)
      (fun | _, .head _ => rfl) ⟨fun _ _ _ _ same _ _ => by cases same; rfl, rfl⟩) <|
    .cons (quiet trivial (by simp) ⟨by simp, rfl⟩) <|
    .cons (quiet trivial (by simp) ⟨by simp, rfl⟩) <|
    .cons (quiet trivial (by simp) ⟨fun _ _ _ _ _ front asked => by
      cases front; simp at asked, rfl⟩) <|
    .cons (quiet trivial (by simp) ⟨by simp, rfl⟩) <|
    .cons (grants (fun | 0 => rfl | _ + 1 => rfl)
      (fun | 0, _, _ => nofun | 1, _, _ => nofun | _ + 2, _, _ => nofun)
      (fun | _, .head _ => rfl) ⟨fun _ _ _ _ same _ _ => by cases same; rfl, rfl⟩) <|
    .cons (quiet trivial (by simp) ⟨by simp, rfl⟩) <|
    .cons (quiet rfl (by simp) ⟨by simp, rfl⟩) .nil
  exact ⟨_, run, rfl, ⟨[], rfl⟩, rfl, subscription_isolation run⟩

end Imputio
