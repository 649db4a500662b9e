import Mathlib.Data.List.Perm.Basic
import Imputio.EventBus.Holders

/-! Subscriptions whose handles are cloned and dropped, and how long their queues live. -/

namespace Imputio

open Transition

variable {build : Build} {τ : Type*}

/-- The id whose end a message asks for. -/
def EventBusMessage.ended : EventBusMessage build τ → Option SubId
  | .unsubscribe id => some id
  | _ => none

/--
What a message does to the ids that are to end, one by one.

Each of them is either gone or still remembered afterwards, and nothing else loses its queue.
-/
theorem BusStep.ends {bus after : EventBus τ} {entry : Processed build τ}
    (step : BusStep bus entry after) :
    ∃ gone, (gone ++ after.recycle).Perm (entry.message.ended.toList ++ bus.recycle) ∧
      ∀ id, bus.Live id → id ∉ gone → after.Live id := by
  -- An end is carried out at once in one build and remembered until a cleanup in the other.
  cases step.effect with
  | granted => exact ⟨[], .refl _, fun id live _ => EventBus.subscribe_live.mpr (.inr live)⟩
  | exhausted => exact ⟨[], .refl _, fun _ live _ => live⟩
  | @removed removed next now =>
    -- Removing a queue does not touch what waits for a cleanup.
    have same : (bus.unsubscribe removed).recycle = bus.recycle := by
      unfold EventBus.unsubscribe
      split <;> rfl
    refine ⟨[removed], by rw [same]; exact .refl _, fun id live kept => ?_⟩
    exact EventBus.unsubscribe_live.mpr ⟨by simpa using kept, live⟩
  | @marked marked next later =>
    -- The id moves from the message to the end of the remembered ones.
    have moved : (bus.recycle ++ [marked]).Perm ([marked] ++ bus.recycle) := List.perm_append_comm
    exact ⟨[], moved, fun _ live _ => live⟩
  | pushed => exact ⟨[], .refl _, fun id live _ => EventBus.pushToEventQueues_live.mpr live⟩
  | @polled polled reply next =>
    refine ⟨[], by rw [(bus.poll_rest polled).2]; exact .refl _, fun id live _ => ?_⟩
    exact EventBus.poll_live.mpr live
  | @drained drained reply next =>
    refine ⟨[], by rw [(bus.batchPoll_rest drained).2]; exact .refl _, fun id live _ => ?_⟩
    exact EventBus.batchPoll_live.mpr live
  | cleaned =>
    refine ⟨bus.recycle, ?_, fun id live kept => EventBus.cleanup_live.mpr ⟨kept, live⟩⟩
    rw [(bus.cleanup_rest).2, List.append_nil]
    exact .refl _

namespace BusSystem

/-- Nobody calls `SubHandle::unsubscribe`. -/
def NeverUnsubscribes : ClientAction τ → Prop
  | .unsubscribe _ _ => False
  | _ => True

instance : (act : ClientAction τ) → Decidable (NeverUnsubscribes act)
  | .unsubscribe _ _ => inferInstanceAs (Decidable False)
  | .getSubscriber | .subscribe _ | .poll _ | .batchPoll _ | .publishEvent _ | .cleanup
  | .receive _ | .abandon _ | .cloneSub _ | .dropSub _ | .cloneBus | .dropBus | .getPublisher
  | .clonePub | .dropPub | .serve _ | .stop => inferInstanceAs (Decidable True)

/-- A handle is dropped only when it is the last live one of its subscription. -/
def DropsLast (s : BusSystem build τ) (act : ClientAction τ) : Prop :=
  ∀ handle other sub kept, act = .dropSub handle → s.handles handle = some sub →
    s.handles other = some kept → kept.subscription = sub.subscription → other = handle

/-- The ids whose queues are about to be removed, by a queued message or by the next cleanup. -/
def ending (s : BusSystem build τ) : List SubId :=
  s.requests.queue.filterMap (fun request => request.message.ended) ++ s.bus.recycle

/-- Every id that is held has its queue, and only ids that nobody holds are about to lose it. -/
structure Kept (s : BusSystem build τ) : Prop where
  disjoint : s.bus.PoolDisjoint
  held : ∀ id subscription, s.Holds id subscription →
    s.bus.Live id ∧ s.owner id = some subscription
  ending : ∀ id ∈ s.ending, s.bus.Live id ∧ ∀ subscription, ¬ s.Holds id subscription
  once : s.ending.Nodup
  -- A handle exists only after the reply that granted its id was taken.
  returned : ∀ handle sub, s.handles handle = some sub →
    ∃ result, s.calls sub.subscription = .returned result
  fresh : ∀ reply, s.nextReply ≤ reply → s.calls reply = .unused

variable {s t : BusSystem build τ} {act : ClientAction τ}

/-- Nothing is held or ending before the first subscription. -/
theorem newWithHandle_kept : (newWithHandle : BusSystem build τ).Kept where
  -- No handle has been made and no id is in use.
  disjoint := EventBus.new_poolDisjoint
  held := by
    rintro id subscription (⟨handle, held⟩ | ⟨caller, granted⟩)
    · simp [newWithHandle] at held
    · simp [newWithHandle] at granted
  ending := by simp [BusSystem.ending, newWithHandle, Channel.unbounded, EventBus.new]
  once := by simp [BusSystem.ending, newWithHandle, Channel.unbounded, EventBus.new]
  returned := by simp [newWithHandle]
  fresh := fun _ _ => rfl

/-- A call can only change the state of a request that has not returned. -/
theorem Kept.returned_update {sub : SubHandle} {handle : HandleId} {reply : ReplyId}
    {state : CallState τ} (kept : s.Kept) (held : s.handles handle = some sub)
    (open_ : ∀ result, s.calls reply ≠ .returned result) :
    ∃ result, Function.update s.calls reply state sub.subscription = .returned result := by
  -- A handle belongs to a request that has returned, so to another one.
  obtain ⟨result, returned⟩ := kept.returned handle sub held
  have other : sub.subscription ≠ reply := by
    rintro rfl
    exact open_ result returned
  exact ⟨result, by simpa [other] using returned⟩

/-- Only requests that were made have a state. -/
theorem Kept.made (kept : s.Kept) {reply : ReplyId} (used : s.calls reply ≠ .unused) :
    reply < s.nextReply := by
  -- The requests from the counter on are unused.
  by_contra beyond
  exact used (kept.fresh reply (Nat.not_lt.mp beyond))

/-- Changing the state of a request that was made leaves the unused ones unused. -/
theorem Kept.fresh_update (kept : s.Kept) {reply : ReplyId} {state : CallState τ}
    (used : s.calls reply ≠ .unused) {other : ReplyId} (beyond : s.nextReply ≤ other) :
    Function.update s.calls reply state other = .unused := by
  -- A request that was made has a smaller number than those that were not.
  have later : reply < other := Nat.lt_of_lt_of_le (kept.made used) beyond
  rw [Function.update_of_ne (Nat.ne_of_gt later)]
  exact kept.fresh other beyond

/-- A step of a client that asks for no end keeps the invariant. -/
theorem Kept.of_client (kept : s.Kept) (bus : t.bus = s.bus) (owner : t.owner = s.owner)
    (holds : ∀ id subscription, t.Holds id subscription → s.Holds id subscription)
    (ending : t.ending = s.ending)
    (returned : ∀ handle sub, t.handles handle = some sub →
      ∃ result, t.calls sub.subscription = .returned result)
    (fresh : ∀ reply, t.nextReply ≤ reply → t.calls reply = .unused) : t.Kept where
  -- The bus and the owners of the ids are the same, and nothing is held that was not before.
  disjoint := bus ▸ kept.disjoint
  held := by
    intro id subscription held
    rw [bus, owner]
    exact kept.held id subscription (holds id subscription held)
  ending := by
    intro id soon
    obtain ⟨live, unheld⟩ := kept.ending id (ending ▸ soon)
    exact ⟨bus ▸ live, fun subscription held => unheld subscription (holds _ _ held)⟩
  once := ending ▸ kept.once
  returned := returned
  fresh := fresh

/-- Serving a message keeps the invariant. -/
theorem Kept.of_served {request : Request build τ} {rest : List (Request build τ)}
    {reply : Option (ReplyId × BusResult (Reply τ))} {bus : EventBus τ} {next : Option SubId}
    (kept : s.Kept) (front : s.requests.queue = request :: rest)
    (turn : BusStep s.bus ⟨request.message, next, reply⟩ bus) :
    ({ s with
      bus := bus
      requests := { s.requests with queue := rest }
      owner := grant s.owner reply }.deliver reply).Kept := by
  -- Processing may end some subscriptions and grant one, and the two never meet in one id.
  set served : BusSystem build τ := { s with
      bus := bus
      requests := { s.requests with queue := rest }
      owner := grant s.owner reply } with is_served
  obtain ⟨atBus, atOwner, atHandles, atRequests, atNext⟩ := deliver_rest served reply
  obtain ⟨gone, moved, survives⟩ := turn.ends
  -- What was about to end is what is gone now together with what is still about to end.
  have split : (gone ++ (served.deliver reply).ending).Perm s.ending := by
    have now : (served.deliver reply).ending =
        rest.filterMap (fun request => request.message.ended) ++ bus.recycle := by
      rw [BusSystem.ending, atRequests, atBus]
    have before : s.ending = request.message.ended.toList ++
        (rest.filterMap (fun request => request.message.ended) ++ s.bus.recycle) := by
      rw [BusSystem.ending, front, List.filterMap_cons]
      cases request.message.ended <;> simp
    rw [now, before]
    -- The processed message and the remembered ids are brought side by side.
    exact (List.perm_append_comm_assoc _ _ _).trans
      ((moved.append_left _).trans (List.perm_append_comm_assoc _ _ _))
  obtain ⟨-, once, disjoint⟩ := List.nodup_append.mp (split.nodup_iff.mpr kept.once)
  have apart : ∀ id ∈ (served.deliver reply).ending, id ∉ gone := fun id soon now =>
    disjoint id now id soon rfl
  have soon_before : ∀ id ∈ (served.deliver reply).ending, id ∈ s.ending := fun id soon =>
    split.subset (List.mem_append_right _ soon)
  -- A granted id was free, so it was neither held nor about to end.
  have unused : ∀ id granted, reply = some (granted, .ok (.subId id)) → ¬ s.bus.Live id := by
    rintro id granted sent ⟨queue, there⟩
    obtain ⟨-, -, -, -, free, -⟩ := turn.picks ⟨granted, sent⟩
    rw [kept.disjoint id free] at there
    simp at there
  have keeps_owner : ∀ id, s.bus.Live id → grant s.owner reply id = s.owner id := by
    intro id live
    rcases grant_apply s.owner reply id with ⟨granted, sent, -⟩ | ⟨-, same⟩
    · exact absurd live (unused id granted sent)
    · exact same
  refine ⟨?_, ?_, ?_, ?_, ?_, ?_⟩
  · rw [atBus]
    exact turn.poolDisjoint kept.disjoint
  · intro id subscription holds
    rw [atBus, atOwner]
    rcases holds.of_deliver with old | new
    · obtain ⟨live, owner⟩ := kept.held id subscription old
      have stays : id ∉ gone := fun now =>
        (kept.ending id (split.subset (List.mem_append_left _ now))).2 subscription old
      exact ⟨survives id live stays, (keeps_owner id live).trans owner⟩
    · refine ⟨⟨[], turn.opens ⟨subscription, new⟩⟩, ?_⟩
      show grant s.owner reply id = some subscription
      rw [new]
      simp [grant]
  · intro id soon
    obtain ⟨live, unheld⟩ := kept.ending id (soon_before id soon)
    rw [atBus]
    refine ⟨survives id live (apart id soon), fun subscription holds => ?_⟩
    rcases holds.of_deliver with old | new
    · exact unheld subscription old
    · exact unused id subscription new live
  · exact once
  · intro handle sub held
    rw [atHandles] at held
    rcases served.deliver_cases reply with same | ⟨called, caller, result, _, waiting, delivered⟩
    · rw [same]
      exact kept.returned handle sub held
    · rw [delivered]
      have waits : s.calls called = .waiting caller := waiting
      exact kept.returned_update held (by simp [waits])
  · intro other beyond
    rw [atNext] at beyond
    rcases served.deliver_cases reply with same | ⟨called, caller, result, _, waiting, delivered⟩
    · rw [same]
      exact kept.fresh other beyond
    · rw [delivered]
      have waits : s.calls called = .waiting caller := waiting
      exact kept.fresh_update (by simp [waits]) beyond

/-- Messages that ask for no end leave the ids that are about to end as they are. -/
theorem ending_append {message : EventBusMessage build τ} (sender : Option ReplyId)
    (bus : t.bus = s.bus) (quiet : message.ended = none)
    (queue : t.requests.queue = s.requests.queue ∨
      t.requests.queue = s.requests.queue ++ [⟨message, sender⟩]) : t.ending = s.ending := by
  -- Such a message adds nothing to the list of ends.
  rcases queue with same | queued
  · rw [BusSystem.ending, same, bus]; rfl
  · rw [BusSystem.ending, queued, bus]
    simp [BusSystem.ending, quiet]

/-- Making a call keeps the invariant. -/
theorem Kept.of_call {caller : Caller} {message : ReplyId → EventBusMessage build τ}
    {sender : Option ReplyId} (kept : s.Kept) (quiet : ∀ reply, (message reply).ended = none)
    (bus : (s.call caller message sender).bus = s.bus)
    (owner : (s.call caller message sender).owner = s.owner)
    (holds : ∀ id subscription, (s.call caller message sender).Holds id subscription →
      s.Holds id subscription) : (s.call caller message sender).Kept := by
  -- The new request is neither returned nor unused before.
  have unused := kept.fresh _ (Nat.le_refl _)
  have later : ∀ {state : CallState τ} {reply : ReplyId}, s.nextReply + 1 ≤ reply →
      Function.update s.calls s.nextReply state reply = .unused := by
    intro state reply beyond
    rw [Function.update_of_ne (Nat.ne_of_gt beyond)]
    exact kept.fresh reply (Nat.le_of_lt beyond)
  -- The new request may be queued, or the call may fail because the actor is gone.
  rcases s.call_cases caller message sender with ⟨borrows, queued⟩ | failed
  · refine kept.of_client bus owner holds
      (ending_append sender bus (quiet s.nextReply) (.inr (by rw [queued]))) ?_ ?_
    · intro handle sub held
      rw [queued] at held ⊢
      exact kept.returned_update held (by simp [unused])
    · intro reply beyond
      rw [queued] at beyond ⊢
      exact later beyond
  · refine kept.of_client bus owner holds
      (ending_append sender bus (quiet s.nextReply) (.inl (by rw [failed]))) ?_ ?_
    · intro handle sub held
      rw [failed] at held ⊢
      exact kept.returned_update held (by simp [unused])
    · intro reply beyond
      rw [failed] at beyond ⊢
      exact later beyond

/-- Dropping the last handle of a subscription keeps the invariant. -/
theorem Kept.of_dropped {handle : HandleId} {sub : SubHandle} (kept : s.Kept)
    (held : s.handles handle = some sub) (last : s.DropsLast (.dropSub handle))
    (removed : t = { s with handles := Function.update s.handles handle none } ∨
      t = { s with handles := Function.update s.handles handle none }.send
        (.unsubscribe sub.id) (some sub.subscription)) : t.Kept := by
  -- The handle is removed first, and then its end is announced.
  have others : ∀ other found, Function.update s.handles handle none other = some found →
      s.handles other = some found ∧ other ≠ handle := by
    intro other found there
    have distinct : other ≠ handle := by
      rintro rfl
      simp at there
    exact ⟨by simpa [distinct] using there, distinct⟩
  have plain : { s with handles := Function.update s.handles handle none }.Kept :=
    kept.of_client rfl rfl (fun _ _ holds => holds.of_removed) rfl
      (fun other found there => kept.returned other found (others other found there).1) kept.fresh
  rcases removed with rfl | rfl
  · exact plain
  rcases send_cases { s with handles := Function.update s.handles handle none }
    (.unsubscribe sub.id) (some sub.subscription) with same | queued
  · rw [same]
    exact plain
  · -- The id was held until now, so it was not about to end, and nobody else holds it.
    obtain ⟨live, owner⟩ := kept.held _ _ (.of_handle held)
    have unheld : ∀ subscription,
        ¬ { s with
            handles := Function.update s.handles handle none }.Holds sub.id subscription := by
      intro subscription holds
      obtain ⟨-, same⟩ := kept.held _ _ holds.of_removed
      obtain rfl : sub.subscription = subscription := Option.some.inj (owner.symm.trans same)
      rcases holds with ⟨other, there⟩ | ⟨caller, granted⟩
      · obtain ⟨found, distinct⟩ := others other _ there
        exact distinct (last handle other sub _ rfl held found rfl)
      · obtain ⟨result, returned⟩ := kept.returned handle sub held
        have replied : s.calls sub.subscription = .replied caller (.ok (.subId sub.id)) := granted
        simp [returned] at replied
    rw [queued]
    set after : BusSystem build τ := { s with
      handles := Function.update s.handles handle none
      requests := { s.requests with
        queue := s.requests.queue ++ [⟨.unsubscribe sub.id, some sub.subscription⟩] } }
    have moved : after.ending.Perm (sub.id :: s.ending) := by
      have now : after.ending = s.requests.queue.filterMap (fun request => request.message.ended) ++
          (sub.id :: s.bus.recycle) := by
        simp [BusSystem.ending, after, EventBusMessage.ended]
      rw [now]
      exact List.perm_middle
    have before : sub.id ∉ s.ending := fun soon =>
      (kept.ending sub.id soon).2 sub.subscription (.of_handle held)
    refine ⟨kept.disjoint, plain.held, ?_, ?_, plain.returned, plain.fresh⟩
    · intro id soon
      rcases List.mem_cons.mp (moved.subset soon) with rfl | old
      · exact ⟨live, unheld⟩
      · exact plain.ending id old
    · exact moved.nodup_iff.mpr (List.nodup_cons.mpr ⟨before, kept.once⟩)

/-- Every step under the condition keeps the invariant. -/
theorem Kept.step (kept : s.Kept) (polite : NeverUnsubscribes act) (last : s.DropsLast act)
    (step : SystemStep s act t) : t.Kept := by
  -- The actor's step is the one that grants and removes ids.
  have effect := step.effect
  by_cases client : ∀ next, act ≠ .serve next
  · obtain ⟨bus, owner, holds⟩ := effect.client client
    cases effect with
    | @called _ caller message sender _ _ quiet =>
      refine kept.of_call (fun reply => ?_) bus owner holds
      -- A call that expects a reply never asks for an end.
      cases asked : message reply <;> simp_all [EventBusMessage.ended]
    | unsubscribed held => exact polite.elim
    | @cleaned enabled =>
      obtain ⟨-, calls, handles, -, nextReply⟩ := s.send_rest (.cleanUpBgTask enabled) none
      refine kept.of_client bus owner holds ?_ ?_ ?_
      · have quiet :
            (EventBusMessage.cleanUpBgTask enabled : EventBusMessage build τ).ended = none :=
          rfl
        rcases s.send_cases (.cleanUpBgTask enabled) none with same | queued
        · exact ending_append none bus quiet (.inl (by rw [same]))
        · exact ending_append none bus quiet (.inr (by rw [queued]))
      · rw [calls, handles]
        exact kept.returned
      · rw [calls, nextReply]
        exact kept.fresh
    | counted => exact kept.of_client rfl rfl holds rfl kept.returned kept.fresh
    | @received reply caller result found plain =>
      exact kept.of_client rfl rfl holds rfl
        (fun _ _ held => kept.returned_update held (by simp [found]))
        (fun _ beyond => kept.fresh_update (by simp [found]) beyond)
    | @granted reply caller id found =>
      refine kept.of_client rfl rfl holds rfl ?_
        (fun _ beyond => kept.fresh_update (by simp [found]) beyond)
      intro handle sub held
      by_cases new : handle = s.nextHandle
      · -- The handle was made from the reply that has just been taken.
        obtain rfl : ⟨id, reply⟩ = sub := by simpa [newHandle, finish, new] using held
        exact ⟨.ok (.subId id), by simp [newHandle, finish]⟩
      · have old : s.handles handle = some sub := by simpa [newHandle, finish, new] using held
        exact kept.returned_update old (by simp [found])
    | @abandoned reply caller found =>
      have pending : s.calls reply ≠ .unused ∧ ∀ result, s.calls reply ≠ .returned result := by
        rcases found with waiting | ⟨result, replied⟩
        · simp [waiting]
        · simp [replied]
      exact kept.of_client rfl rfl holds rfl
        (fun _ _ held => kept.returned_update held pending.2)
        (fun _ beyond => kept.fresh_update pending.1 beyond)
    | @cloned handle sub held =>
      refine kept.of_client rfl rfl holds rfl ?_ kept.fresh
      intro other found there
      by_cases new : other = s.nextHandle
      · obtain rfl : sub = found := by simpa [newHandle, new] using there
        exact kept.returned handle sub held
      · exact kept.returned other found (by simpa [newHandle, new] using there)
    | dropped held removed => exact kept.of_dropped held last removed
    | served => exact absurd rfl (client _)
    | stopped => exact kept.of_client rfl rfl holds rfl kept.returned kept.fresh
  · obtain ⟨next, rfl⟩ : ∃ next, act = .serve next := by simpa using client
    cases effect with
    | called client _ _ => exact absurd rfl (client _)
    | counted client => exact absurd rfl (client _)
    | served front turn => exact kept.of_served front turn

end BusSystem

open BusSystem

/--
A queue lives as long as one handle of its subscription, in every run without explicit ends in
which each handle is dropped as the last one of its subscription.

Events that are published while it lives are appended to it.
-/
theorem subscription_outlives_handles {acts : List (ClientAction τ)} {s : BusSystem build τ}
    (run : Run (Guarded (fun s act => NeverUnsubscribes act ∧ s.DropsLast act) SystemStep)
      newWithHandle acts s)
    (handle : HandleId) (sub : SubHandle) (held : s.handles handle = some sub) :
    s.owner sub.id = some sub.subscription ∧ ∃ queue, s.bus.eventQueues sub.id = some queue ∧
      ∀ next t event reply sender rest,
        s.requests.queue = ⟨.pushEvent event reply, sender⟩ :: rest →
        SystemStep s (.serve next) t → t.bus.eventQueues sub.id = some (queue ++ [event]) := by
  -- A live handle holds its id, so the invariant keeps the queue.
  have kept : s.Kept := run.invariant newWithHandle_kept
    fun _ _ _ before step => before.step step.1.1 step.1.2 step.2
  obtain ⟨⟨queue, there⟩, owner⟩ := kept.held _ _ (.of_handle held)
  refine ⟨owner, queue, there, ?_⟩
  intro next t event reply sender rest front step
  cases step.effect with
  | called client _ _ => exact absurd rfl (client _)
  | counted client => exact absurd rfl (client _)
  | served atFront turn =>
    obtain ⟨rfl, rfl⟩ := List.cons.inj (front.symm.trans atFront)
    rw [(deliver_rest _ _).1]
    cases turn.effect with
    | pushed => simp [EventBus.pushToEventQueues, there]

/-- A client clones its handle and drops the original, and the actor takes the message. -/
def clonedThenDropped : List (ClientAction Nat) :=
  [.getSubscriber, .serve (some 1), .receive 0, .cloneSub 0, .dropSub 0, .serve none]

/-- Dropping one handle removes the queue under the clone that is still alive. -/
theorem dropped_clone_ends_subscription :
    ∃ s : BusSystem .immediate Nat,
      Run (Guarded (fun _ act => NeverUnsubscribes act) SystemStep) newWithHandle
        clonedThenDropped s ∧
        s.handles 1 = some ⟨1, 0⟩ ∧ ¬ s.bus.Live 1 := by
  -- The run is replayed, and its last state is tested.
  have replayed : (replay (nextIf fun _ act => NeverUnsubscribes act)
      (newWithHandle : BusSystem .immediate Nat) clonedThenDropped).map
      (fun s => s.handles 1 == some ⟨1, 0⟩ && s.bus.eventQueues 1 == none) = some true := by
    decide
  obtain ⟨s, run, cut⟩ := Run.of_replay_test replayed
  simp only [Bool.and_eq_true, beq_iff_eq] at cut
  exact ⟨s, run.mono step_of_nextIf, cut.1, by simp [EventBus.Live, cut.2]⟩

/-- Two handles of the first subscription and one of the second. -/
def handlesBeforeDrop : HandleId → Option SubHandle :=
  Function.update (Function.update (Function.update (fun _ => none) 0 (some ⟨1, 0⟩)) 1
    (some ⟨1, 0⟩)) 2 (some ⟨2, 1⟩)

/-- One subscription with a clone keeps its queue while another one ends. -/
theorem subscription_outlives_handles_cloned :
    ∃ s : BusSystem .immediate Nat,
      Run (Guarded (fun s act => NeverUnsubscribes act ∧ s.DropsLast act) SystemStep) newWithHandle
        [.getSubscriber, .serve (some 1), .receive 0, .cloneSub 0, .getSubscriber, .serve (some 2),
          .receive 1, .dropSub 2, .serve none] s ∧
      s.owner 1 = some 0 ∧ s.bus.Live 1 := by
  -- Only the drop of handle 2 has to be the last one of its subscription.
  have quiet : ∀ {s t : BusSystem .immediate Nat} {act : ClientAction Nat},
      NeverUnsubscribes act → (∀ handle, act ≠ .dropSub handle) → SystemStep s act t →
      Guarded (fun s act => NeverUnsubscribes act ∧ s.DropsLast act) SystemStep s act t :=
    fun polite keeps step =>
      ⟨⟨polite, fun handle _ _ _ drops => absurd drops (keeps handle)⟩, step⟩
  -- When handle 2 is dropped, the two other handles belong to another subscription.
  have last : ∀ handle other (sub kept : SubHandle), ClientAction.dropSub 2 = (.dropSub handle :
      ClientAction Nat) → handlesBeforeDrop handle = some sub →
      handlesBeforeDrop other = some kept → kept.subscription = sub.subscription →
      other = handle := by
    rintro handle other sub kept same held there shared
    obtain rfl : 2 = handle := by injection same
    obtain rfl : ⟨2, 1⟩ = sub := by simpa [handlesBeforeDrop] using held
    simp only [handlesBeforeDrop, Function.update_apply] at there
    split_ifs at there
    · assumption
    · obtain rfl := Option.some.inj there
      simp at shared
    · obtain rfl := Option.some.inj there
      simp at shared
  have run : Run (Guarded (fun s act => NeverUnsubscribes act ∧ s.DropsLast act) SystemStep)
      (newWithHandle : BusSystem .immediate Nat)
      [.getSubscriber, .serve (some 1), .receive 0, .cloneSub 0, .getSubscriber, .serve (some 2),
          .receive 1, .dropSub 2, .serve none] _ :=
    .cons (quiet trivial (by simp) ⟨by simp, rfl⟩) <|
    .cons (quiet trivial (by simp) ⟨fun _ _ _ _ same _ _ => by cases same; rfl, rfl⟩) <|
    .cons (quiet trivial (by simp) ⟨by simp, rfl⟩) <|
    .cons (quiet trivial (by simp) ⟨by simp, rfl⟩) <|
    .cons (quiet trivial (by simp) ⟨by simp, rfl⟩) <|
    .cons (quiet trivial (by simp) ⟨fun _ _ _ _ same _ _ => by cases same; rfl, rfl⟩) <|
    .cons (quiet trivial (by simp) ⟨by simp, rfl⟩) <|
    .cons ⟨⟨trivial, last⟩, ⟨by simp, rfl⟩⟩ <|
    .cons (quiet trivial (by simp) ⟨fun _ _ _ _ _ front asked => by
      cases front; simp at asked, rfl⟩) .nil
  obtain ⟨owner, queue, live, -⟩ := subscription_outlives_handles run 1 ⟨1, 0⟩ rfl
  exact ⟨_, run, owner, queue, live⟩

end Imputio
