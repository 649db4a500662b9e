import Imputio.EventBus.Clients

/-! Who holds an id: the live handles, and the granted ids on their way to a caller. -/

namespace Imputio

open Transition

variable {build : Build} {τ : Type*}

namespace BusSystem

/-- Somebody holds an id for a subscription, in a live handle or in a reply not yet taken. -/
def Holds (s : BusSystem build τ) (id : SubId) (subscription : ReplyId) : Prop :=
  (∃ handle, s.handles handle = some ⟨id, subscription⟩) ∨
    ∃ caller, s.calls subscription = .replied caller (.ok (.subId id))

variable {s t : BusSystem build τ} {act : ClientAction τ} {id : SubId} {subscription : ReplyId}

/-- A live handle holds its id for its subscription. -/
theorem Holds.of_handle {handle : HandleId} {sub : SubHandle}
    (held : s.handles handle = some sub) : s.Holds sub.id sub.subscription :=
  .inl ⟨handle, held⟩

/-- Holders are traced back through changes of the handles and of the calls. -/
theorem Holds.trace (holds : t.Holds id subscription)
    (handles : ∀ handle sub, t.handles handle = some sub → s.Holds sub.id sub.subscription)
    (replies : ∀ reply caller id, t.calls reply = .replied caller (.ok (.subId id)) →
      s.Holds id reply) : s.Holds id subscription := by
  -- A holder is either a handle or a reply.
  rcases holds with ⟨handle, held⟩ | ⟨caller, granted⟩
  · exact handles handle _ held
  · exact replies subscription caller id granted

/-- A call that is changed to anything but a granted reply makes no new holder. -/
theorem Holds.of_update {reply other : ReplyId} {state : CallState τ} {caller : Caller}
    (plain : ∀ caller id, state ≠ .replied caller (.ok (.subId id)))
    (granted : Function.update s.calls reply state other = .replied caller (.ok (.subId id))) :
    s.Holds id other := by
  -- The changed call is not a granted reply, and the others are as before.
  by_cases same : other = reply
  · subst same
    exact absurd (by simpa using granted) (plain caller id)
  · exact .inr ⟨caller, by simpa [same] using granted⟩

/-- A handle table with one more handle has the old holders and that of the new handle. -/
theorem Holds.of_newHandle {sub : SubHandle} (holds : (s.newHandle sub).Holds id subscription)
    (made : s.Holds sub.id sub.subscription) : s.Holds id subscription := by
  -- The one new handle has an owner by assumption.
  refine holds.trace ?_ fun _ caller _ granted => .inr ⟨caller, granted⟩
  intro handle found held
  by_cases same : handle = s.nextHandle
  · subst same
    obtain rfl : sub = found := by simpa [newHandle] using held
    exact made
  · exact .of_handle (show s.handles handle = some found by simpa [newHandle, same] using held)

/-- Taking a handle away makes no new holder. -/
theorem Holds.of_removed {handle : HandleId}
    (holds : { s with handles := Function.update s.handles handle none }.Holds id subscription) :
    s.Holds id subscription := by
  -- Every handle that is left was there before.
  refine holds.trace ?_ fun _ caller _ granted => .inr ⟨caller, granted⟩
  intro other found held
  by_cases same : other = handle
  · subst same; simp at held
  · exact .of_handle (show s.handles other = some found by simpa [same] using held)

/-- A step of a client leaves the bus alone and makes no new holder of any id. -/
theorem Effect.client (effect : s.Effect act t) (client : ∀ next, act ≠ .serve next) :
    t.bus = s.bus ∧ t.owner = s.owner ∧
      ∀ id subscription, t.Holds id subscription → s.Holds id subscription := by
  -- A client never creates a granted reply, and copies a handle only from one that it has.
  have sent : ∀ (u : BusSystem build τ) (message : EventBusMessage build τ)
      (sender : Option ReplyId), (u.send message sender).bus = u.bus ∧
        (u.send message sender).owner = u.owner ∧ ∀ id subscription,
          (u.send message sender).Holds id subscription → u.Holds id subscription := by
    intro u message sender
    obtain ⟨bus, calls, handles, owner, -⟩ := u.send_rest message sender
    refine ⟨bus, owner, fun id subscription holds => ?_⟩
    unfold Holds at holds
    rw [calls, handles] at holds
    exact holds
  cases effect with
  | @called _ caller message sender =>
    rcases s.call_cases caller message sender with ⟨borrows, queued⟩ | failed
    · rw [queued]
      exact ⟨rfl, rfl, fun _ _ holds => holds.trace (fun _ _ held => .of_handle held)
        fun _ _ _ granted => .of_update (by simp) granted⟩
    · rw [failed]
      exact ⟨rfl, rfl, fun _ _ holds => holds.trace (fun _ _ held => .of_handle held)
        fun _ _ _ granted => .of_update (by simp) granted⟩
  | unsubscribed held => exact sent s _ _
  | cleaned => exact sent s _ _
  | counted => exact ⟨rfl, rfl, fun _ _ holds => holds⟩
  | received found plain =>
    exact ⟨rfl, rfl, fun _ _ holds => holds.trace (fun _ _ held => .of_handle held)
      fun _ _ _ granted => .of_update (by simp) granted⟩
  | @granted reply caller id' found =>
    refine ⟨rfl, rfl, fun id subscription holds => ?_⟩
    -- The new handle takes over the id that the reply carried.
    refine holds.trace (fun handle sub held => ?_) fun _ _ _ granted => .of_update (by simp) granted
    by_cases same : handle = s.nextHandle
    · subst same
      obtain rfl : ⟨id', reply⟩ = sub := by simpa [newHandle, finish] using held
      exact .inr ⟨caller, found⟩
    · exact .of_handle (by simpa [newHandle, finish, same] using held)
  | abandoned found =>
    exact ⟨rfl, rfl, fun _ _ holds => holds.trace (fun _ _ held => .of_handle held)
      fun _ _ _ granted => .of_update (by simp) granted⟩
  | cloned held => exact ⟨rfl, rfl, fun _ _ holds => holds.of_newHandle (.of_handle held)⟩
  | @dropped handle sub t held result =>
    rcases result with rfl | rfl
    · exact ⟨rfl, rfl, fun _ _ holds => holds.of_removed⟩
    · obtain ⟨bus, owner, holds⟩ := sent { s with handles := Function.update s.handles handle none }
        (.unsubscribe sub.id) (some sub.subscription)
      exact ⟨bus, owner, fun _ _ held => (holds _ _ held).of_removed⟩
  | served => exact absurd rfl (client _)
  | stopped => exact ⟨rfl, rfl, fun _ _ holds => holds⟩

/-- A delivered reply makes at most one new holder, of the id it carries. -/
theorem Holds.of_deliver {reply : Option (ReplyId × BusResult (Reply τ))}
    (holds : (s.deliver reply).Holds id subscription) :
    s.Holds id subscription ∨ reply = some (subscription, .ok (.subId id)) := by
  -- The reply may or may not find its caller still waiting.
  rcases s.deliver_cases reply with same | ⟨called, caller, result, sent, waiting, delivered⟩
  · exact .inl (same ▸ holds)
  · rw [delivered] at holds
    rcases holds with held | ⟨caller', granted⟩
    · exact .inl (.inl held)
    · by_cases same : subscription = called
      · subst same
        obtain ⟨-, rfl⟩ : caller = caller' ∧ result = .ok (.subId id) := by simpa using granted
        exact .inr sent
      · exact .inl (.inr ⟨caller', by simpa [same] using granted⟩)

/-- Replying leaves the tables and the history alone. -/
theorem deliver_rest (s : BusSystem build τ) (reply : Option (ReplyId × BusResult (Reply τ))) :
    (s.deliver reply).bus = s.bus ∧ (s.deliver reply).owner = s.owner ∧
      (s.deliver reply).handles = s.handles ∧ (s.deliver reply).requests = s.requests ∧
      (s.deliver reply).nextReply = s.nextReply := by
  -- Only the state of the waiting call changes.
  rcases s.deliver_cases reply with same | ⟨_, _, _, _, _, delivered⟩
  · rw [same]; exact ⟨rfl, rfl, rfl, rfl, rfl⟩
  · rw [delivered]; exact ⟨rfl, rfl, rfl, rfl, rfl⟩

/-- A grant changes the owner of the granted id and of no other. -/
theorem grant_apply (owner : SubId → Option ReplyId)
    (reply : Option (ReplyId × BusResult (Reply τ))) (id : SubId) :
    (∃ granted, reply = some (granted, .ok (.subId id)) ∧ grant owner reply id = some granted) ∨
      ((∀ granted, reply ≠ some (granted, .ok (.subId id))) ∧ grant owner reply id = owner id) := by
  -- The reply grants this id, or it says nothing about it.
  unfold grant
  split
  · rename_i granted named
    by_cases same : id = named
    · subst same; exact .inl ⟨granted, rfl, by simp⟩
    · exact .inr ⟨by simpa using Ne.symm same, by simp [same]⟩
  · rename_i other
    exact .inr ⟨fun granted equal => other granted id equal, rfl⟩

end BusSystem

end Imputio
