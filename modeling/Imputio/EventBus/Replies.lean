import Imputio.EventBus.Protocol

/-! The bus with every reply channel spelled out: its capacity, its sender and its receiver. -/

namespace Imputio

open Transition

variable {build : Build} {τ : Type*}

/-- The reply channels, all made with room for one reply. -/
abbrev ReplyChannels (τ : Type*) := ReplyId → Channel (BusResult (Reply τ))

/-- The bus and its clients, whose calls wait until they take something from their channel. -/
structure ReplySystem (build : Build) (τ : Type*) where
  core : BusSystem build τ
  replies : ReplyChannels τ
  -- The sender is in the caller's hands, in the request channel, or with the actor.
  senders : ReplyId → Bool
  -- History: what the request channel has accepted, and what the actor has processed.
  sent : List (EventBusMessage build τ)
  log : List (Processed build τ)

namespace ReplySystem

/-- A fresh actor with one handle to it; no reply channel is in use yet. -/
def newWithHandle : ReplySystem build τ where
  core := .newWithHandle
  replies := fun _ => .bounded 1
  senders := fun _ => true
  sent := []
  log := []

/-- `reply.send(..)`: the sender is gone afterwards, and a missing receiver is ignored. -/
def answer (s : ReplySystem build τ) :
    Option (ReplyId × BusResult (Reply τ)) → Option (ReplySystem build τ)
  | none => some s
  | some (reply, result) =>
    match (s.replies reply).send result with
    | .sent channel =>
      some { s with
        replies := Function.update s.replies reply channel
        senders := Function.update s.senders reply false }
    | .disconnected => some { s with senders := Function.update s.senders reply false }
    -- The actor would have to wait here.
    | .full => none

/-- The actor takes the oldest message, applies it and sends its reply. -/
def serve (s : ReplySystem build τ) (next : Option SubId) : Option (ReplySystem build τ) :=
  match s.core.requests.tryRecv with
  | none => none
  | some (request, requests) =>
    let (bus, reply) := s.core.bus.process request.message next
    let s : ReplySystem build τ := { s with
      core := { s.core with
        bus := bus
        requests := requests
        owner := BusSystem.grant s.core.owner reply }
      log := s.log ++ [⟨request.message, next, reply⟩] }
    s.answer reply

/-- A call ends, and the receiver of its reply channel is dropped with it. -/
def close (s : ReplySystem build τ) (reply : ReplyId) (caller : Caller) (state : CallState τ)
    (channel : Channel (BusResult (Reply τ))) : ReplySystem build τ :=
  { s with
    core := s.core.finish reply caller state
    replies := Function.update s.replies reply channel.disconnect }

/-- `rx.recv_async().await`: the reply, or an error once the channel is empty for good. -/
def receive (s : ReplySystem build τ) (reply : ReplyId) : Option (ReplySystem build τ) :=
  match s.core.calls reply with
  | .waiting caller =>
    match (s.replies reply).tryRecv with
    | some (result, channel) =>
      let s := s.close reply caller (.returned result) channel
      match result with
      -- The call was a subscription, and its id becomes a handle.
      | .ok (.subId id) => some { s with core := s.core.newHandle ⟨id, reply⟩ }
      | _ => some s
    | none =>
      if s.senders reply then none
      else some (s.close reply caller (.returned (.error .channelRcvError)) (s.replies reply))
  | _ => none

/-- A caller drops its future before the call has ended. -/
def abandon (s : ReplySystem build τ) (reply : ReplyId) : Option (ReplySystem build τ) :=
  match s.core.calls reply with
  | .waiting caller => some (s.close reply caller .abandoned (s.replies reply))
  | _ => none

/-- A step of a client that uses no reply channel, with what it has put in the channel. -/
def client (s : ReplySystem build τ) (core : BusSystem build τ) : ReplySystem build τ :=
  { s with
    core := core
    sent := s.sent ++
      (core.requests.queue.drop s.core.requests.queue.length).map Request.message }

/-- What each action does, where it is possible. -/
def next (s : ReplySystem build τ) : ClientAction τ → Option (ReplySystem build τ)
  | .receive reply => s.receive reply
  | .abandon reply => s.abandon reply
  | .serve next => if s.core.requests.connected then s.serve next else none
  | act => (s.core.next act).map s.client

end ReplySystem

/-- One step of the system, where the actor sees a free id that iteration can yield first. -/
structure ReplyStep {build : Build} {τ : Type*} (s : ReplySystem build τ) (act : ClientAction τ)
    (t : ReplySystem build τ) : Prop where
  picked : ∀ next request rest reply, act = .serve next →
    s.core.requests.queue = request :: rest → request.message = .subscribe reply →
    IterNext s.core.bus.ids next
  taken : s.next act = some t

namespace BusSystem

/-- A call whose reply is in its channel, as the actor sees it, has been replied to. -/
def seen (replies : ReplyChannels τ) (calls : ReplyId → CallState τ) (reply : ReplyId) :
    CallState τ :=
  match calls reply, (replies reply).queue with
  | .waiting caller, result :: _ => .replied caller result
  | state, _ => state

/-- The bus and its clients, with the replies in the channels taken as delivered. -/
def withReplies (s : BusSystem build τ) (replies : ReplyChannels τ) : BusSystem build τ :=
  { s with calls := seen replies s.calls }

variable {s : BusSystem build τ} {replies : ReplyChannels τ} {calls : ReplyId → CallState τ}
  {reply : ReplyId} {caller : Caller}

/-- Sending a message does not depend on the replies. -/
theorem withReplies_send (s : BusSystem build τ) (replies : ReplyChannels τ)
    (message : EventBusMessage build τ) (subscription : Option ReplyId) :
    (s.send message subscription).withReplies replies =
      (s.withReplies replies).send message subscription := by
  unfold send withReplies
  cases s.requests.send ⟨message, subscription⟩ <;> rfl

/-- A caller sees no reply while its channel is empty. -/
theorem seen_of_empty (empty : (replies reply).queue = []) : seen replies calls reply =
    calls reply := by
  -- A reply is only seen in a channel that has one.
  unfold seen
  rw [empty]
  cases calls reply <;> rfl

/-- A caller is seen to wait while it waits on an empty channel. -/
theorem seen_eq_waiting_iff : seen replies calls reply = .waiting caller ↔
    calls reply = .waiting caller ∧ (replies reply).queue = [] := by
  -- A call is seen as it is, except that a reply in its channel counts as delivered.
  unfold seen
  split
  · rename_i found
    simp [found]
  · rename_i found
    refine ⟨fun waits => ⟨waits, ?_⟩, And.left⟩
    by_contra some
    obtain ⟨result, rest, front⟩ := List.exists_cons_of_ne_nil some
    exact found caller result rest waits front

/-- A call that is not in progress is seen as it is. -/
theorem seen_eq_iff {state : CallState τ} (plain : state.caller = none) :
    seen replies calls reply = state ↔ calls reply = state := by
  -- Only a call in progress with a reply in its channel is seen as another state.
  unfold seen
  split
  · rename_i waits _
    constructor
    · -- A call with a reply in its channel is in progress, and so is how it is seen.
      rintro rfl
      simp [CallState.caller] at plain
    · intro same
      rw [← same, waits] at plain
      simp [CallState.caller] at plain
  · rfl

/-- A caller whose reply is in its channel is seen to have been replied to. -/
theorem seen_of_front {result : BusResult (Reply τ)} {rest : List (BusResult (Reply τ))}
    (waits : calls reply = .waiting caller) (front : (replies reply).queue = result :: rest) :
    seen replies calls reply = .replied caller result := by
  unfold seen
  rw [waits, front]

/-- A reply that fills its channel is seen by the one caller that waits for it. -/
theorem seen_filled {result : BusResult (Reply τ)} (waits : calls reply = .waiting caller) :
    seen (Function.update replies reply ⟨[result], some 1, true⟩) calls =
      Function.update (seen replies calls) reply (.replied caller result) := by
  -- Only the channel of the one call changes.
  funext other
  by_cases same : other = reply
  · subst same
    have front : (Function.update replies other ⟨[result], some 1, true⟩ other).queue =
        result :: [] := by
      rw [Function.update_self]
    rw [seen_of_front waits front, Function.update_self]
  · simp [seen, same]

/-- A change of one call is seen at that call only. -/
theorem seen_update {state : CallState τ} {channel : Channel (BusResult (Reply τ))}
    (plain : state.caller = none) :
    seen (Function.update replies reply channel) (Function.update calls reply state) =
      Function.update (seen replies calls) reply state := by
  -- The new state is not in progress, so that it is seen as it is.
  funext other
  by_cases same : other = reply
  · subst same
    unfold seen
    cases state <;> simp [CallState.caller] at plain ⊢
  · simp [seen, same]

/-- A new call waits on a channel that is still empty. -/
theorem seen_call {state : CallState τ} (empty : (replies reply).queue = []) :
    seen replies (Function.update calls reply state) =
      Function.update (seen replies calls) reply state := by
  -- The other calls are seen as before, and this one finds an empty channel.
  funext other
  by_cases same : other = reply
  · subst same
    simp [seen_of_empty empty]
  · simp [seen, same]

/-- Making a call does not depend on the replies to other calls. -/
theorem withReplies_call (unused : (replies s.nextReply).queue = []) (caller : Caller)
    (message : ReplyId → EventBusMessage build τ) (subscription : Option ReplyId) :
    (s.call caller message subscription).withReplies replies =
      (s.withReplies replies).call caller message subscription := by
  -- The new call is seen to wait, because nothing has been put in its channel.
  unfold call withReplies
  cases s.requests.send ⟨message s.nextReply, subscription⟩ with
  | sent requests => simp [seen_call unused]
  | full => simp [seen_call unused]
  | disconnected => simp [seen_call unused]

/-- The end of a call is seen as such, whatever happens to its channel. -/
theorem withReplies_finish {state : CallState τ} (plain : state.caller = none)
    (channel : Channel (BusResult (Reply τ))) :
    (s.finish reply caller state).withReplies (Function.update replies reply channel) =
      (s.withReplies replies).finish reply caller state := by
  unfold finish withReplies
  simp [seen_update plain]

/-- A step of a client or of the actor that uses no reply channel. -/
def Quiet : ClientAction τ → Prop
  | .receive _ => False
  | .abandon _ => False
  | .serve _ => False
  | _ => True

/-- A step that uses no reply channel changes no call, or makes one that waits. -/
theorem quiet_calls {t : BusSystem build τ} {act : ClientAction τ} (step : SystemStep s act t)
    (roomy : s.requests.capacity = none) (connected : s.requests.connected = true)
    (quiet : Quiet act) (reply : ReplyId) : t.calls reply = s.calls reply ∨
      reply = s.nextReply ∧ ∃ caller, t.calls reply = .waiting caller := by
  -- Of these steps, only those that send a request with a reply start a call.
  cases step.effect with
  | @called _ caller message subscription =>
    rw [call_eq roomy connected]
    by_cases new : reply = s.nextReply
    · exact .inr ⟨new, caller, by simp [new]⟩
    · exact .inl (by simp [new])
  | unsubscribed => exact .inl (by simp)
  | cleaned => exact .inl (by simp)
  | counted => exact .inl rfl
  | received => exact quiet.elim
  | granted => exact quiet.elim
  | abandoned => exact quiet.elim
  | cloned => exact .inl rfl
  | dropped held result =>
    rcases result with rfl | rfl
    · exact .inl rfl
    · exact .inl (by simp)
  | served => exact quiet.elim
  | stopped => exact .inl rfl

/-- Steps that use no reply channel do not depend on the replies. -/
theorem next_withReplies {act : ClientAction τ} {core : BusSystem build τ} (quiet : Quiet act)
    (unused : (replies s.nextReply).queue = []) (taken : s.next act = some core) :
    (s.withReplies replies).next act = some (core.withReplies replies) := by
  -- The steps ask for a handle or for a count, and neither depends on the replies.
  have held : ∀ {handle : HandleId} {f g : SubHandle → BusSystem build τ},
      (∀ sub, (f sub).withReplies replies = g sub) → (s.handles handle).map f = some core →
      (s.handles handle).map g = some (core.withReplies replies) := by
    intro handle f g same mapped
    obtain ⟨sub, held, rfl⟩ := Option.map_eq_some_iff.mp mapped
    exact Option.map_eq_some_iff.mpr ⟨sub, held, (same sub).symm⟩
  have counted : ∀ {cond : Prop} [Decidable cond] {u v : BusSystem build τ},
      u.withReplies replies = v → (if cond then some u else none) = some core →
      (if cond then some v else none) = some (core.withReplies replies) := by
    intro cond _ u v same enabled
    obtain ⟨met, rfl⟩ := enabled_iff.mp enabled
    exact enabled_iff.mpr ⟨met, same.symm⟩
  cases act with
  | getSubscriber => exact counted (withReplies_call unused ..) taken
  | subscribe handle => exact held (fun _ => withReplies_call unused ..) taken
  | unsubscribe handle id => exact held (fun _ => withReplies_send ..) taken
  | poll handle => exact held (fun _ => withReplies_call unused ..) taken
  | batchPoll handle => exact held (fun _ => withReplies_call unused ..) taken
  | publishEvent event => exact counted (withReplies_call unused ..) taken
  | cleanup =>
    simp only [BusSystem.next] at taken ⊢
    split at taken
    · rename_i enabled
      rw [dif_pos enabled]
      exact counted (withReplies_send ..) taken
    · simp at taken
  | receive reply => exact quiet.elim
  | abandon reply => exact quiet.elim
  | cloneSub handle => exact held (fun _ => rfl) taken
  | dropSub handle =>
    simp only [BusSystem.next, BusSystem.dropSub] at taken
    split at taken
    · simp at taken
    · rename_i sub there
      obtain ⟨unborrowed, dropped⟩ := Option.ite_none_right_eq_some.mp taken
      have same : (s.withReplies replies).handles handle = some sub := there
      have free : (s.withReplies replies).borrows (.subHandle handle) = 0 := unborrowed
      simp only [BusSystem.next, BusSystem.dropSub, same]
      split at dropped
      · rename_i proper
        obtain rfl := Option.some.inj dropped
        rw [if_pos free, if_pos proper, withReplies_send]
        rfl
      · rename_i null
        obtain rfl := Option.some.inj dropped
        rw [if_pos free, if_neg null]
        rfl
  | cloneBus => exact counted rfl taken
  | dropBus => exact counted rfl taken
  | getPublisher => exact counted rfl taken
  | clonePub => exact counted rfl taken
  | dropPub => exact counted rfl taken
  | serve next => exact quiet.elim
  | stop => exact counted rfl taken

end BusSystem

namespace ReplySystem

/-- The bus and its clients without the reply channels. -/
def view (s : ReplySystem build τ) : BusSystem build τ := s.core.withReplies s.replies

/-- What holds of the reply channels, besides the protocol of the requests. -/
structure Wired (s : ReplySystem build τ) : Prop where
  protocol : s.view.Protocol
  plain : ∀ reply caller result, s.core.calls reply ≠ .replied caller result
  unused : ∀ reply, s.core.calls reply = .unused →
    s.replies reply = .bounded 1 ∧ s.senders reply = true
  waiting : ∀ reply caller, s.core.calls reply = .waiting caller →
    ∃ queue, s.replies reply = ⟨queue, some 1, true⟩
  abandoned : ∀ reply, s.core.calls reply = .abandoned → (s.replies reply).connected = false
  senders : ∀ reply ∈ s.core.queuedReplies, s.senders reply = true

variable {s t : ReplySystem build τ} {act : ClientAction τ}

/-- Nothing is requested yet when the actor starts. -/
theorem newWithHandle_wired : (newWithHandle : ReplySystem build τ).Wired where
  protocol := BusSystem.newWithHandle_protocol
  plain := by simp [newWithHandle, BusSystem.newWithHandle]
  unused := fun _ _ => ⟨rfl, rfl⟩
  waiting := by simp [newWithHandle, BusSystem.newWithHandle]
  abandoned := by simp [newWithHandle, BusSystem.newWithHandle]
  senders := fun _ _ => rfl

/-- The channel of a request that is still queued is empty, and its call waits or is given up. -/
theorem Wired.queued (wired : s.Wired) {reply : ReplyId} (owed : reply ∈ s.core.queuedReplies) :
    (∃ caller, s.core.calls reply = .waiting caller ∧ s.replies reply = .bounded 1) ∨
      s.core.calls reply = .abandoned ∧ (s.replies reply).connected = false := by
  -- What the protocol says of a call that is seen to wait holds of its channel as well.
  rcases wired.protocol.awaited reply owed with ⟨caller, waits⟩ | gone
  · obtain ⟨waits, empty⟩ := BusSystem.seen_eq_waiting_iff.mp waits
    obtain ⟨queue, channel⟩ := wired.waiting reply caller waits
    rw [channel] at empty
    obtain rfl : queue = [] := empty
    exact .inl ⟨caller, waits, channel⟩
  · have given_up := (BusSystem.seen_eq_iff rfl).mp gone
    exact .inr ⟨given_up, wired.abandoned reply given_up⟩

/-- A call that waits on an empty channel has its request in the queue. -/
theorem Wired.owed (wired : s.Wired) {reply : ReplyId} {caller : Caller}
    (waits : s.core.calls reply = .waiting caller) (empty : (s.replies reply).queue = []) :
    reply ∈ s.core.queuedReplies :=
  wired.protocol.queued reply caller (BusSystem.seen_eq_waiting_iff.mpr ⟨waits, empty⟩)

/-- What the actor does with a reply: it fills an empty slot, or finds nobody to receive it. -/
inductive Answered (s : ReplySystem build τ) :
    Option (ReplyId × BusResult (Reply τ)) → ReplyChannels τ → (ReplyId → Bool) → Prop
  | unasked : Answered s none s.replies s.senders
  | filled {reply : ReplyId} {result : BusResult (Reply τ)} {caller : Caller}
      (waits : s.core.calls reply = .waiting caller) (empty : s.replies reply = .bounded 1) :
      Answered s (some (reply, result))
        (Function.update s.replies reply ⟨[result], some 1, true⟩)
        (Function.update s.senders reply false)
  | ignored {reply : ReplyId} {result : BusResult (Reply τ)}
      (gone : s.core.calls reply = .abandoned) :
      Answered s (some (reply, result)) s.replies (Function.update s.senders reply false)

/-- The actor never waits: whatever it takes from the channel it processes and answers. -/
theorem Wired.serves (wired : s.Wired) {request : Request build τ}
    {rest : List (Request build τ)} (front : s.core.requests.queue = request :: rest)
    (next : Option SubId) : ∃ bus answer replies senders,
      s.core.bus.process request.message next = (bus, answer) ∧
      Answered s answer replies senders ∧
      s.serve next = some
        { core := { s.core with
            bus := bus
            requests := { s.core.requests with queue := rest }
            owner := BusSystem.grant s.core.owner answer }
          replies := replies
          senders := senders
          sent := s.sent
          log := s.log ++ [⟨request.message, next, answer⟩] } := by
  -- What the bus answers decides which of the three ways of a reply is taken.
  obtain ⟨bus, answer, processed⟩ :
      ∃ bus answer, s.core.bus.process request.message next = (bus, answer) := ⟨_, _, rfl⟩
  have asked := s.core.bus.process_answers request.message next
  rw [processed] at asked
  have taken : s.core.requests.tryRecv = some (request, { s.core.requests with queue := rest }) :=
    Channel.tryRecv_eq_some_iff.mpr ⟨front, rfl⟩
  cases answer with
  | none =>
    refine ⟨bus, none, _, _, processed, .unasked, ?_⟩
    simp only [serve, taken, processed, answer]
  | some sent =>
    -- The request was in the channel, so its own channel has room or nobody who receives.
    obtain ⟨reply, result⟩ := sent
    have owed : reply ∈ s.core.queuedReplies := by
      rw [BusSystem.queuedReplies, front]
      exact List.mem_filterMap.mpr ⟨request, List.mem_cons_self, asked.symm⟩
    rcases wired.queued owed with ⟨caller, waits, empty⟩ | ⟨gone, closed⟩
    · refine ⟨bus, _, _, _, processed, .filled waits empty, ?_⟩
      have room : (s.replies reply).send result = .sent ⟨[result], some 1, true⟩ := by
        rw [empty]
        rfl
      simp only [serve, taken, processed, answer, room]
    · refine ⟨bus, _, _, _, processed, .ignored gone, ?_⟩
      have refused : (s.replies reply).send result = .disconnected :=
        Channel.send_eq_disconnected_iff.mpr closed
      simp only [serve, taken, processed, answer, refused]

/-- Every turn of the actor is one of these. -/
theorem Wired.serve_spec (wired : s.Wired) {next : Option SubId}
    (taken : s.next (.serve next) = some t) : ∃ request rest bus answer replies senders,
      s.core.requests.queue = request :: rest ∧
      s.core.bus.process request.message next = (bus, answer) ∧
      Answered s answer replies senders ∧ s.core.requests.connected = true ∧
      t =
        { core := { s.core with
            bus := bus
            requests := { s.core.requests with queue := rest }
            owner := BusSystem.grant s.core.owner answer }
          replies := replies
          senders := senders
          sent := s.sent
          log := s.log ++ [⟨request.message, next, answer⟩] } := by
  -- The actor serves only while it is in its loop, and only what is in the channel.
  obtain ⟨connected, served⟩ := Option.ite_none_right_eq_some.mp taken
  cases front : s.core.requests.queue with
  | nil => simp [serve, Channel.tryRecv, front] at served
  | cons request rest =>
    obtain ⟨bus, answer, replies, senders, processed, answered, result⟩ := wired.serves front next
    exact ⟨request, rest, bus, answer, replies, senders, rfl, processed, answered, connected,
      Option.some.inj (served.symm.trans result)⟩

/-- A caller that receives takes the one reply in its channel. -/
theorem Wired.receives (wired : s.Wired) {reply : ReplyId} (taken : s.receive reply = some t) :
    ∃ caller result rest, s.core.calls reply = .waiting caller ∧
      (s.replies reply).queue = result :: rest ∧
      ((∃ id, result = .ok (.subId id) ∧ t =
          { s.close reply caller (.returned result) { s.replies reply with queue := rest } with
            core := (s.core.finish reply caller (.returned result)).newHandle ⟨id, reply⟩ }) ∨
        (∀ id, result ≠ .ok (.subId id)) ∧
          t = s.close reply caller (.returned result) { s.replies reply with queue := rest }) := by
  -- A call waits, and then either its channel holds the reply or it is still owed.
  unfold receive at taken
  split at taken
  · rename_i caller waits
    split at taken
    · rename_i result channel received
      obtain ⟨front, rest⟩ := Channel.tryRecv_eq_some_iff.mp received
      refine ⟨caller, result, channel.queue, waits, front, ?_⟩
      rw [← rest]
      split at taken
      · rename_i id
        exact .inl ⟨id, rfl, (Option.some.inj taken).symm⟩
      · rename_i other
        exact .inr ⟨fun id same => other id same, (Option.some.inj taken).symm⟩
    · -- An empty channel still has its sender, so there is nothing to fail on.
      rename_i nothing
      have empty : (s.replies reply).queue = [] := Channel.tryRecv_eq_none_iff.mp nothing
      rw [if_pos (wired.senders reply (wired.owed waits empty))] at taken
      simp at taken
  · simp at taken

/-- A step that uses no reply channel is a step of the clients and the actor alone. -/
theorem next_quiet (quiet : BusSystem.Quiet act) : s.next act = (s.core.next act).map s.client := by
  cases act <;> first | rfl | exact quiet.elim

/-- The next request will use a channel that nobody has touched. -/
theorem Wired.fresh (wired : s.Wired) :
    s.core.calls s.core.nextReply = .unused :=
  (BusSystem.seen_eq_iff rfl).mp (wired.protocol.fresh _ (Nat.le_refl _))

/-- What the clients and the actor do with the reply channels, they do without them. -/
theorem Wired.viewed (wired : s.Wired) (step : ReplyStep s act t) :
    SystemStep s.view act t.view := by
  -- Both systems take the same step, so the two results are compared component by component.
  obtain ⟨picked, taken⟩ := step
  refine ⟨picked, ?_⟩
  -- Only the steps that use a reply channel have to be compared one by one.
  by_cases quiet : BusSystem.Quiet act
  · rw [next_quiet quiet] at taken
    obtain ⟨core, stepped, rfl⟩ := Option.map_eq_some_iff.mp taken
    have empty : (s.replies s.core.nextReply).queue = [] := by
      rw [(wired.unused _ wired.fresh).1]
      rfl
    exact BusSystem.next_withReplies quiet empty stepped
  · cases act with
    | receive reply =>
      obtain ⟨caller, result, rest, waits, front, shape⟩ := wired.receives taken
      have seen : s.view.calls reply = .replied caller result :=
        BusSystem.seen_of_front waits front
      have ended : (s.core.finish reply caller (.returned result)).withReplies
          (Function.update s.replies reply
            (Channel.disconnect { s.replies reply with queue := rest })) =
          s.view.finish reply caller (.returned result) := BusSystem.withReplies_finish rfl _
      show s.view.receive reply = some t.view
      unfold BusSystem.receive
      rw [seen]
      rcases shape with ⟨id, rfl, rfl⟩ | ⟨plain, rfl⟩
      · simp only [← ended]
        rfl
      · simp only [← ended]
        rfl
    | abandon reply =>
      have gone : s.abandon reply = some t := taken
      unfold abandon at gone
      split at gone
      · rename_i caller waits
        obtain rfl := Option.some.inj gone
        have ended : (s.core.finish reply caller .abandoned).withReplies
            (Function.update s.replies reply (s.replies reply).disconnect) =
            s.view.finish reply caller .abandoned := BusSystem.withReplies_finish rfl _
        show s.view.abandon reply = _
        unfold BusSystem.abandon
        -- The reply may have arrived already, but nobody will take it.
        cases front : (s.replies reply).queue with
        | nil =>
          have seen : s.view.calls reply = .waiting caller :=
            BusSystem.seen_eq_waiting_iff.mpr ⟨waits, front⟩
          rw [seen]
          simp only [← ended]
          rfl
        | cons result rest =>
          have seen : s.view.calls reply = .replied caller result :=
            BusSystem.seen_of_front waits front
          rw [seen]
          simp only [← ended]
          rfl
      · simp at gone
    | serve next =>
      obtain ⟨request, rest, bus, answer, replies, senders, front, processed, answered, connected,
        rfl⟩ := wired.serve_spec taken
      have listening : s.view.requests.connected = true := connected
      have received : s.view.requests.tryRecv =
          some (request, { s.core.requests with queue := rest }) :=
        Channel.tryRecv_eq_some_iff.mpr ⟨front, rfl⟩
      have same : s.view.bus.process request.message next = (bus, answer) := processed
      show (if s.view.requests.connected then s.view.serve next else none) = _
      rw [if_pos listening]
      unfold BusSystem.serve
      simp only [received, same]
      cases answered with
      | unasked => rfl
      | @filled reply result caller waits empty =>
        have seen : s.view.calls reply = .waiting caller :=
          BusSystem.seen_eq_waiting_iff.mpr ⟨waits, by rw [empty]; rfl⟩
        simp only [BusSystem.deliver, seen]
        simp only [view, BusSystem.withReplies, BusSystem.seen_filled waits]
      | @ignored reply result gone =>
        have seen : s.view.calls reply = .abandoned := (BusSystem.seen_eq_iff rfl).mpr gone
        simp only [BusSystem.deliver, seen]
        rfl
    | _ => exact absurd trivial quiet

/-- A call that ends closes its channel and leaves the others as they are. -/
theorem Wired.of_closed {reply : ReplyId} {state : CallState τ}
    {channel : Channel (BusResult (Reply τ))} (wired : s.Wired) (protocol : t.view.Protocol)
    (calls : t.core.calls = Function.update s.core.calls reply state)
    (replies : t.replies = Function.update s.replies reply channel.disconnect)
    (senders : t.senders = s.senders) (requests : t.core.requests = s.core.requests)
    (ended : state.caller = none) (used : state ≠ .unused) : t.Wired where
  protocol := protocol
  plain := by
    intro other caller result replied
    rw [calls] at replied
    by_cases same : other = reply
    · subst same
      obtain rfl : state = .replied caller result := by simpa using replied
      simp [CallState.caller] at ended
    · exact wired.plain other caller result (by simpa [same] using replied)
  unused := by
    -- The call that ends was made, so an unused channel is another one.
    intro other fresh
    rw [calls] at fresh
    have apart : other ≠ reply := by
      rintro rfl
      exact used (by simpa using fresh)
    rw [replies, senders, Function.update_of_ne apart]
    exact wired.unused other (by simpa [apart] using fresh)
  waiting := by
    intro other caller waits
    rw [calls] at waits
    have apart : other ≠ reply := by
      rintro rfl
      obtain rfl : state = .waiting caller := by simpa using waits
      simp [CallState.caller] at ended
    rw [replies, Function.update_of_ne apart]
    exact wired.waiting other caller (by simpa [apart] using waits)
  abandoned := by
    intro other gone
    rw [calls] at gone
    rw [replies]
    by_cases same : other = reply
    · subst same
      rw [Function.update_self]
      rfl
    · rw [Function.update_of_ne same]
      exact wired.abandoned other (by simpa [same] using gone)
  senders := by
    rw [BusSystem.queuedReplies, requests, senders]
    exact wired.senders

/-- What a step does that uses no reply channel: it may post requests on untouched channels. -/
theorem Wired.quiet_spec (wired : s.Wired) (quiet : BusSystem.Quiet act)
    (step : ReplyStep s act t) : ∃ core posted, t = s.client core ∧ core.bus = s.core.bus ∧
      core.requests.queue = s.core.requests.queue ++ posted ∧
      (∀ request ∈ posted, ∀ reply, request.message.replyTo = some reply →
        reply = s.core.nextReply) ∧
      ∀ reply, core.calls reply = s.core.calls reply ∨
        reply = s.core.nextReply ∧ ∃ caller, core.calls reply = .waiting caller := by
  -- That the actor is in its loop follows from the step, which needs a live handle.
  have client : ∀ next, act ≠ .serve next := by
    rintro next rfl
    exact quiet.elim
  have viewed := wired.viewed step
  have connected := wired.protocol.connected_of_step viewed
  obtain ⟨posted, queue, waits⟩ := wired.protocol.posts viewed client
  have taken := step.taken
  rw [next_quiet quiet] at taken
  obtain ⟨core, stepped, rfl⟩ := Option.map_eq_some_iff.mp taken
  have inner : SystemStep s.core act core := ⟨step.picked, stepped⟩
  exact ⟨core, posted, rfl, (inner.effect.client client).1, queue,
    fun request there reply asked => (waits request there reply asked).1,
    BusSystem.quiet_calls inner wired.protocol.roomy connected quiet⟩

/-- A step that uses no reply channel keeps the channels. -/
theorem Wired.of_quiet (wired : s.Wired) (quiet : BusSystem.Quiet act)
    (step : ReplyStep s act t) : t.Wired := by
  -- No channel changes, and the states of the calls change for the next call at most.
  have protocol := wired.protocol.step (wired.viewed step)
  obtain ⟨core, posted, rfl, -, queue, asks, calls⟩ := wired.quiet_spec quiet step
  -- At most the next call has begun, and it waits on an empty channel.
  refine ⟨protocol, ?_, ?_, ?_, ?_, ?_⟩
  · intro reply caller result replied
    rcases calls reply with same | ⟨-, other, waits⟩
    · exact wired.plain reply caller result (same ▸ replied)
    · simp [client, waits] at replied
  · intro reply fresh
    rcases calls reply with same | ⟨-, other, waits⟩
    · exact wired.unused reply (same ▸ fresh)
    · simp [client, waits] at fresh
  · intro reply caller waits
    rcases calls reply with same | ⟨rfl, -⟩
    · exact wired.waiting reply caller (same ▸ waits)
    · exact ⟨[], (wired.unused _ wired.fresh).1⟩
  · intro reply gone
    rcases calls reply with same | ⟨-, other, waits⟩
    · exact wired.abandoned reply (same ▸ gone)
    · simp [client, waits] at gone
  · intro reply owed
    -- A new request carries the sender of its own channel.
    have where_ : reply ∈ s.core.queuedReplies ∨ reply = s.core.nextReply := by
      have among : reply ∈ core.queuedReplies := owed
      rw [BusSystem.queuedReplies, queue, List.filterMap_append] at among
      rcases List.mem_append.mp among with old | new
      · exact .inl old
      · obtain ⟨request, there, asked⟩ := List.mem_filterMap.mp new
        exact .inr (asks request there reply asked)
    rcases where_ with old | rfl
    · exact wired.senders reply old
    · exact (wired.unused _ wired.fresh).2

/-- Serving a request fills at most the channel of that request. -/
theorem Wired.of_served (wired : s.Wired) {next : Option SubId}
    (step : ReplyStep s (.serve next) t) : t.Wired := by
  -- The three ways of a reply are gone through; only one of them puts something in a channel.
  have protocol := wired.protocol.step (wired.viewed step)
  obtain ⟨request, rest, bus, answer, replies, senders, front, processed, answered, -, rfl⟩ :=
    wired.serve_spec step.taken
  have asked := s.core.bus.process_answers request.message next
  rw [processed] at asked
  have owed := BusSystem.queuedReplies_front front
  -- The sender that is used up belongs to no request that is still queued.
  have unsent : ∀ reply result, answer = some (reply, result) →
      ∀ other ∈ rest.filterMap (fun request => request.message.replyTo),
        Function.update s.senders reply false other = true := by
    rintro reply result rfl other later
    have there : other ∈ s.core.queuedReplies := owed ▸ List.mem_append_right _ later
    have distinct : other ≠ reply := by
      rintro rfl
      exact wired.protocol.not_later front asked.symm later
    rw [Function.update_of_ne distinct]
    exact wired.senders other there
  cases answered with
  | unasked =>
    refine ⟨protocol, wired.plain, wired.unused, wired.waiting, wired.abandoned, ?_⟩
    intro other later
    exact wired.senders other (owed ▸ List.mem_append_right _ later)
  | @filled reply result caller waits empty =>
    refine ⟨protocol, wired.plain, ?_, ?_, ?_, unsent reply result rfl⟩
    · intro other fresh
      have distinct : other ≠ reply := by
        rintro rfl
        simp [waits] at fresh
      simpa [distinct] using wired.unused other fresh
    · intro other who waiting
      by_cases same : other = reply
      · exact ⟨[result], by simp [same]⟩
      · simpa [same] using wired.waiting other who waiting
    · intro other gone
      have distinct : other ≠ reply := by
        rintro rfl
        simp [waits] at gone
      simpa [distinct] using wired.abandoned other gone
  | @ignored reply result gone =>
    refine ⟨protocol, wired.plain, ?_, wired.waiting, wired.abandoned, unsent reply result rfl⟩
    intro other fresh
    have distinct : other ≠ reply := by
      rintro rfl
      simp [gone] at fresh
    simpa [distinct] using wired.unused other fresh

/-- Every step keeps the reply channels wired. -/
theorem Wired.step (wired : s.Wired) (step : ReplyStep s act t) : t.Wired := by
  -- A call that ends closes its own channel, whichever way it ends.
  have protocol := wired.protocol.step (wired.viewed step)
  by_cases quiet : BusSystem.Quiet act
  · exact wired.of_quiet quiet step
  · cases act with
    | receive reply =>
      obtain ⟨caller, result, rest, waits, front, shape⟩ := wired.receives step.taken
      rcases shape with ⟨id, rfl, rfl⟩ | ⟨plain, rfl⟩
      · exact wired.of_closed protocol rfl rfl rfl rfl rfl (by simp)
      · exact wired.of_closed protocol rfl rfl rfl rfl rfl (by simp)
    | abandon reply =>
      have gone : s.abandon reply = some t := step.taken
      unfold abandon at gone
      split at gone
      · obtain rfl := Option.some.inj gone
        exact wired.of_closed protocol rfl rfl rfl rfl rfl (by simp)
      · simp at gone
    | serve next => exact wired.of_served step
    | _ => exact absurd trivial quiet

end ReplySystem

end Imputio
