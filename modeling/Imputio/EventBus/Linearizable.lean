import Imputio.Lib.Linearizability
import Imputio.EventBus.Answers
import Imputio.EventBus.Delivery

/-! The bus is linearizable for the callers of its handles, in the order of their calls. -/

namespace Imputio

open Transition Linearizability

variable {build : Build} {τ : Type*}

/-- What the callers of the bus see: requests that are made, and their results. -/
abbrev BusHistory (build : Build) (τ : Type*) :=
  List (Visible ReplyId (EventBusMessage build τ) (BusResult (Reply τ)))

/-- A processed message is the effect of the call that waits for its reply. -/
def busCalls : Interface (Processed build τ) ReplyId (EventBusMessage build τ)
    (BusResult (Reply τ)) where
  call := fun entry => entry.message.replyTo
  op := Processed.message
  result := fun entry => entry.reply.map Prod.snd

namespace BusSystem

/-- The request that an action makes a call with, if it makes one. -/
def asks (s : BusSystem build τ) : ClientAction τ → Option (EventBusMessage build τ)
  | .getSubscriber => some (.subscribe s.nextReply)
  | .subscribe _ => some (.subscribe s.nextReply)
  | .poll handle => (s.handles handle).map fun sub => .poll sub.id s.nextReply
  | .batchPoll handle => (s.handles handle).map fun sub => .batchPoll sub.id s.nextReply
  | .publishEvent event => some (.pushEvent event s.nextReply)
  | _ => none

/-- An action of a client puts the request of its call at the end of the channel. -/
structure PostsAsked (s : BusSystem build τ) (act : ClientAction τ) (t : BusSystem build τ)
    (posted : List (Request build τ)) : Prop where
  queue : t.requests.queue = s.requests.queue ++ posted
  replies : (posted.filterMap fun request => request.message.replyTo) =
    ((s.asks act).map fun _ => s.nextReply).toList
  messages : ∀ request ∈ posted, ∀ reply, request.message.replyTo = some reply →
    s.asks act = some request.message

variable {s t : BusSystem build τ} {act : ClientAction τ}

/-- A step that sends nothing puts nothing into the channel. -/
theorem PostsAsked.silent (same : t.requests = s.requests) (nothing : s.asks act = none) :
    ∃ posted, PostsAsked s act t posted :=
  ⟨[], by simp [same], by simp [nothing], by simp⟩

/-- A message that nobody waits for is put at the end. -/
theorem PostsAsked.sent (kept : s.Protocol) (connected : s.requests.connected = true)
    {message : EventBusMessage build τ} {subscription : Option ReplyId} {u : BusSystem build τ}
    (same : u.requests = s.requests) (quiet : message.replyTo = none)
    (nothing : s.asks act = none) :
    ∃ posted, PostsAsked s act (u.send message subscription) posted := by
  rw [send_eq (same ▸ kept.roomy) (same ▸ connected)]
  exact ⟨[⟨message, subscription⟩], by rw [same], by simp [quiet, nothing], by simp [quiet]⟩

/-- A call puts its request at the end. -/
theorem PostsAsked.called (kept : s.Protocol) (connected : s.requests.connected = true)
    {caller : Caller} {message : ReplyId → EventBusMessage build τ}
    {subscription : Option ReplyId} (asked : s.asks act = some (message s.nextReply))
    (waits : (message s.nextReply).replyTo = some s.nextReply) :
    ∃ posted, PostsAsked s act (s.call caller message subscription) posted := by
  rw [call_eq kept.roomy connected]
  exact ⟨[⟨message s.nextReply, subscription⟩], rfl, by simp [waits, asked], by simp [asked]⟩

/-- A step of a client that uses no reply channel posts what it asks for, and nothing else. -/
theorem Protocol.posts_asked (kept : s.Protocol) (step : SystemStep s act t)
    (quiet : Quiet act) : ∃ posted, PostsAsked s act t posted := by
  -- One case for each action; the conditions on the handles play no part.
  have connected := kept.connected_of_step step
  have taken := step.taken
  cases act with
  | getSubscriber =>
    obtain ⟨-, rfl⟩ := enabled_iff.mp taken
    exact PostsAsked.called kept connected rfl rfl
  | subscribe handle =>
    obtain ⟨sub, -, rfl⟩ := Option.map_eq_some_iff.mp taken
    exact PostsAsked.called kept connected rfl rfl
  | unsubscribe handle id =>
    obtain ⟨sub, -, rfl⟩ := Option.map_eq_some_iff.mp taken
    exact PostsAsked.sent kept connected rfl rfl rfl
  | poll handle =>
    obtain ⟨sub, held, rfl⟩ := Option.map_eq_some_iff.mp taken
    exact PostsAsked.called kept connected (by simp [asks, held]) rfl
  | batchPoll handle =>
    obtain ⟨sub, held, rfl⟩ := Option.map_eq_some_iff.mp taken
    exact PostsAsked.called kept connected (by simp [asks, held]) rfl
  | publishEvent event =>
    obtain ⟨-, rfl⟩ := enabled_iff.mp taken
    exact PostsAsked.called kept connected rfl rfl
  | cleanup =>
    simp only [next] at taken
    split at taken
    -- With deferred deletion, `cleanup` is a message of its own.
    · obtain ⟨-, rfl⟩ := enabled_iff.mp taken
      exact PostsAsked.sent kept connected rfl rfl rfl
    · cases taken
  | dropSub handle =>
    simp only [next, dropSub] at taken
    split at taken
    · cases taken
    · split at taken
      · split at taken
        -- Only the last handle of a subscription tells the actor.
        · obtain rfl := Option.some.inj taken
          exact PostsAsked.sent kept connected rfl rfl rfl
        · obtain rfl := Option.some.inj taken
          exact PostsAsked.silent rfl rfl
      · cases taken
  | cloneSub handle =>
    obtain ⟨sub, -, rfl⟩ := Option.map_eq_some_iff.mp taken
    exact PostsAsked.silent rfl rfl
  | stop =>
    obtain ⟨-, rfl⟩ := enabled_iff.mp taken
    exact ⟨[], by simp [Channel.disconnect], rfl, by simp⟩
  | receive => exact quiet.elim
  | abandon => exact quiet.elim
  | serve => exact quiet.elim
  -- What is left only counts the handles that publish or make other handles.
  | _ =>
    obtain ⟨-, rfl⟩ := enabled_iff.mp taken
    exact PostsAsked.silent rfl rfl

end BusSystem

namespace ReplySystem

/-- What a step shows to the callers: a call that is made, or what a call returns. -/
def shows (s : ReplySystem build τ) :
    ClientAction τ → Option (Visible ReplyId (EventBusMessage build τ) (BusResult (Reply τ)))
  | .receive reply =>
    (s.receive reply).bind fun t =>
      match t.core.calls reply with
      | .returned result => some (.returned reply result)
      | _ => none
  | act => (s.core.asks act).map (.invoked s.core.nextReply)

/-- What the callers have seen, from the start of the actor. -/
def history (acts : List (ClientAction τ)) : BusHistory build τ :=
  observed next shows newWithHandle acts

/-- What has been processed explains what the callers have seen so far. -/
structure Explained (s : ReplySystem build τ) (seen : BusHistory build τ) : Prop where
  formed : WellFormed seen
  linear : Linearizes busCalls BusStep .new seen s.log s.core.bus
  -- Calls take effect in the order in which they are made.
  made : seen.filterMap Visible.made = busCalls.calls s.log ++ s.core.queuedReplies
  pending : ∀ request ∈ s.core.requests.queue, ∀ reply, request.message.replyTo = some reply →
    .invoked reply request.message ∈ seen
  ended : ∀ reply ∈ seen.filterMap Visible.ended, ∃ result, s.core.calls reply = .returned result

variable {s t : ReplySystem build τ} {act : ClientAction τ} {seen : BusHistory build τ}

/-- Nothing has been seen when the actor starts. -/
theorem newWithHandle_explained : Explained (newWithHandle : ReplySystem build τ) [] where
  formed := .nil
  linear := .nil
  made := rfl
  pending := by simp [newWithHandle, BusSystem.newWithHandle, Channel.unbounded]
  ended := by simp

/-- The next call has not been seen yet. -/
theorem Explained.fresh (explained : s.Explained seen) (wired : s.Wired) (logged : s.Logged) :
    s.core.nextReply ∉ seen.filterMap Visible.made := by
  -- A call that has been made was given its number, and the next number is not in use.
  rw [explained.made, List.mem_append]
  rintro (processed | owed)
  · obtain ⟨entry, among, asked⟩ := Interface.mem_calls.mp processed
    obtain ⟨result, -, settled⟩ := logged.settled entry among _ asked
    exact settled.made wired rfl
  · have unused := wired.fresh
    rcases wired.queued owed with ⟨caller, waits, -⟩ | ⟨gone, -⟩
    · simp [unused] at waits
    · simp [unused] at gone

/-- A step that uses no reply channel shows the call that it makes, if it makes one. -/
theorem Explained.of_quiet (explained : s.Explained seen) (wired : s.Wired) (logged : s.Logged)
    (quiet : BusSystem.Quiet act) (step : ReplyStep s act t) :
    t.Explained (seen ++ (s.shows act).toList) := by
  -- What is posted and what is shown come from the same action, which makes a call or does not.
  have shown : s.shows act = (s.core.asks act).map (.invoked s.core.nextReply) := by
    cases act <;> first | rfl | exact quiet.elim
  have fresh := explained.fresh wired logged
  have unprocessed : s.core.nextReply ∉ busCalls.calls s.log := fun among =>
    fresh (explained.made ▸ List.mem_append_left _ among)
  obtain ⟨posted, asked⟩ := wired.protocol.posts_asked (wired.viewed step) quiet
  have asks : s.view.asks act = s.core.asks act := rfl
  obtain ⟨core, others, rfl, bus, queue, -, calls⟩ := wired.quiet_spec quiet step
  obtain rfl : others = posted := by
    have both : s.core.requests.queue ++ others = s.core.requests.queue ++ posted :=
      queue.symm.trans asked.queue
    exact List.append_cancel_left both
  have linear : Linearizes busCalls BusStep .new (seen ++ (s.shows act).toList) s.log core.bus := by
    rw [bus, shown]
    -- A call that is made has had no effect yet, so the order still explains what is seen.
    cases s.core.asks act with
    | none => simpa using explained.linear
    | some message => exact explained.linear.invoke unprocessed message
  refine ⟨?_, linear, ?_, ?_, ?_⟩
  · rw [shown]
    cases s.core.asks act with
    | none => simpa using explained.formed
    | some message => exact explained.formed.invoke fresh message
  · have owed : core.queuedReplies = s.core.queuedReplies ++
        ((s.core.asks act).map fun _ => s.core.nextReply).toList := by
      rw [BusSystem.queuedReplies, queue, List.filterMap_append, asked.replies]
      rfl
    change _ = busCalls.calls s.log ++ core.queuedReplies
    rw [owed, List.filterMap_append, explained.made, shown, List.append_assoc]
    cases s.core.asks act <;> rfl
  · intro request among reply carries
    have there : request ∈ s.core.requests.queue ++ others := queue ▸ among
    rcases List.mem_append.mp there with old | new
    · exact List.mem_append_left _ (explained.pending request old reply carries)
    · -- The request is the one of the call that is made now.
      have message := asked.messages request new reply carries
      have named : reply = s.view.nextReply := by
        have listed : reply ∈ (others.filterMap fun request => request.message.replyTo) :=
          List.mem_filterMap.mpr ⟨request, new, carries⟩
        rw [asked.replies, message] at listed
        simpa using listed
      rw [shown, ← asks, message, named]
      exact List.mem_append_right _ (List.mem_singleton.mpr rfl)
  · intro reply among
    have before : reply ∈ seen.filterMap Visible.ended := by
      rw [shown] at among
      cases asked : s.core.asks act with
      | none => simpa [asked] using among
      | some message =>
        rw [asked, List.filterMap_append, List.mem_append] at among
        exact among.resolve_right (by simp [Visible.ended])
    -- A call that has returned is not the one that is made now.
    obtain ⟨result, returned⟩ := explained.ended reply before
    rcases calls reply with same | ⟨rfl, -⟩
    · exact ⟨result, same.trans returned⟩
    · exact absurd returned (by simp [wired.fresh])

/-- A call that is given up shows nothing. -/
theorem Explained.of_abandoned (explained : s.Explained seen) {reply : ReplyId}
    (gone : s.abandon reply = some t) : t.Explained seen := by
  -- Only the state of a waiting call changes.
  unfold abandon at gone
  split at gone
  · rename_i caller waits
    obtain rfl := Option.some.inj gone
    refine ⟨explained.formed, explained.linear, explained.made, explained.pending, ?_⟩
    -- The call that is given up has not returned.
    intro other among
    obtain ⟨result, returned⟩ := explained.ended other among
    have aside : other ≠ reply := by
      rintro rfl
      simp [waits] at returned
    exact ⟨result, by simpa [close, BusSystem.finish, aside] using returned⟩
  · simp at gone

/-- A call that takes its reply returns the result of its request. -/
theorem Explained.of_received (explained : s.Explained seen) (wired : s.Wired) (logged : s.Logged)
    {reply : ReplyId} (received : s.receive reply = some t) :
    t.Explained (seen ++ (s.shows (.receive reply)).toList) := by
  -- Whether or not a handle is made, the call has returned, and nothing else is different.
  obtain ⟨caller, result, rest, waits, front, shape⟩ := wired.receives received
  have after : t.log = s.log ∧ t.core.bus = s.core.bus ∧ t.core.requests = s.core.requests ∧
      t.core.calls = Function.update s.core.calls reply (.returned result) := by
    rcases shape with ⟨id, rfl, rfl⟩ | ⟨-, rfl⟩
    · exact ⟨rfl, rfl, rfl, rfl⟩
    · exact ⟨rfl, rfl, rfl, rfl⟩
  obtain ⟨log, bus, requests, calls⟩ := after
  have shown : s.shows (.receive reply) = some (.returned reply result) := by
    simp [shows, received, calls]
  -- The reply was put into the channel when the request was processed.
  obtain ⟨entry, among, answered⟩ := logged.got reply result (.inl ⟨caller, rest, waits, front⟩)
  have step := logged.processed.forall_mem (fun _ _ _ step => step.answers) entry among
  have asked : entry.message.replyTo = some reply := by rw [← step, answered]; rfl
  have invoked := explained.linear.asked entry among reply asked
  -- The call is waiting, so it has not returned before.
  have running : reply ∉ seen.filterMap Visible.ended := by
    intro ended
    obtain ⟨value, returned⟩ := explained.ended reply ended
    simp [waits] at returned
  rw [shown]
  refine ⟨explained.formed.respond invoked running result, ?_, ?_, ?_, ?_⟩
  · rw [log, bus]
    exact explained.linear.respond ⟨entry, among, asked, by simp [busCalls, answered]⟩
  · have owed : t.core.queuedReplies = s.core.queuedReplies := by
      rw [BusSystem.queuedReplies, requests, BusSystem.queuedReplies]
    rw [List.filterMap_append, explained.made, log, owed]
    simp [Visible.made]
  · rw [requests]
    intro request there other carries
    exact List.mem_append_left _ (explained.pending request there other carries)
  · intro other ended
    rw [List.filterMap_append, List.mem_append] at ended
    rw [calls]
    by_cases same : other = reply
    · exact ⟨result, by simp [same]⟩
    · obtain ⟨value, returned⟩ :=
        explained.ended other (ended.resolve_right (by simpa [Visible.ended, eq_comm] using same))
      exact ⟨value, by simpa [same] using returned⟩

/-- The actor makes one call take effect, or a message that nobody waits for. -/
theorem Explained.of_served (explained : s.Explained seen) (wired : s.Wired) (logged : s.Logged)
    {next : Option SubId} (step : ReplyStep s (.serve next) t) : t.Explained seen := by
  -- The oldest request is logged, which is where its call takes effect.
  obtain ⟨request, rest, bus, answer, replies, senders, front, processed, answered, -, rfl⟩ :=
    wired.serve_spec step.taken
  -- Processing the oldest request is a step of the bus alone.
  have turn : BusStep s.core.bus ⟨request.message, next, answer⟩ bus :=
    ⟨fun reply asks => step.picked next request rest reply rfl front asks, processed⟩
  have owed := BusSystem.queuedReplies_front front
  have here : request ∈ s.core.requests.queue := front ▸ List.mem_cons_self
  refine ⟨explained.formed, explained.linear.takeEffect turn ?_, ?_, ?_, explained.ended⟩
  · -- The call was made, and it has had no effect since its request was in the channel.
    intro reply asked
    refine ⟨explained.pending request here reply asked, fun earlier => ?_⟩
    obtain ⟨entry, among, carries⟩ := Interface.mem_calls.mp earlier
    have asks : request.message.replyTo = some reply := asked
    exact logged.done entry among reply carries (by rw [owed, asks]; exact List.mem_cons_self)
  -- The call moves from those that are owed a reply to those that have had their effect.
  · rw [explained.made, owed, Interface.calls_concat, List.append_assoc]
    rfl
  · intro other there reply carries
    exact explained.pending other (front ▸ List.mem_cons_of_mem _ there) reply carries

/-- Every step keeps the explanation. -/
theorem Explained.step (explained : s.Explained seen) (wired : s.Wired) (logged : s.Logged)
    (step : ReplyStep s act t) : t.Explained (seen ++ (s.shows act).toList) := by
  -- Only two kinds of steps touch a reply channel from the outside, and one from the inside.
  by_cases quiet : BusSystem.Quiet act
  · exact explained.of_quiet wired logged quiet step
  · cases act with
    | receive reply => exact explained.of_received wired logged step.taken
    | abandon reply =>
      rw [show s.shows (.abandon reply) = none from rfl]
      simpa using explained.of_abandoned step.taken
    | serve next =>
      rw [show s.shows (.serve next) = none from rfl]
      simpa using explained.of_served wired logged step
    | _ => exact absurd trivial quiet

/-- What has been processed explains what the callers have seen, in every run. -/
theorem explained_of_run {acts : List (ClientAction τ)}
    (run : Run ReplyStep (newWithHandle : ReplySystem build τ) acts s) :
    s.Explained (history acts) := by
  -- What is seen is read off the run, step by step.
  induction run with
  | nil => exact newWithHandle_explained
  | snoc earlier step ih =>
    obtain ⟨wired, logged⟩ := logged_of_run earlier
    have replayed : Run (Steps next) newWithHandle _ _ := earlier.mono fun _ _ _ step => step.taken
    rw [history, replayed.observed_snoc]
    exact ih.step wired logged step

end ReplySystem

open ReplySystem

/--
The bus is linearizable, whatever its callers do and however they are scheduled.

The messages that the actor has processed are a sequential run of the bus which gives every call
the result that it returned, and in which the calls take effect in the order they were made in. A
call that returned before another one was made therefore takes effect before it.
-/
theorem bus_linearizable {acts : List (ClientAction τ)} {s : ReplySystem build τ}
    (run : Run ReplyStep newWithHandle acts s) :
    WellFormed (history acts : BusHistory build τ) ∧
      Linearizes busCalls BusStep .new (history acts) s.log s.core.bus ∧
      busCalls.calls s.log <+: (history acts : BusHistory build τ).filterMap Visible.made := by
  have explained := explained_of_run run
  exact ⟨explained.formed, explained.linear, explained.made ▸ List.prefix_append _ _⟩

/-- A subscriber polls, gives up, and polls again after an event was published. -/
def polledTwice : List (ClientAction Nat) :=
  [.getSubscriber, .serve (some 1), .receive 0, .getPublisher, .poll 0, .publishEvent 7, .abandon 1,
    .serve none, .serve none, .receive 2, .batchPoll 0, .serve none, .receive 3]

/-- What the subscription with id one lives through in these actions. -/
def polledTwicePeriod : List (Processed .immediate Nat) :=
  [⟨.poll 1 1, none, some (1, .ok (.event none))⟩,
    ⟨.pushEvent 7 2, none, some (2, .ok .unit)⟩,
    ⟨.batchPoll 1 3, none, some (3, .ok (.events [7]))⟩]

/-- The actions are possible, in this order, and the subscription stays until their end. -/
theorem polledTwice_run :
    ∃ s : ReplySystem .immediate Nat, Run ReplyStep newWithHandle polledTwice s ∧
      busCalls.calls s.log = [0, 1, 2, 3] ∧ ∃ sub : Subscription s.log,
        sub.id = 1 ∧ sub.grant.message = .subscribe 0 ∧ sub.period = polledTwicePeriod := by
  -- The run is written out, and each step is possible by computation.
  have run : Run ReplyStep (newWithHandle : ReplySystem .immediate Nat) polledTwice _ :=
    .cons ⟨by simp, rfl⟩ <|
    .cons ⟨fun _ _ _ _ same _ _ => by cases same; rfl, rfl⟩ <|
    .cons ⟨by simp, rfl⟩ <| .cons ⟨by simp, rfl⟩ <| .cons ⟨by simp, rfl⟩ <|
    .cons ⟨by simp, rfl⟩ <| .cons ⟨by simp, rfl⟩ <|
    .cons ⟨fun _ _ _ _ _ front asked => by cases front; simp at asked, rfl⟩ <|
    .cons ⟨fun _ _ _ _ _ front asked => by cases front; simp at asked, rfl⟩ <|
    .cons ⟨by simp, rfl⟩ <| .cons ⟨by simp, rfl⟩ <|
    .cons ⟨fun _ _ _ _ _ front asked => by cases front; simp at asked, rfl⟩ <|
    .cons ⟨by simp, rfl⟩ .nil
  -- The queue of the subscription is empty, then it holds the event, then it is empty again.
  have stays : Run (Into (EventBus.Live 1) BusStep) (EventBus.new.subscribe (some 1)).2
      polledTwicePeriod _ :=
    .cons ⟨⟨by simp, rfl⟩, [], rfl⟩ (.cons ⟨⟨by simp, rfl⟩, [7], rfl⟩
      (.single ⟨⟨by simp, rfl⟩, [], rfl⟩))
  refine ⟨_, run, rfl, ?_⟩
  exact ⟨{ id := 1, before := [], grant := ⟨.subscribe 0, some 1, some (0, .ok (.subId 1))⟩
           period := polledTwicePeriod, after := [], ungranted := .new
           opened := (EventBus.new.subscribe (some 1)).2, current := _, trace_eq := rfl
           reached := .nil, granted := ⟨fun _ _ => rfl, rfl⟩, grants := ⟨0, rfl⟩
           stays := stays }, rfl, rfl, rfl⟩

/-- The second poll was made after the publication had returned, so it takes effect later. -/
theorem bus_linearizable_polledTwice :
    ∃ s : ReplySystem .immediate Nat, Run ReplyStep newWithHandle polledTwice s ∧
      Linearizes busCalls BusStep .new (history polledTwice) s.log s.core.bus ∧
      busCalls.calls s.log = [0, 1, 2, 3] := by
  obtain ⟨s, run, calls, -⟩ := polledTwice_run
  exact ⟨s, run, (bus_linearizable run).2.1, calls⟩

/--
Whatever was published before a batch poll began has been handed out when that poll has its effect.

The subscription was returned before the publication began, and the publication had returned before
the poll began. While the subscription stays, its polls up to this one have then handed out exactly
what was published to it before this one, and the event is part of that.
-/
theorem published_before_polled {acts : List (ClientAction τ)} {s : ReplySystem build τ}
    (run : Run ReplyStep newWithHandle acts s) (sub : Subscription s.log)
    {subscribe publish poll : ReplyId} {event : τ} {entry : Processed build τ}
    (asked : sub.grant.message = .subscribe subscribe)
    (subscribed : Precedes (.returned subscribe (.ok (.subId sub.id)))
      (.invoked publish (.pushEvent event publish)) (history acts : BusHistory build τ))
    (published : Precedes (.returned publish (.ok .unit))
      (.invoked poll (.batchPoll sub.id poll)) (history acts : BusHistory build τ))
    (there : entry ∈ sub.period) (polled : entry.message = .batchPoll sub.id poll) :
    ∃ earlier later, sub.period = earlier ++ entry :: later ∧
      (∃ push ∈ earlier, push.message = .pushEvent event publish) ∧
      (earlier ++ [entry]).flatMap (Processed.delivered sub.id) =
        earlier.flatMap Processed.published := by
  -- The order of the effects respects real time, so that it can be cut at the three calls.
  have explained := explained_of_run run
  have realTime := explained.linear.realTime
  obtain ⟨earlier, later, period⟩ := List.append_of_mem there
  have atPoll : busCalls.call entry = some poll := by
    simp [busCalls, polled, EventBusMessage.replyTo]
  have atGrant : busCalls.call sub.grant = some subscribe := by
    simp [busCalls, asked, EventBusMessage.replyTo]
  -- The calls that had their effects, with the subscription and the poll among them.
  have calls : busCalls.calls s.log = busCalls.calls sub.before ++ subscribe ::
      (busCalls.calls earlier ++ poll :: busCalls.calls (later ++ sub.after)) := by
    have log := congrArg busCalls.calls sub.trace_eq
    rw [log, period]
    simp [Interface.calls, atPoll, atGrant]
  -- Real time puts the publication before the poll and after the subscription.
  have atLog : poll ∈ busCalls.calls s.log := by rw [calls]; simp
  have before := realTime _ _ _ _ published atLog
  have after := realTime _ _ _ _ subscribed (before.subset List.mem_cons_self)
  have distinct := explained.linear.once
  rw [calls] at before after distinct
  -- The publication had its effect between the two.
  obtain ⟨push, among, carries⟩ := Interface.mem_calls.mp (mem_between distinct after before)
  have processed : push ∈ s.log := by
    rw [sub.trace_eq, period]
    simp [among]
  -- The effect is that of the call, which was made with this event.
  have made := explained.linear.asked push processed publish carries
  have message : push.message = .pushEvent event publish :=
    explained.formed.op_unique made (subscribed.subset (by simp))
  exact ⟨earlier, later, period, ⟨push, among, message⟩, sub.drained period polled⟩

/-- The publication has had its effect before the poll that was made after its return. -/
theorem published_before_polled_twice :
    ∃ s : ReplySystem .immediate Nat, Run ReplyStep newWithHandle polledTwice s ∧
      ∃ sub : Subscription s.log, sub.id = 1 ∧ ∃ earlier later,
        sub.period = earlier ++ ⟨.batchPoll 1 3, none, some (3, .ok (.events [7]))⟩ :: later ∧
        ∃ push ∈ earlier, push.message = .pushEvent 7 2 := by
  -- The subscription has returned before the publication is made, and that before the poll.
  obtain ⟨s, run, -, sub, id, asked, period⟩ := polledTwice_run
  have subscribed : Precedes (.returned 0 (.ok (.subId 1))) (.invoked 2 (.pushEvent 7 2))
      (history polledTwice : BusHistory .immediate Nat) :=
    .cons _ (.cons_cons _ (.cons _ (.cons_cons _ (List.nil_sublist _))))
  have published : Precedes (.returned 2 (.ok .unit)) (.invoked 3 (.batchPoll 1 3))
      (history polledTwice : BusHistory .immediate Nat) :=
    .cons _ (.cons _ (.cons _ (.cons _ (.cons_cons _ (.cons_cons _ (List.nil_sublist _))))))
  have there : ⟨.batchPoll 1 3, none, some (3, .ok (.events [7]))⟩ ∈ sub.period := by
    rw [period]
    exact .tail _ (.tail _ (.head _))
  obtain ⟨earlier, later, split, push, -⟩ :=
    published_before_polled run sub asked (id ▸ subscribed) (id ▸ published) there (id ▸ rfl)
  exact ⟨s, run, sub, id, earlier, later, split, push⟩

end Imputio
