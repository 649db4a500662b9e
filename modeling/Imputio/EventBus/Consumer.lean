import Imputio.EventBus.Matchers
import Imputio.Lib.FirstMatch

/-! A polling loop takes its subscription's events in order, up to the first one that matches. -/

namespace Imputio

open Transition FirstMatch

variable {build : Build} {τ S : Type*}

section Bus

variable {bus after : EventBus τ} {entry : Processed build τ} {id : SubId} {reply : ReplyId}

/-- What a message takes from a queue and what it leaves is what was there and what it adds. -/
theorem BusStep.flow {queue : List τ} (step : BusStep bus entry after)
    (disjoint : bus.PoolDisjoint) (before : bus.eventQueues id = some queue)
    (stays : after.Live id) :
    ∃ rest, after.eventQueues id = some rest ∧
      queue ++ entry.published = entry.delivered id ++ rest := by
  -- One case per kind of message: publishing adds, polling takes, and the rest does neither.
  cases step.effect with
  | @granted reply granted free =>
    -- A free id has no queue.
    have apart : id ≠ granted := by
      rintro rfl
      simp [disjoint id free] at before
    refine ⟨queue, ?_, List.append_nil _⟩
    simpa [EventBus.subscribe, apart] using before
  | exhausted => exact ⟨queue, before, List.append_nil _⟩
  | removed =>
    refine ⟨queue, ?_, List.append_nil _⟩
    rw [EventBus.unsubscribe_eventQueues, if_neg (EventBus.unsubscribe_live.mp stays).1]
    exact before
  | marked => exact ⟨queue, before, List.append_nil _⟩
  | @pushed event reply next =>
    refine ⟨queue ++ [event], ?_, rfl⟩
    simp [EventBus.pushToEventQueues, before]
  | @polled named reply next =>
    by_cases same : named = id
    · subst same
      refine ⟨queue.tail, by simp [EventBus.poll_eventQueues, before], ?_⟩
      -- A single poll takes the front of the queue.
      cases queue <;>
        simp [Processed.delivered, Processed.published, EventBus.poll, before, Except.map]
    · refine ⟨queue, ?_, ?_⟩
      · rw [EventBus.poll_eventQueues, if_neg fun equal => same equal.symm]
        exact before
      · cases other : bus.eventQueues named with
        | none => simp [Processed.delivered, Processed.published, EventBus.poll, other, Except.map]
        | some items =>
          cases items <;> simp [Processed.delivered, Processed.published, EventBus.poll, other,
            Except.map, same]
  | @drained named reply next =>
    by_cases same : named = id
    · subst same
      refine ⟨[], by simp [EventBus.batchPoll_eventQueues, before], ?_⟩
      simp [Processed.delivered, Processed.published, EventBus.batchPoll, before, Except.map,
        EventBus.drain_eq]
    · refine ⟨queue, ?_, ?_⟩
      · rw [EventBus.batchPoll_eventQueues, if_neg fun equal => same equal.symm]
        exact before
      · cases other : bus.eventQueues named <;>
          simp [Processed.delivered, Processed.published, EventBus.batchPoll, other, Except.map,
            same]
  | cleaned =>
    refine ⟨queue, ?_, List.append_nil _⟩
    rw [EventBus.cleanup_eventQueues, if_neg (EventBus.cleanup_live.mp stays).1]
    exact before

/-- A message that does not name an id as a poll does takes nothing from its queue. -/
theorem delivered_of_not_takes (takes : entry.message.takesFrom id = none) :
    entry.delivered id = [] := by
  -- Only the two kinds of polls deliver events.
  obtain ⟨message, next, answer⟩ := entry
  cases message with
  | poll named reply =>
    have apart : named ≠ id := by simpa [EventBusMessage.takesFrom] using takes
    unfold Processed.delivered
    split <;> simp_all
  | batchPoll named reply =>
    have apart : named ≠ id := by simpa [EventBusMessage.takesFrom] using takes
    unfold Processed.delivered
    split <;> simp_all
  | _ => rfl

/-- A poll is answered with a reply of its own kind, which carries what it delivers. -/
theorem BusStep.polls {method : PollMethod} {next : Option SubId}
    {answer : Option (ReplyId × BusResult (Reply τ))}
    (step : BusStep bus (⟨method.message id reply, next, answer⟩ : Processed build τ) after) :
    ∃ result, answer = some (reply, .ok result) ∧ method.Returns result ∧ result.contents =
      (⟨method.message id reply, next, answer⟩ : Processed build τ).delivered id := by
  -- What is delivered is read off the two answers of a poll, with and without a queue.
  obtain ⟨-, processed⟩ := step
  -- Both ways of polling succeed, with or without a queue.
  cases method with
  | poll =>
    obtain ⟨-, rfl⟩ := Prod.mk.inj processed
    cases found : bus.eventQueues id with
    | none =>
      refine ⟨.event none, by simp [Except.map], trivial, ?_⟩
      simp [Reply.contents, Processed.delivered, PollMethod.message, Except.map]
    | some queue =>
      refine ⟨.event queue.head?, by simp [Except.map], trivial, ?_⟩
      cases queue <;>
        simp [Reply.contents, Processed.delivered, PollMethod.message, Except.map]
  | batchPoll =>
    obtain ⟨-, rfl⟩ := Prod.mk.inj processed
    cases found : bus.eventQueues id with
    | none =>
      refine ⟨.events [], by simp [Except.map], trivial, ?_⟩
      simp [Reply.contents, Processed.delivered, PollMethod.message, Except.map]
    | some queue =>
      refine ⟨.events queue, ?_, trivial, ?_⟩
      · simp [Except.map, EventBus.drain_eq]
      · simp [Reply.contents, Processed.delivered, PollMethod.message, Except.map,
          EventBus.drain_eq]

end Bus

open BusSystem

section Frames

variable {s t : BusSystem build τ} {act : ClientAction τ} {handle : HandleId} {sub : SubHandle}
  {reply : ReplyId}

/-- A handle stays as it is until it is dropped. -/
theorem BusSystem.Protocol.keeps_handle (kept : s.Protocol) (step : SystemStep s act t)
    (held : s.handles handle = some sub) (spared : act ≠ .dropSub handle) :
    t.handles handle = some sub := by
  -- The number of a new handle was not in use before.
  have apart : handle ≠ s.nextHandle := by
    rintro rfl
    simp [kept.unmade _ (Nat.le_refl _)] at held
  have connected := kept.connected_of_step step
  cases step_move step with
  | called =>
    rw [call_eq kept.roomy connected]
    exact held
  | unsubscribed =>
    rw [(s.send_rest _ _).2.2.1]
    exact held
  | cleaned =>
    rw [(s.send_rest _ _).2.2.1]
    exact held
  | counted => exact held
  | received => exact held
  | granted => exact (Function.update_of_ne apart _ _).trans held
  | abandoned => exact held
  | cloned => exact (Function.update_of_ne apart _ _).trans held
  | @dropped other =>
    have distinct : handle ≠ other := fun same => spared (congrArg _ same.symm)
    simpa [distinct] using held
  | @announced other =>
    have distinct : handle ≠ other := fun same => spared (congrArg _ same.symm)
    rw [(send_rest _ _ _).2.2.1]
    simpa [distinct] using held
  | served =>
    rw [(deliver_rest _ _).2.2.1]
    exact held
  | stopped => exact held

/-- A call stays as it is until its reply is sent, it is completed, or it is given up. -/
theorem BusSystem.Protocol.keeps_call (kept : s.Protocol) (step : SystemStep s act t)
    (client : ∀ next, act ≠ .serve next) (used : s.calls reply ≠ .unused)
    (pending : act ≠ .receive reply) (wanted : act ≠ .abandon reply) :
    t.calls reply = s.calls reply := by
  -- The number of a new call was not in use before.
  have apart : reply ≠ s.nextReply := Nat.ne_of_lt (kept.made used)
  have connected := kept.connected_of_step step
  cases step_move step with
  | called =>
    rw [call_eq kept.roomy connected]
    simp [apart]
  | unsubscribed => rw [(s.send_rest _ _).2.1]
  | cleaned => rw [(s.send_rest _ _).2.1]
  | counted => rfl
  | @received other =>
    have distinct : reply ≠ other := fun same => pending (congrArg _ same.symm)
    simp [finish, distinct]
  | @granted other =>
    have distinct : reply ≠ other := fun same => pending (congrArg _ same.symm)
    exact Function.update_of_ne distinct _ _
  | @abandoned other =>
    have distinct : reply ≠ other := fun same => wanted (congrArg _ same.symm)
    simp [finish, distinct]
  | cloned => rfl
  | dropped => rfl
  | announced => rw [(send_rest _ _ _).2.1]
  | served => exact absurd rfl (client _)
  | stopped => rfl

end Frames

/-- The handler of a loop finds exactly the replies that carry a matching event. -/
def PollMatcher.Tests (m : PollMatcher τ S) (matcher : τ → Bool) : Prop :=
  ∀ result, m.pollFn.Returns result →
    (m.handler result = true ↔ Matches matcher result.contents)

namespace MatcherSystem

/-- The events of a reply that was sent to the loop and that it has not looked at yet. -/
def inFlight (s : MatcherSystem build τ S) : List τ :=
  match s.loop with
  | .awaiting reply =>
    match s.system.calls reply with
    | .replied _ (.ok result) => result.contents
    | _ => []
  | _ => []

/-- All events that have left the queue for the loop. -/
def handed (s : MatcherSystem build τ S) : List τ := s.taken ++ s.inFlight

/-- The loop was left with a reply that has a match, and no reply before it had one. -/
def Stopped (m : PollMatcher τ S) (matcher : τ → Bool) (s : MatcherSystem build τ S) : Prop :=
  ∃ quiet result, m.pollFn.Returns result ∧ s.taken = quiet ++ result.contents ∧
    ¬ Matches matcher quiet ∧ Matches matcher result.contents

/-- What the loop has seen and said, for each place where it can stand. -/
inductive Phase (m : PollMatcher τ S) (matcher : τ → Bool) (s : MatcherSystem build τ S) : Prop
  | polling (atTop : s.loop = .polling) (quiet : ¬ Matches matcher s.taken)
      (silent : s.notices = [])
  | waiting {reply : ReplyId} {caller : Caller} (waits : s.loop = .awaiting reply)
      (sent : s.system.calls reply = .waiting caller) (quiet : ¬ Matches matcher s.taken)
      (silent : s.notices = [])
  | replied {reply : ReplyId} {caller : Caller} {result : Reply τ}
      (waits : s.loop = .awaiting reply)
      (found : s.system.calls reply = .replied caller (.ok result))
      (kind : m.pollFn.Returns result) (quiet : ¬ Matches matcher s.taken)
      (silent : s.notices = [])
  | exited (left : s.loop = .exited) (stopped : s.Stopped m matcher) (silent : s.notices = [])
  | returned (left : s.loop = .returned) (stopped : s.Stopped m matcher)
      (notified : s.notices = m.notify.toList)

/-- A loop that consumes a subscription alone has taken the front part of its events. -/
structure Follows (m : PollMatcher τ S) (id : SubId) (matcher : τ → Bool) (queue : List τ)
    (s : MatcherSystem build τ S) : Prop where
  protocol : s.system.Protocol
  disjoint : s.system.bus.PoolDisjoint
  held : ∃ sub, s.system.handles m.handle = some sub ∧ sub.id = id
  -- No other request uses the reply channel that the loop waits on.
  requested : ∀ reply, s.loop = .awaiting reply → ∀ request ∈ s.system.requests.queue,
    request.message.replyTo = some reply → request.message = m.pollFn.message id reply
  stream : ∃ rest, s.system.bus.eventQueues id = some rest ∧
    queue ++ s.published = s.handed ++ rest
  phase : s.Phase m matcher

variable {m : PollMatcher τ S} {s t : MatcherSystem build τ S} {id : SubId} {matcher : τ → Bool}
  {queue : List τ} {act : ClientAction τ} {system : BusSystem build τ}

/-- What is in flight depends on the call that the loop waits for and on nothing else. -/
theorem inFlight_congr (loop : t.loop = s.loop)
    (calls : ∀ reply, s.loop = .awaiting reply → t.system.calls reply = s.system.calls reply) :
    t.inFlight = s.inFlight := by
  -- Only a loop that waits has something in flight, and that is in its call.
  unfold inFlight
  rw [loop]
  cases waits : s.loop with
  | awaiting reply => simp only [calls reply waits]
  | _ => rfl

/-- The phase depends on the call that the loop waits for and on the loop's own state. -/
theorem Phase.congr (phase : s.Phase m matcher) (loop : t.loop = s.loop)
    (taken : t.taken = s.taken) (notices : t.notices = s.notices)
    (calls : ∀ reply, s.loop = .awaiting reply → t.system.calls reply = s.system.calls reply) :
    t.Phase m matcher := by
  -- Each phase is carried over as it is.
  cases phase with
  | polling atTop quiet silent =>
    exact .polling (loop.trans atTop) (taken ▸ quiet) (notices.trans silent)
  | waiting waits sent quiet silent =>
    exact .waiting (loop.trans waits) ((calls _ waits).trans sent) (taken ▸ quiet)
      (notices.trans silent)
  | replied waits found kind quiet silent =>
    exact .replied (loop.trans waits) ((calls _ waits).trans found) kind (taken ▸ quiet)
      (notices.trans silent)
  | exited left stopped silent =>
    refine .exited (loop.trans left) ?_ (notices.trans silent)
    rwa [Stopped, taken]
  | returned left stopped notified =>
    refine .returned (loop.trans left) ?_ (notices.trans notified)
    rwa [Stopped, taken]

/-- At the top of the loop nothing has matched, nothing is in flight, and nothing was said. -/
theorem Phase.at_top (phase : s.Phase m matcher) (atTop : s.loop = .polling) :
    s.inFlight = [] ∧ ¬ Matches matcher s.taken ∧ s.notices = [] := by
  -- Of the five phases only the first one stands at the top of the loop.
  refine ⟨by simp [inFlight, atTop], ?_⟩
  -- The other phases stand elsewhere.
  cases phase with
  | polling _ quiet silent => exact ⟨quiet, silent⟩
  | waiting waits => simp [atTop] at waits
  | replied waits => simp [atTop] at waits
  | exited left => simp [atTop] at left
  | returned left => simp [atTop] at left

/-- While the loop waits, its call waits too or has a reply, and nothing was found before. -/
theorem Phase.at_call {reply : ReplyId} (phase : s.Phase m matcher)
    (waits : s.loop = .awaiting reply) :
    ¬ Matches matcher s.taken ∧ s.notices = [] ∧
      ((∃ caller, s.system.calls reply = .waiting caller) ∨ ∃ caller result,
        s.system.calls reply = .replied caller (.ok result) ∧ m.pollFn.Returns result) := by
  -- Only two phases are those of a loop that waits, and their call is this one.
  cases phase with
  | polling atTop => simp [atTop] at waits
  | waiting waits' sent quiet silent =>
    obtain rfl : _ = reply := MatcherLoop.awaiting.inj (waits'.symm.trans waits)
    exact ⟨quiet, silent, .inl ⟨_, sent⟩⟩
  | replied waits' found kind quiet silent =>
    obtain rfl : _ = reply := MatcherLoop.awaiting.inj (waits'.symm.trans waits)
    exact ⟨quiet, silent, .inr ⟨_, _, found, kind⟩⟩
  | exited left => simp [left] at waits
  | returned left => simp [left] at waits

/-- Between the loop and its notice a match has been taken, and nothing was said. -/
theorem Phase.at_exit (phase : s.Phase m matcher) (left : s.loop = .exited) :
    s.Stopped m matcher ∧ s.notices = [] := by
  -- The other phases stand elsewhere.
  cases phase with
  | polling atTop => simp [left] at atTop
  | waiting waits => simp [left] at waits
  | replied waits => simp [left] at waits
  | exited _ stopped silent => exact ⟨stopped, silent⟩
  | returned done => simp [left] at done

/-- In the end a match has been taken, and the notice was sent. -/
theorem Phase.at_end (phase : s.Phase m matcher) (done : s.loop = .returned) :
    s.Stopped m matcher ∧ s.notices = m.notify.toList := by
  -- The other phases stand elsewhere.
  cases phase with
  | polling atTop => simp [done] at atTop
  | waiting waits => simp [done] at waits
  | replied waits => simp [done] at waits
  | exited left => simp [done] at left
  | returned _ stopped notified => exact ⟨stopped, notified⟩

/-- While the loop waits, its call is open. -/
theorem Phase.used {reply : ReplyId} (phase : s.Phase m matcher)
    (waits : s.loop = .awaiting reply) : s.system.calls reply ≠ .unused := by
  -- The call has its reply or does not, and it was made in both cases.
  obtain ⟨-, -, ⟨caller, sent⟩ | ⟨caller, result, found, -⟩⟩ := phase.at_call waits
  · simp [sent]
  · simp [found]

/-- The call that the loop waits for is not touched by the other clients. -/
theorem Follows.client_calls (follows : s.Follows m id matcher queue)
    (client : ∀ next, act ≠ .serve next) (spares : m.spares s act)
    (step : SystemStep s.system act system) (reply : ReplyId) (waits : s.loop = .awaiting reply) :
    system.calls reply = s.system.calls reply := by
  -- The two steps that could end the call are those that the loop keeps for itself.
  refine follows.protocol.keeps_call step client (follows.phase.used waits) ?_ ?_
  · rintro rfl
    simp [PollMatcher.spares, waits] at spares
  · rintro rfl
    simp [PollMatcher.spares, waits] at spares

/-- A step of another client hands the loop nothing. -/
theorem Follows.handed_client (follows : s.Follows m id matcher queue)
    (client : ∀ next, act ≠ .serve next) (spares : m.spares s act)
    (step : SystemStep s.system act system) : (s.aside act system).handed = s.handed := by
  -- What was taken stays, and what is in flight is in a call that nobody else touches.
  have flight : (s.aside act system).inFlight = s.inFlight :=
    inFlight_congr rfl (follows.client_calls client spares step)
  rw [handed, flight]
  rfl

/-- A step of another client changes nothing for the loop. -/
theorem Follows.of_client (follows : s.Follows m id matcher queue)
    (client : ∀ next, act ≠ .serve next) (spares : m.spares s act)
    (step : SystemStep s.system act system) : Follows m id matcher queue (s.aside act system) := by
  -- The bus is as it was, and the request of the loop is still the one it has sent.
  obtain ⟨sub, held, named⟩ := follows.held
  have bus : system.bus = s.system.bus := (step.effect.client client).1
  have quiet : s.system.publishes act = [] := by
    cases act with
    | serve next => exact absurd rfl (client next)
    | _ => rfl
  have calls := follows.client_calls client spares step
  refine ⟨follows.protocol.step step, ?_, ⟨sub, ?_, named⟩, ?_, ?_,
    follows.phase.congr rfl rfl rfl calls⟩
  · rw [aside_system, bus]
    exact follows.disjoint
  · refine follows.protocol.keeps_handle step held ?_
    rintro rfl
    simp [PollMatcher.spares] at spares
  · -- A new request has a new reply channel.
    obtain ⟨posted, appended, new⟩ := follows.protocol.posts step client
    intro reply waits request among asks
    rw [aside_system, appended] at among
    rcases List.mem_append.mp among with old | fresh
    · exact follows.requested reply waits request old asks
    · obtain ⟨rfl, -⟩ := new request fresh reply asks
      exact absurd (follows.protocol.fresh _ (Nat.le_refl _)) (follows.phase.used waits)
  · obtain ⟨rest, there, whole⟩ := follows.stream
    refine ⟨rest, (congrArg (fun bus => bus.eventQueues id) bus).trans there, ?_⟩
    rw [follows.handed_client client spares step, aside_published, quiet, List.append_nil]
    exact whole

section Served

variable {next : Option SubId} {request : Request build τ} {rest : List (Request build τ)}
  {answer : Option (ReplyId × BusResult (Reply τ))} {bus : EventBus τ}

/-- A poll is answered on the reply channel that it carries. -/
theorem replyTo_of_takesFrom {message : EventBusMessage build τ} {reply : ReplyId}
    (takes : message.takesFrom id = some reply) : message.replyTo = some reply := by
  -- Only the two kinds of polls take anything.
  cases message with
  | poll named own => exact (Option.ite_none_right_eq_some.mp takes).2
  | batchPoll named own => exact (Option.ite_none_right_eq_some.mp takes).2
  | _ => simp [EventBusMessage.takesFrom] at takes

/-- The request of a poll takes events from the queue that it names. -/
theorem takesFrom_message (method : PollMethod) (reply : ReplyId) :
    (method.message id reply : EventBusMessage build τ).takesFrom id = some reply := by
  cases method <;> simp [PollMethod.message, EventBusMessage.takesFrom]

/-- What serving a message publishes is what the processed message publishes. -/
theorem publishes_serve (front : s.system.requests.queue = request :: rest) :
    s.system.publishes (.serve next) =
      (⟨request.message, next, answer⟩ : Processed build τ).published := by
  -- Only a message with an event publishes one, on both sides.
  rw [BusSystem.publishes, front]
  obtain ⟨message, subscription⟩ := request
  cases message <;> rfl

/-- A message that takes nothing from the queue leaves the call of the loop as it is. -/
theorem Follows.keeps_call (follows : s.Follows m id matcher queue)
    (front : s.system.requests.queue = request :: rest)
    (turn : BusStep s.system.bus ⟨request.message, next, answer⟩ bus)
    (takes : request.message.takesFrom id = none) {reply : ReplyId}
    (waits : s.loop = .awaiting reply) {served : BusSystem build τ}
    (calls : served.calls = s.system.calls) :
    (served.deliver answer).calls reply = s.system.calls reply := by
  -- An answer changes one call, which is that of the request being served.
  rcases served.deliver_calls answer reply with same | ⟨caller, result, sent, -, -⟩
  · rw [same, calls]
  · -- The reply channel of the loop belongs to its own request.
    have asks : request.message.replyTo = some reply := by
      rw [← turn.answers, sent]
      rfl
    have own := follows.requested reply waits request (front ▸ List.mem_cons_self) asks
    rw [own, takesFrom_message] at takes
    simp at takes

/-- The request of the loop is answered with what is taken from the queue. -/
theorem Follows.answered (follows : s.Follows m id matcher queue)
    (front : s.system.requests.queue = request :: rest)
    (turn : BusStep s.system.bus ⟨request.message, next, answer⟩ bus) {reply : ReplyId}
    (takes : request.message.takesFrom id = some reply) (waits : s.loop = .awaiting reply)
    {served : BusSystem build τ} (calls : served.calls = s.system.calls) :
    s.inFlight = [] ∧ ¬ Matches matcher s.taken ∧ s.notices = [] ∧
      ∃ caller result, (served.deliver answer).calls reply = .replied caller (.ok result) ∧
        m.pollFn.Returns result ∧ result.contents =
          (⟨request.message, next, answer⟩ : Processed build τ).delivered id := by
  -- A request that takes from the queue is the loop's own, and the loop still waits for it.
  have asks := replyTo_of_takesFrom takes
  have owed : reply ∈ s.system.queuedReplies := by
    rw [BusSystem.queuedReplies_front front, asks]
    exact List.mem_append_left _ List.mem_cons_self
  have own := follows.requested reply waits request (front ▸ List.mem_cons_self) asks
  rw [own] at turn ⊢
  obtain ⟨result, rfl, kind, carries⟩ := turn.polls
  obtain ⟨quiet, silent, ⟨caller, sent⟩ | ⟨caller, old, found, -⟩⟩ := follows.phase.at_call waits
  · refine ⟨?_, quiet, silent, caller, result, ?_, kind, carries⟩
    · simp [inFlight, waits, sent]
    · simp [BusSystem.deliver, calls, sent]
  · -- A call that has its reply is not owed another one.
    exact absurd owed (follows.protocol.unowed found)

/-- Serving the oldest message hands the loop what the message takes from its queue. -/
theorem Follows.handed_served (follows : s.Follows m id matcher queue)
    (served : BusSystem build τ) (sole : SoleConsumer id s (.others (.serve next)))
    (front : s.system.requests.queue = request :: rest)
    (turn : BusStep s.system.bus ⟨request.message, next, answer⟩ bus)
    (calls : served.calls = s.system.calls) :
    (s.aside (.serve next) (served.deliver answer)).Phase m matcher ∧
      (s.aside (.serve next) (served.deliver answer)).handed = s.handed ++
        (⟨request.message, next, answer⟩ : Processed build τ).delivered id := by
  -- Whether the message takes from the queue decides if the loop is handed anything.
  cases takes : request.message.takesFrom id with
  | none =>
    have same : ∀ reply, s.loop = .awaiting reply →
        (served.deliver answer).calls reply = s.system.calls reply :=
      fun reply waits => follows.keeps_call front turn takes waits calls
    have flight : (s.aside (.serve next) (served.deliver answer)).inFlight = s.inFlight :=
      inFlight_congr rfl same
    refine ⟨follows.phase.congr rfl rfl rfl same, ?_⟩
    rw [handed, flight, delivered_of_not_takes takes, List.append_nil]
    rfl
  | some reply =>
    have waits := sole next request rest reply rfl front takes
    obtain ⟨nothing, quiet, silent, caller, result, found, kind, carries⟩ :=
      follows.answered front turn takes waits calls
    refine ⟨.replied waits found kind quiet silent, ?_⟩
    rw [handed, handed, nothing, List.append_nil, ← carries]
    simp [inFlight, waits, found]

/-- A message that the actor serves keeps the loop in step with its subscription. -/
theorem Follows.of_served (follows : s.Follows m id matcher queue)
    (sole : SoleConsumer id s (.others (.serve next)))
    (step : SystemStep s.system (.serve next) system) (stays : system.bus.Live id) :
    Follows m id matcher queue (s.aside (.serve next) system) := by
  -- Serving moves the queue and the call, and the sole consumer ties the one to the other.
  obtain ⟨sub, held, named⟩ := follows.held
  have protocol := follows.protocol.step step
  have kept := follows.protocol.keeps_handle step held (by simp)
  cases BusSystem.step_move step with
  | called client => exact absurd rfl (client next)
  | counted client => exact absurd rfl (client next)
  | @served next request rest answer bus connected front turn =>
    set served : BusSystem build τ := { s.system with
      bus := bus
      requests := { s.system.requests with queue := rest }
      owner := BusSystem.grant s.system.owner answer } with isServed
    obtain ⟨sameBus, -, -, requests, -⟩ := served.deliver_rest answer
    obtain ⟨phase, hands⟩ := follows.handed_served served sole front turn rfl
    refine ⟨protocol, ?_, ⟨sub, kept, named⟩, ?_, ?_, phase⟩
    · rw [aside_system, sameBus]
      exact turn.poolDisjoint follows.disjoint
    · intro reply waits other among
      have queued : other ∈ rest := by simpa [requests] using among
      exact follows.requested reply waits other (front ▸ List.mem_cons_of_mem _ queued)
    · -- The queue gives what the loop is handed, and takes what is published.
      rw [sameBus] at stays
      obtain ⟨before, there, whole⟩ := follows.stream
      obtain ⟨left, now, flow⟩ := turn.flow follows.disjoint there stays
      refine ⟨left, (congrArg (fun bus => bus.eventQueues id) sameBus).trans now, ?_⟩
      rw [hands, aside_published, publishes_serve front, ← List.append_assoc, whole,
        List.append_assoc, flow, List.append_assoc]

end Served

/-- The call of a polling method puts its request at the end and waits for the reply. -/
theorem polled_eq (kept : s.system.Protocol) {sub : SubHandle}
    (held : s.system.handles m.handle = some sub)
    (step : SystemStep s.system (m.pollFn.call m.handle) system) :
    system.calls s.system.nextReply = .waiting (.subHandle m.handle) ∧
      system.requests.queue = s.system.requests.queue ++
        [⟨m.pollFn.message sub.id s.system.nextReply, some sub.subscription⟩] := by
  -- The handle is alive, so that the request gets into the channel at once.
  have connected := kept.connected (BusSystem.alive_of_held held)
  -- Both methods send their request in the same way.
  have called : system = s.system.call (.subHandle m.handle) (m.pollFn.message sub.id)
      (some sub.subscription) := by
    have taken := step.taken
    cases method : m.pollFn with
    | poll =>
      simp only [method, PollMethod.call, BusSystem.next, held, Option.map_some] at taken
      exact (Option.some.inj taken).symm
    | batchPoll =>
      simp only [method, PollMethod.call, BusSystem.next, held, Option.map_some] at taken
      exact (Option.some.inj taken).symm
  rw [called, BusSystem.call_eq kept.roomy connected]
  exact ⟨Function.update_self _ _ _, rfl⟩

/-- Sending the request of a poll hands the loop nothing yet. -/
theorem Follows.handed_polled (follows : s.Follows m id matcher queue) (atTop : s.loop = .polling)
    (step : SystemStep s.system (m.pollFn.call m.handle) system) :
    handed { s with system := system, loop := .awaiting s.system.nextReply } = s.handed := by
  -- The new call has no reply yet, so that nothing is in flight.
  obtain ⟨sub, held, -⟩ := follows.held
  obtain ⟨waits, -⟩ := polled_eq follows.protocol held step
  rw [handed, handed, (follows.phase.at_top atTop).1]
  simp [inFlight, waits]

/-- Sending the request of a poll keeps the loop in step. -/
theorem Follows.of_polled (follows : s.Follows m id matcher queue) (atTop : s.loop = .polling)
    (step : SystemStep s.system (m.pollFn.call m.handle) system) :
    Follows m id matcher queue
      { s with system := system, loop := .awaiting s.system.nextReply } := by
  -- A client's step leaves the bus alone, and what is new is one request with a new reply.
  obtain ⟨sub, held, named⟩ := follows.held
  have client : ∀ next, m.pollFn.call m.handle ≠ (.serve next : ClientAction τ) := by
    intro next
    cases m.pollFn <;> simp [PollMethod.call]
  have spared : m.pollFn.call m.handle ≠ (.dropSub m.handle : ClientAction τ) := by
    cases m.pollFn <;> simp [PollMethod.call]
  have bus : system.bus = s.system.bus := (step.effect.client client).1
  obtain ⟨waits, queued⟩ := polled_eq follows.protocol held step
  obtain ⟨-, quiet, silent⟩ := follows.phase.at_top atTop
  refine ⟨follows.protocol.step step, ?_, ⟨sub, ?_, named⟩, ?_, ?_,
    .waiting rfl waits quiet silent⟩
  · show system.bus.PoolDisjoint
    rw [bus]
    exact follows.disjoint
  · exact follows.protocol.keeps_handle step held spared
  · -- The reply channel is new, so no older request has it.
    intro reply named' request among asks
    obtain rfl : s.system.nextReply = reply := MatcherLoop.awaiting.inj named'
    have among' : request ∈ system.requests.queue := among
    rw [queued] at among'
    rcases List.mem_append.mp among' with old | new
    · have owed : s.system.nextReply ∈ s.system.queuedReplies :=
        List.mem_filterMap.mpr ⟨request, old, asks⟩
      have unused := follows.protocol.fresh _ (Nat.le_refl s.system.nextReply)
      rcases follows.protocol.awaited _ owed with ⟨caller, waiting⟩ | gone
      · simp [unused] at waiting
      · simp [unused] at gone
    · obtain rfl := List.mem_singleton.mp new
      rw [named]
  · obtain ⟨rest, there, whole⟩ := follows.stream
    refine ⟨rest, (congrArg (fun bus => bus.eventQueues id) bus).trans there, ?_⟩
    rw [follows.handed_polled atTop step]
    exact whole

/-- The reply that the loop finds is one of its own kind, and it is no error. -/
theorem Phase.got (phase : s.Phase m matcher) {reply : ReplyId} {caller : Caller}
    {result : BusResult (Reply τ)} (waits : s.loop = .awaiting reply)
    (found : s.system.calls reply = .replied caller result) :
    ∃ events, result = .ok events ∧ m.pollFn.Returns events ∧ s.inFlight = events.contents ∧
      ¬ Matches matcher s.taken ∧ s.notices = [] := by
  -- The call was sent or has a reply, and here it has one.
  obtain ⟨quiet, silent, ⟨other, sent⟩ | ⟨other, events, found', kind⟩⟩ := phase.at_call waits
  · simp [sent] at found
  · obtain ⟨rfl, rfl⟩ : other = caller ∧ .ok events = result := by simpa [found'] using found
    exact ⟨events, rfl, kind, by simp [inFlight, waits, found], quiet, silent⟩

/-- The call of the loop ends only when the loop looks at its reply. -/
theorem Phase.not_failed (phase : s.Phase m matcher) {reply : ReplyId}
    {result : BusResult (Reply τ)} (waits : s.loop = .awaiting reply)
    (found : s.system.calls reply = .returned result) : False := by
  -- A call that has returned is in neither of the two states that the phase allows.
  obtain ⟨-, -, ⟨caller, sent⟩ | ⟨caller, events, found', -⟩⟩ := phase.at_call waits
  · simp [sent] at found
  · simp [found'] at found

/-- Looking at a reply takes what was in flight. -/
theorem Follows.handed_resumed (follows : s.Follows m id matcher queue) {reply : ReplyId}
    {caller : Caller} {result : BusResult (Reply τ)} (waits : s.loop = .awaiting reply)
    (found : s.system.calls reply = .replied caller result) :
    handed (m.afterPoll { s with system := system } result) = s.handed := by
  obtain ⟨events, rfl, -, flight, -⟩ := follows.phase.got waits found
  rw [handed, handed, flight]
  -- Wherever the loop goes on, nothing is in flight any more.
  cases tested : m.handler events <;> simp [PollMatcher.afterPoll, inFlight, tested]

/-- Looking at a reply keeps the loop in step, and the loop is left exactly at a match. -/
theorem Follows.of_resumed (follows : s.Follows m id matcher queue) (tests : m.Tests matcher)
    {reply : ReplyId} {caller : Caller} {result : BusResult (Reply τ)}
    (waits : s.loop = .awaiting reply) (found : s.system.calls reply = .replied caller result)
    (step : SystemStep s.system (.receive reply) system) :
    Follows m id matcher queue (m.afterPoll { s with system := system } result) := by
  -- The events go from the reply to what is taken, and the handler says which phase follows.
  have bus : system.bus = s.system.bus := (step.effect.client (by simp)).1
  have same : handed (m.afterPoll { s with system := system } result) = s.handed :=
    follows.handed_resumed waits found
  obtain ⟨sub, held, named⟩ := follows.held
  obtain ⟨events, rfl, kind, flight, quiet, silent⟩ := follows.phase.got waits found
  obtain ⟨rest, there, whole⟩ := follows.stream
  refine ⟨follows.protocol.step step, ?_, ⟨sub, ?_, named⟩, ?_, ⟨rest, ?_, whole.trans ?_⟩, ?_⟩
  · show system.bus.PoolDisjoint
    rw [bus]
    exact follows.disjoint
  · exact follows.protocol.keeps_handle step held (by simp)
  · intro other awaiting
    cases tested : m.handler events <;> simp [PollMatcher.afterPoll, tested] at awaiting
  · exact (congrArg (fun bus => bus.eventQueues id) bus).trans there
  · rw [same]
  · cases tested : m.handler events with
    | true =>
      have matched := (tests events kind).mp tested
      refine .exited ?_ ⟨s.taken, events, kind, rfl, quiet, matched⟩ silent
      simp [PollMatcher.afterPoll, tested]
    | false =>
      have unmatched : ¬ Matches matcher events.contents := by
        rw [← tests events kind, tested]
        exact Bool.false_ne_true
      refine .polling ?_ ?_ silent
      · simp [PollMatcher.afterPoll, tested]
      · show ¬ Matches matcher (s.taken ++ events.contents)
        rw [matches_append]
        exact not_or.mpr ⟨quiet, unmatched⟩

/-- Sending the notice hands the loop nothing. -/
theorem handed_notified {notices : List S} (left : s.loop = .exited) :
    handed { s with loop := .returned, notices := notices } = s.handed := by
  simp [handed, inFlight, left]

/-- The notice is sent once, after the loop. -/
theorem Follows.of_notified (follows : s.Follows m id matcher queue) (left : s.loop = .exited) :
    Follows m id matcher queue
      { s with loop := .returned, notices := s.notices ++ m.notify.toList } := by
  -- Only the notices change, and by then the loop has left its queue.
  obtain ⟨rest, there, whole⟩ := follows.stream
  obtain ⟨stopped, silent⟩ := follows.phase.at_exit left
  refine ⟨follows.protocol, follows.disjoint, follows.held, ?_, ⟨rest, there, ?_⟩,
    .returned rfl stopped ?_⟩
  · intro reply waits
    simp at waits
  · rw [handed_notified left]
    exact whole
  · -- It is the only one, because nothing was said before.
    simp [silent]

/-- Every step keeps the loop in step with its subscription. -/
theorem Follows.step {act : MatcherAction τ} (follows : s.Follows m id matcher queue)
    (tests : m.Tests matcher) (step : Consumes m id s act t) :
    t.Follows m id matcher queue := by
  -- What belongs to the loop is its own step, everything else leaves its queue to it.
  obtain ⟨⟨sole, taken⟩, stays⟩ := step
  -- One case per kind of step; the steps of the others are those of the actor and the rest.
  cases taken.move with
  | @others act system spares moved =>
    by_cases serves : ∃ next, act = .serve next
    · obtain ⟨next, rfl⟩ := serves
      exact follows.of_served sole moved stays
    · exact follows.of_client (fun next same => serves ⟨next, same⟩) spares moved
  | polled atTop moved => exact follows.of_polled atTop moved
  | resumed waits found moved => exact follows.of_resumed tests waits found moved
  | failed waits found => exact (follows.phase.not_failed waits found).elim
  | notified left => exact follows.of_notified left

/-- Before the loop begins, everything is still in the queue. -/
theorem start_follows {sub : SubHandle} (kept : system.Protocol)
    (disjoint : system.bus.PoolDisjoint) (held : system.handles m.handle = some sub)
    (opened : system.bus.eventQueues sub.id = some queue) :
    (PollMatcher.start system).Follows m sub.id matcher queue where
  protocol := kept
  disjoint := disjoint
  held := ⟨sub, held, rfl⟩
  requested := fun reply waits => by simp [PollMatcher.start] at waits
  stream := ⟨queue, opened, List.append_nil queue⟩
  phase := .polling rfl (by simp [PollMatcher.start, Matches]) rfl

end MatcherSystem

/-- A step of the system keeps the free ids apart from the ids in use. -/
theorem SystemStep.poolDisjoint {s t : BusSystem build τ} {act : ClientAction τ}
    (step : SystemStep s act t) (disjoint : s.bus.PoolDisjoint) : t.bus.PoolDisjoint := by
  -- Only serving a message moves ids between the tables.
  by_cases serves : ∃ next, act = .serve next
  · obtain ⟨next, rfl⟩ := serves
    cases step_move step with
    | called client => exact absurd rfl (client next)
    | counted client => exact absurd rfl (client next)
    | served _ _ turn =>
      rw [(deliver_rest _ _).1]
      exact turn.poolDisjoint disjoint
  · -- The clients do not touch the tables.
    rw [(step.effect.client fun next same => serves ⟨next, same⟩).1]
    exact disjoint

/-- No id is both free and in use in any state that the system reaches. -/
theorem poolDisjoint_of_run {acts : List (ClientAction τ)} {s : BusSystem build τ}
    (run : Run SystemStep newWithHandle acts s) : s.bus.PoolDisjoint :=
  run.invariant EventBus.new_poolDisjoint fun _ _ _ disjoint step => step.poolDisjoint disjoint

/-- The test of single events looks at the one event of a reply, if there is one. -/
theorem eventPollMatcher_tests (handle : HandleId) (matcher : τ → Bool) (notify : Option S) :
    (eventPollMatcher handle matcher notify).Tests matcher := by
  -- There is an event in the reply or there is none.
  intro result kind
  cases result with
  | event event => cases event <;> simp [eventPollMatcher, Reply.contents, Matches]
  | _ => exact kind.elim

/-- The test of batches looks at every event of a reply. -/
theorem eventBatchPollMatcher_tests (handle : HandleId) (matcher : τ → Bool) (notify : Option S) :
    (eventBatchPollMatcher handle matcher notify).Tests matcher := by
  -- The handler asks whether any event of the list matches.
  intro result kind
  cases result with
  | events events => simp [eventBatchPollMatcher, Reply.contents, Matches]
  | _ => exact kind.elim

/-- A loop stays in step with its subscription from wherever it begins. -/
theorem MatcherSystem.follows_of_run {m : PollMatcher τ S} {matcher : τ → Bool}
    (tests : m.Tests matcher) {past : List (ClientAction τ)} {system : BusSystem build τ}
    {sub : SubHandle} {queue : List τ} (reached : Run SystemStep newWithHandle past system)
    (held : system.handles m.handle = some sub)
    (opened : system.bus.eventQueues sub.id = some queue) {acts : List (MatcherAction τ)}
    {s : MatcherSystem build τ S}
    (run : Run (Consumes m sub.id) (PollMatcher.start system) acts s) :
    s.Follows m sub.id matcher queue :=
  run.invariant (start_follows (protocol_of_run reached) (poolDisjoint_of_run reached) held opened)
    fun _ _ _ before step => before.step tests step

/-- A loop over single polls is left with exactly one matching event. -/
theorem MatcherSystem.Stopped.single {handle : HandleId} {matcher : τ → Bool} {notify : Option S}
    {s : MatcherSystem build τ S}
    (stopped : s.Stopped (eventPollMatcher handle matcher notify) matcher) :
    ∃ quiet hit, s.taken = quiet ++ [hit] ∧ matcher hit = true ∧ ¬ Matches matcher quiet := by
  -- A single poll returns one event at most, so this is the match.
  obtain ⟨quiet, result, kind, taken, before, matched⟩ := stopped
  cases result with
  | event event =>
    cases event with
    | none => simp [Reply.contents, Matches] at matched
    | some hit =>
      have passes : matcher hit = true := by simpa [Reply.contents, Matches] using matched
      exact ⟨quiet, hit, taken, passes, before⟩
  | _ => exact kind.elim

/-- The notices of a loop are sent when it has returned and never before. -/
theorem MatcherSystem.Phase.notified {m : PollMatcher τ S} {matcher : τ → Bool}
    {s : MatcherSystem build τ S} (phase : s.Phase m matcher) (sent : s.notices ≠ []) :
    s.loop = .returned ∧ Matches matcher s.taken := by
  -- In all phases but the last nothing was said.
  cases phase with
  | polling _ _ silent => exact absurd silent sent
  | waiting _ _ _ silent => exact absurd silent sent
  | replied _ _ _ _ silent => exact absurd silent sent
  | exited _ _ silent => exact absurd silent sent
  | returned left stopped =>
    obtain ⟨quiet, result, -, taken, -, matched⟩ := stopped
    refine ⟨left, ?_⟩
    rw [taken, matches_append]
    exact .inr matched

/--
`event_poll_matcher` consumes exactly up to the first match.

When it returns, it has taken the shortest prefix of the subscription's events that ends in a
match, all events behind that are still queued in order, and its notice has been sent once. In no
state on the way there is a notice without a match taken before.
-/
theorem event_poll_matcher_exact {matcher : τ → Bool} {notify : Option S}
    {past : List (ClientAction τ)} {system : BusSystem build τ} {handle : HandleId}
    {sub : SubHandle} {queue : List τ} {acts : List (MatcherAction τ)}
    {last : MatcherSystem build τ S} (reached : Run SystemStep newWithHandle past system)
    (held : system.handles handle = some sub)
    (opened : system.bus.eventQueues sub.id = some queue)
    (run : Run (Consumes (eventPollMatcher handle matcher notify) sub.id)
      (PollMatcher.start system) acts last) :
    (last.loop = .returned →
      Matches matcher last.taken ∧ last.taken = upTo matcher (queue ++ last.published) ∧
      (∀ front, front <+: queue ++ last.published → Matches matcher front →
        last.taken <+: front) ∧
      (∃ quiet hit, last.taken = quiet ++ [hit] ∧ matcher hit = true) ∧
      last.system.bus.eventQueues sub.id = some (behind matcher (queue ++ last.published)) ∧
      last.notices = notify.toList) ∧
    Throughout (Consumes (eventPollMatcher handle matcher notify) sub.id)
      (PollMatcher.start system)
      (fun s => s.notices ≠ [] → s.loop = .returned ∧ Matches matcher s.taken) acts := by
  -- The invariant says where the events are: taken, in flight to the loop, or in the queue.
  have tests := eventPollMatcher_tests handle matcher notify
  refine ⟨fun done => ?_, fun front s _ along =>
    (MatcherSystem.follows_of_run tests reached held opened along).phase.notified⟩
  have follows := MatcherSystem.follows_of_run tests reached held opened run
  obtain ⟨rest, there, whole⟩ := follows.stream
  obtain ⟨stopped, notified⟩ := follows.phase.at_end done
  obtain ⟨quiet, hit, taken, passes, silent⟩ := stopped.single
  have idle : last.inFlight = [] := by simp [MatcherSystem.inFlight, done]
  rw [MatcherSystem.handed, idle, List.append_nil, taken] at whole
  -- The events were taken up to the one match, and the queue holds the rest of them.
  have cut : upTo matcher (quiet ++ [hit] ++ rest) = quiet ++ [hit] := (cut_snoc silent passes).1
  have remains : behind matcher (quiet ++ [hit] ++ rest) = rest := (cut_snoc silent passes).2
  have matched : Matches matcher last.taken := ⟨hit, by simp [taken], passes⟩
  have shortest : last.taken = upTo matcher (queue ++ last.published) := by
    rw [whole, cut, taken]
  refine ⟨matched, shortest, fun front fits found => ?_, ⟨quiet, hit, taken, passes⟩, ?_,
    notified⟩
  · rw [shortest]
    exact upTo_shortest fits found
  · rw [whole, remains, there]

/-- A client that subscribes, and a publisher with one event for it. -/
def subscribedOnce {τ : Type*} (event : τ) : List (ClientAction τ) :=
  [.getSubscriber, .serve (some 1), .receive 0, .getPublisher, .publishEvent event, .serve none,
    .receive 1]

/-- A poll of an event that does not match, one of an empty queue, and one of a match. -/
def polledThrice {τ : Type*} (event : τ) : List (MatcherAction τ) :=
  [.poll, .others (.serve none), .resume, .poll, .others (.serve none),
    .others (.publishEvent event), .resume, .others (.serve none), .poll,
    .others (.publishEvent event), .others (.serve none), .resume, .others (.serve none), .notify]

/-- The loop takes the event that does not match and the first match, and leaves the second. -/
theorem event_poll_matcher_exact_twice :
    ∃ (system : BusSystem .immediate Nat) (last : MatcherSystem .immediate Nat Unit),
      Run SystemStep newWithHandle (subscribedOnce 5) system ∧
      Run (Consumes (eventPollMatcher 0 (· == 7) (some ())) 1) (PollMatcher.start system)
        (polledThrice 7) last ∧
      last.taken = upTo (· == 7) ([5] ++ last.published) ∧ last.published = [7, 7] ∧
      last.notices = [()] := by
  -- Both runs are replayed, and the states they lead to are tested.
  have replayed : ((replay (nextIf fun _ _ => True)
      (newWithHandle : BusSystem .immediate Nat) (subscribedOnce 5)).any fun system =>
      system.handles 0 == some ⟨1, 0⟩ && system.bus.eventQueues 1 == some [5] &&
        (replay (PollMatcher.consume (eventPollMatcher 0 (· == 7) (some ())) 1)
          (PollMatcher.start system) (polledThrice 7)).any fun last =>
            last.loop == .returned && last.published == [7, 7]) = true := by
    decide
  simp only [Option.any_eq_true, Bool.and_eq_true, beq_iff_eq] at replayed
  obtain ⟨system, reached, ⟨held, opened⟩, last, stepped, returned, published⟩ := replayed
  have past := ((Run.of_replay reached).mono step_of_nextIf).unguard
  have run := (Run.of_replay stepped).mono consumes_of_consume
  obtain ⟨-, taken, -, -, -, notified⟩ := (event_poll_matcher_exact past held opened run).1 returned
  exact ⟨system, last, past, run, taken, published, notified⟩

end Imputio
