import Mathlib.Data.Finset.Card
import Mathlib.Data.Finset.Range
import Mathlib.Data.List.Nodup
import Imputio.EventBus.Holders

/-! The protocol of requests: who waits for which reply, and when the actor may leave its loop. -/

namespace Imputio

open Transition

variable {build : Build} {τ : Type*}

/-- The handle that an unfinished call borrows. -/
def CallState.caller : CallState τ → Option Caller
  | .waiting caller => some caller
  | .replied caller _ => some caller
  | _ => none

/-- A message is answered exactly when it carries a reply channel, and on that channel. -/
theorem EventBus.process_answers (bus : EventBus τ) (message : EventBusMessage build τ)
    (next : Option SubId) :
    (bus.process message next).2.map Prod.fst = message.replyTo := by
  -- Each arm either sends to the channel in its message or has none to send to.
  cases message with
  | subscribe reply => rfl
  | unsubscribe id => cases build <;> rfl
  | pushEvent event reply => rfl
  | poll id reply => rfl
  | batchPoll id reply => rfl
  | cleanUpBgTask enabled => rfl

/-- The answer to a processed message is on the channel that the message carries. -/
theorem BusStep.answers {bus after : EventBus τ} {entry : Processed build τ}
    (step : BusStep bus entry after) : entry.reply.map Prod.fst = entry.message.replyTo := by
  rw [← bus.process_answers entry.message entry.next, step.processed]

namespace BusSystem

/-- The reply channels on which the actor still has to answer, in the order of the requests. -/
def queuedReplies (s : BusSystem build τ) : List ReplyId :=
  s.requests.queue.filterMap fun request => request.message.replyTo

/-- The unfinished calls that borrow a handle. -/
def openCalls (s : BusSystem build τ) (caller : Caller) : Finset ReplyId :=
  (Finset.range s.nextReply).filter fun reply => (s.calls reply).caller = some caller

/-- What holds between the handles, their calls, and the actor. -/
structure Protocol (s : BusSystem build τ) : Prop where
  fresh : ∀ reply, s.nextReply ≤ reply → s.calls reply = .unused
  unmade : ∀ handle, s.nextHandle ≤ handle → s.handles handle = none
  roomy : s.requests.capacity = none
  -- An unfinished call borrows its handle, which therefore cannot be dropped.
  borrowed : ∀ caller, s.borrows caller = (s.openCalls caller).card
  alive : ∀ caller, 0 < s.borrows caller → s.Alive caller
  closed : s.requests.connected = false → s.Unreferenced ∧ s.requests.queue = []
  -- Whoever waits has a request in the channel, and each request has its own reply channel.
  queued : ∀ reply caller, s.calls reply = .waiting caller → reply ∈ s.queuedReplies
  awaited : ∀ reply ∈ s.queuedReplies,
    (∃ caller, s.calls reply = .waiting caller) ∨ s.calls reply = .abandoned
  once : s.queuedReplies.Nodup

variable {s t : BusSystem build τ} {act : ClientAction τ} {reply : ReplyId} {caller : Caller}

/-- Nothing is requested yet when the actor starts. -/
theorem newWithHandle_protocol : (newWithHandle : BusSystem build τ).Protocol where
  fresh := fun _ _ => rfl
  unmade := fun _ _ => rfl
  roomy := rfl
  borrowed := fun _ => rfl
  alive := by simp [newWithHandle]
  closed := by simp [newWithHandle, Channel.unbounded]
  queued := by simp [newWithHandle]
  awaited := by simp [queuedReplies, newWithHandle, Channel.unbounded]
  once := by simp [queuedReplies, newWithHandle, Channel.unbounded]

/-- Only requests that were made have a state. -/
theorem Protocol.made (kept : s.Protocol) (used : s.calls reply ≠ .unused) :
    reply < s.nextReply := by
  by_contra beyond
  exact used (kept.fresh reply (Nat.not_lt.mp beyond))

/-- The open calls of a handle are among the requests made. -/
theorem mem_openCalls :
    reply ∈ s.openCalls caller ↔ reply < s.nextReply ∧ (s.calls reply).caller = some caller := by
  rw [openCalls, Finset.mem_filter, Finset.mem_range]

/-- A call is open for the handle that it borrows. -/
theorem Protocol.open_iff (kept : s.Protocol) :
    reply ∈ s.openCalls caller ↔ (s.calls reply).caller = some caller := by
  -- A call that borrows a handle was made, since an unused one borrows nothing.
  rw [mem_openCalls, and_iff_right_iff_imp]
  intro borrows
  refine kept.made fun unused => ?_
  rw [unused] at borrows
  simp [CallState.caller] at borrows

/-- An unfinished call keeps its handle alive. -/
theorem Protocol.alive_of_open (kept : s.Protocol)
    (borrows : (s.calls reply).caller = some caller) : s.Alive caller := by
  -- The borrows of a handle are counted, and this call is one of them.
  apply kept.alive
  rw [kept.borrowed]
  exact Finset.card_pos.mpr ⟨reply, kept.open_iff.mpr borrows⟩

/-- The actor is in its loop as long as any handle is alive. -/
theorem Protocol.connected (kept : s.Protocol) (alive : s.Alive caller) :
    s.requests.connected = true := by
  -- The actor leaves only when the last sender of its channel is gone.
  by_contra left
  obtain ⟨⟨buses, pubs, subs⟩, -⟩ := kept.closed (by simpa using left)
  cases caller with
  | busHandle => exact absurd buses (Nat.ne_of_gt alive)
  | pubHandle => exact absurd pubs (Nat.ne_of_gt alive)
  | subHandle handle =>
    rcases Nat.lt_or_ge handle s.nextHandle with below | beyond
    · exact alive (subs handle below)
    · exact alive (kept.unmade handle beyond)

/-- While the actor is in its loop, its channel takes every message at once. -/
theorem sends (roomy : s.requests.capacity = none) (connected : s.requests.connected = true)
    (request : Request build τ) :
    s.requests.send request =
      .sent { s.requests with queue := s.requests.queue ++ [request] } := by
  rw [Channel.send_eq_sent_iff]
  exact ⟨connected, by rw [Channel.isFull, roomy], rfl⟩

/-- A request without a reply is queued at the end. -/
theorem send_eq (roomy : s.requests.capacity = none) (connected : s.requests.connected = true)
    (message : EventBusMessage build τ) (subscription : Option ReplyId) :
    s.send message subscription = { s with
      requests := { s.requests with queue := s.requests.queue ++ [⟨message, subscription⟩] } } := by
  rw [send, sends roomy connected]

/-- A request with a reply is queued at the end, and its caller waits. -/
theorem call_eq (roomy : s.requests.capacity = none) (connected : s.requests.connected = true)
    (caller : Caller) (message : ReplyId → EventBusMessage build τ)
    (subscription : Option ReplyId) :
    s.call caller message subscription = { s with
      requests := { s.requests with
        queue := s.requests.queue ++ [⟨message s.nextReply, subscription⟩] }
      calls := Function.update s.calls s.nextReply (.waiting caller)
      borrows := Function.update s.borrows caller (s.borrows caller + 1)
      nextReply := s.nextReply + 1 } := by
  rw [call, sends roomy connected]

/-- The unfinished calls are those of another state that borrow the same handles. -/
theorem openCalls_congr (nextReply : t.nextReply = s.nextReply)
    (same : ∀ reply, (t.calls reply).caller = (s.calls reply).caller) (caller : Caller) :
    t.openCalls caller = s.openCalls caller := by
  -- The open calls are filtered by what they borrow.
  unfold openCalls
  rw [nextReply]
  exact Finset.filter_congr fun reply _ => by rw [same]

/-- Handles may come and go while no unfinished call loses the handle that it borrows. -/
theorem Protocol.of_handles (kept : s.Protocol) (connected : s.requests.connected = true)
    (calls : t.calls = s.calls) (requests : t.requests = s.requests)
    (borrows : t.borrows = s.borrows) (nextReply : t.nextReply = s.nextReply)
    (unmade : ∀ handle, t.nextHandle ≤ handle → t.handles handle = none)
    (alive : ∀ caller, 0 < s.borrows caller → s.Alive caller → t.Alive caller) : t.Protocol where
  fresh := by rw [calls, nextReply]; exact kept.fresh
  unmade := unmade
  roomy := by rw [requests]; exact kept.roomy
  borrowed := by
    -- Calls and requests are the same, so that only what is said of handles needs an argument.
    intro caller
    rw [borrows, openCalls_congr nextReply (fun _ => by rw [calls])]
    exact kept.borrowed caller
  alive := by
    -- A handle that is borrowed was alive before, and then it still is.
    intro caller borrowed
    rw [borrows] at borrowed
    exact alive caller borrowed (kept.alive caller borrowed)
  closed := by simp [requests, connected]
  queued := by rw [calls, queuedReplies, requests]; exact kept.queued
  awaited := by rw [calls, queuedReplies, requests]; exact kept.awaited
  once := by rw [queuedReplies, requests]; exact kept.once

/-- A new handle keeps the protocol. -/
theorem Protocol.newHandle (kept : s.Protocol) (connected : s.requests.connected = true)
    (sub : SubHandle) : (s.newHandle sub).Protocol := by
  -- Handles are numbered in order, and nobody borrows one that is not there yet.
  refine kept.of_handles connected rfl rfl rfl rfl ?_ ?_
  · intro handle beyond
    have later : s.nextHandle + 1 ≤ handle := beyond
    have apart : handle ≠ s.nextHandle := Nat.ne_of_gt later
    simpa [BusSystem.newHandle, apart] using kept.unmade handle (Nat.le_of_lt later)
  · intro caller _ alive
    cases caller with
    | busHandle => exact alive
    | pubHandle => exact alive
    | subHandle handle =>
      -- The number of the new handle was not in use.
      have apart : handle ≠ s.nextHandle := by
        rintro rfl
        exact alive (kept.unmade _ (Nat.le_refl _))
      simpa [Alive, BusSystem.newHandle, apart] using alive

/-- Handles that only send may come and go while none that is borrowed is the last one dropped. -/
theorem Protocol.counted {busHandles pubHandles : Nat} (kept : s.Protocol)
    (connected : s.requests.connected = true)
    (buses : 0 < s.borrows .busHandle → 0 < s.busHandles → 0 < busHandles)
    (pubs : 0 < s.borrows .pubHandle → 0 < s.pubHandles → 0 < pubHandles) :
    { s with busHandles := busHandles, pubHandles := pubHandles }.Protocol := by
  -- Only the count of publishers is another one.
  refine kept.of_handles connected rfl rfl rfl rfl kept.unmade ?_
  intro caller borrowed alive
  cases caller with
  | busHandle => exact buses borrowed alive
  | pubHandle => exact pubs borrowed alive
  | subHandle handle => exact alive

/-- Sending a message without a reply keeps the protocol. -/
theorem Protocol.sent (kept : s.Protocol) (connected : s.requests.connected = true)
    {message : EventBusMessage build τ} (quiet : message.replyTo = none)
    (subscription : Option ReplyId) : (s.send message subscription).Protocol := by
  -- Such a message adds nothing to the replies that are owed.
  rw [send_eq kept.roomy connected]
  have owed : ({ s with requests := { s.requests with
      queue := s.requests.queue ++ [⟨message, subscription⟩] } } :
      BusSystem build τ).queuedReplies = s.queuedReplies := by
    simp [queuedReplies, quiet]
  exact
    { fresh := kept.fresh
      unmade := kept.unmade
      roomy := kept.roomy
      borrowed := kept.borrowed
      alive := kept.alive
      closed := fun left => absurd connected (by simpa using left)
      queued := by rw [owed]; exact kept.queued
      awaited := by rw [owed]; exact kept.awaited
      once := by rw [owed]; exact kept.once }

/-- A new call is open for its own handle and for no other. -/
theorem openCalls_called (calls : t.calls = Function.update s.calls s.nextReply (.waiting caller))
    (nextReply : t.nextReply = s.nextReply + 1) (other : Caller) :
    t.openCalls other =
      if other = caller then insert s.nextReply (s.openCalls other) else s.openCalls other := by
  -- The numbers below the next one are those of before and the new one.
  ext reply
  rw [mem_openCalls, calls, nextReply, Nat.lt_succ_iff_lt_or_eq]
  by_cases new : reply = s.nextReply
  · subst new
    by_cases same : other = caller
    · simp [same, CallState.caller]
    · have apart : ¬ caller = other := fun equal => same equal.symm
      simp [same, apart, mem_openCalls, CallState.caller]
  · -- The calls made before are as they were.
    by_cases same : other = caller <;> simp [mem_openCalls, new, same]

/-- Making a call keeps the protocol. -/
theorem Protocol.called (kept : s.Protocol) (alive : s.Alive caller)
    {message : ReplyId → EventBusMessage build τ}
    (asks : ∀ reply, (message reply).replyTo = some reply) (subscription : Option ReplyId) :
    (s.call caller message subscription).Protocol := by
  -- The new reply is owed once, its call is open, and its handle is borrowed once more.
  have connected := kept.connected alive
  have unused := kept.fresh _ (Nat.le_refl _)
  rw [call_eq kept.roomy connected]
  -- The request is queued behind the others, under a number that nobody has used.
  have owed : ∀ t : BusSystem build τ, t.requests.queue = s.requests.queue ++
      [⟨message s.nextReply, subscription⟩] →
      t.queuedReplies = s.queuedReplies ++ [s.nextReply] := by
    intro t queue
    simp [queuedReplies, queue, asks]
  have absent : s.nextReply ∉ s.queuedReplies := by
    intro owed
    rcases kept.awaited _ owed with ⟨caller, waits⟩ | gone
    · simp [unused] at waits
    · simp [unused] at gone
  refine ⟨?_, kept.unmade, kept.roomy, ?_, ?_, ?_, ?_, ?_, ?_⟩
  · intro reply beyond
    have apart : reply ≠ s.nextReply := Nat.ne_of_gt beyond
    simpa [apart] using kept.fresh reply (Nat.le_of_lt beyond)
  · intro other
    rw [openCalls_called rfl rfl]
    by_cases same : other = caller
    · subst same
      have new : s.nextReply ∉ s.openCalls other := by simp [mem_openCalls]
      simp [Finset.card_insert_of_notMem new, kept.borrowed]
    · simp [same, kept.borrowed]
  · -- A handle that is borrowed is alive: the new call borrows one that makes calls.
    intro other borrows
    by_cases same : other = caller
    · subst same
      cases other <;> exact alive
    · have before : 0 < s.borrows other := by simpa [same] using borrows
      have still := kept.alive other before
      cases other <;> exact still
  · intro left
    exact absurd connected (by simpa using left)
  · intro reply other waits
    rw [owed _ rfl]
    by_cases new : reply = s.nextReply
    · simp [new]
    · have before : s.calls reply = .waiting other := by simpa [new] using waits
      exact List.mem_append_left _ (kept.queued reply other before)
  · intro reply owes
    rw [owed _ rfl] at owes
    by_cases new : reply = s.nextReply
    · subst new
      exact .inl ⟨caller, by simp⟩
    · have before : reply ∈ s.queuedReplies := by simpa [new] using owes
      simpa [new] using kept.awaited reply before
  · rw [owed _ rfl]
    exact kept.once.append (List.nodup_singleton _) (by simpa using absent)

/-- A call that ends without being owed a reply, or by giving up, keeps the protocol. -/
theorem Protocol.finished (kept : s.Protocol) {state : CallState τ}
    (borrows : (s.calls reply).caller = some caller) (ended : state.caller = none)
    (unowed : state = .abandoned ∨ reply ∉ s.queuedReplies) :
    (s.finish reply caller state).Protocol := by
  -- The call was open, so its handle is alive and the actor in its loop.
  have connected := kept.connected (kept.alive_of_open borrows)
  have used : s.calls reply ≠ .unused := by
    intro unused
    simp [unused, CallState.caller] at borrows
  have stopped : ∀ other, state ≠ .waiting other := by
    rintro other rfl
    simp [CallState.caller] at ended
  refine ⟨?_, kept.unmade, kept.roomy, ?_, ?_, ?_, ?_, ?_, kept.once⟩
  · intro other beyond
    have apart : other ≠ reply := Nat.ne_of_gt (Nat.lt_of_lt_of_le (kept.made used) beyond)
    simpa [finish, apart] using kept.fresh other beyond
  · -- The handle is given back by this call and by no other.
    intro other
    have closed : (s.finish reply caller state).openCalls other =
        (s.openCalls other).erase reply := by
      ext call
      rw [Finset.mem_erase, mem_openCalls, mem_openCalls]
      by_cases same : call = reply
      · subst same
        simp [finish, ended]
      · simp [finish, same]
    rw [closed]
    by_cases same : other = caller
    · subst same
      rw [Finset.card_erase_of_mem (kept.open_iff.mpr borrows), ← kept.borrowed]
      simp [finish]
    · have absent : reply ∉ s.openCalls other := by
        rw [kept.open_iff, borrows]
        simpa using Ne.symm same
      rw [Finset.erase_eq_of_notMem absent, ← kept.borrowed]
      simp [finish, same]
  · intro other still
    have before : 0 < s.borrows other := by
      by_cases same : other = caller
      · subst same
        have less : 0 < s.borrows other - 1 := by simpa [finish] using still
        omega
      · simpa [finish, same] using still
    have held := kept.alive other before
    cases other <;> exact held
  · intro left
    exact absurd connected (by simpa [finish] using left)
  · intro other who waits
    by_cases same : other = reply
    · subst same
      exact absurd (by simpa [finish] using waits) (stopped who)
    · exact kept.queued other who (by simpa [finish, same] using waits)
  · intro other owed
    by_cases same : other = reply
    · subst same
      rcases unowed with rfl | none_owed
      · exact .inr (by simp [finish])
      · exact absurd owed none_owed
    · simpa [finish, same] using kept.awaited other owed

/-- Dropping a handle that nothing borrows keeps the protocol. -/
theorem Protocol.removed {handle : HandleId} (kept : s.Protocol)
    (connected : s.requests.connected = true) (unborrowed : s.borrows (.subHandle handle) = 0) :
    { s with handles := Function.update s.handles handle none }.Protocol := by
  -- What is borrowed is another handle, and that one stays.
  refine kept.of_handles connected rfl rfl rfl rfl ?_ ?_
  · intro other beyond
    by_cases same : other = handle
    · simp [same]
    · simpa [same] using kept.unmade other beyond
  · intro caller borrowed alive
    cases caller with
    | busHandle => exact alive
    | pubHandle => exact alive
    | subHandle other =>
      have apart : other ≠ handle := by
        rintro rfl
        omega
      simpa [Alive, apart] using alive

/-- The reply to the oldest request is owed first. -/
theorem queuedReplies_front {request : Request build τ} {rest : List (Request build τ)}
    (front : s.requests.queue = request :: rest) :
    s.queuedReplies = request.message.replyTo.toList ++
      rest.filterMap fun request => request.message.replyTo := by
  rw [queuedReplies, front, List.filterMap_cons]
  cases request.message.replyTo <;> rfl

/-- No later request uses the reply channel of the oldest one. -/
theorem Protocol.not_later (kept : s.Protocol) {request : Request build τ}
    {rest : List (Request build τ)} (front : s.requests.queue = request :: rest)
    (asks : request.message.replyTo = some reply) :
    reply ∉ rest.filterMap fun request => request.message.replyTo := by
  -- No reply channel occurs twice in the queue, and this one is at its front.
  have once := kept.once
  rw [queuedReplies_front front, asks] at once
  exact (List.nodup_cons.mp once).1

section Serving

variable {request : Request build τ} {rest : List (Request build τ)} {bus : EventBus τ}
  {owner : SubId → Option ReplyId}

/-- A caller that waits is owed the reply to the oldest request or to a later one. -/
theorem Protocol.waits_in_rest (kept : s.Protocol) (front : s.requests.queue = request :: rest)
    (waits : s.calls reply = .waiting caller) : request.message.replyTo = some reply ∨
      reply ∈ rest.filterMap fun request => request.message.replyTo := by
  -- The reply is owed by some request in the queue, which is split at its front.
  have there := kept.queued reply caller waits
  rw [queuedReplies_front front] at there
  simpa [eq_comm] using there

/-- What is owed to a later request is owed before the oldest one is taken. -/
theorem queuedReplies_rest (front : s.requests.queue = request :: rest)
    (there : reply ∈ rest.filterMap fun request => request.message.replyTo) :
    reply ∈ s.queuedReplies := by
  rw [queuedReplies_front front]
  exact List.mem_append_right _ there

/-- The later requests have reply channels of their own. -/
theorem Protocol.once_rest (kept : s.Protocol) (front : s.requests.queue = request :: rest) :
    (rest.filterMap fun request => request.message.replyTo).Nodup := by
  -- What holds of the whole queue holds of its end.
  have once := kept.once
  rw [queuedReplies_front front] at once
  exact once.of_append_right

/-- Taking the oldest request keeps the protocol if nobody waits for its reply. -/
theorem Protocol.unreplied (kept : s.Protocol) (connected : s.requests.connected = true)
    (front : s.requests.queue = request :: rest)
    (nobody : ∀ reply caller, request.message.replyTo = some reply →
      s.calls reply ≠ .waiting caller) :
    Protocol { s with
      bus := bus
      requests := { s.requests with queue := rest }
      owner := owner } := by
  -- No call changes, so that only the replies that are owed become fewer.
  refine ⟨kept.fresh, kept.unmade, kept.roomy, kept.borrowed, ?_, ?_, ?_, ?_,
    kept.once_rest front⟩
  · intro other borrows
    have still := kept.alive other borrows
    cases other <;> exact still
  · intro left
    exact absurd connected (by simpa using left)
  · intro reply caller waits
    -- Whoever waits is owed the reply to a later request.
    rcases kept.waits_in_rest front waits with answered | still
    · exact absurd waits (nobody reply caller answered)
    · exact still
  · intro reply there
    exact kept.awaited reply (queuedReplies_rest front there)

/-- Taking the oldest request keeps the protocol if the caller that waits for it has a reply. -/
theorem Protocol.replied (kept : s.Protocol) (connected : s.requests.connected = true)
    (front : s.requests.queue = request :: rest) {result : BusResult (Reply τ)}
    (asked : request.message.replyTo = some reply) (waiting : s.calls reply = .waiting caller) :
    Protocol { s with
      bus := bus
      requests := { s.requests with queue := rest }
      owner := owner
      calls := Function.update s.calls reply (.replied caller result) } := by
  -- One call moves from waiting to replied, and the request that owed it is gone.
  have gone := kept.not_later front asked
  refine ⟨?_, kept.unmade, kept.roomy, ?_, ?_, ?_, ?_, ?_, kept.once_rest front⟩
  · intro other beyond
    have made : reply < s.nextReply := kept.made (by simp [waiting])
    have distinct : other ≠ reply := Nat.ne_of_gt (Nat.lt_of_lt_of_le made beyond)
    simpa [distinct] using kept.fresh other beyond
  · -- The call stays open until its caller takes the reply.
    intro other
    have still : ∀ call, (Function.update s.calls reply (.replied caller result) call).caller =
        (s.calls call).caller := by
      intro call
      by_cases same : call = reply
      · subst same
        simp [waiting, CallState.caller]
      · simp [same]
    refine (kept.borrowed other).trans (congrArg Finset.card ?_)
    exact (openCalls_congr (s := s) (by rfl) still other).symm
  · intro other borrows
    have still := kept.alive other borrows
    cases other <;> exact still
  · intro left
    exact absurd connected (by simpa using left)
  · intro other who waits
    have distinct : other ≠ reply := by
      rintro rfl
      simp at waits
    have waited : s.calls other = .waiting who := by simpa [distinct] using waits
    rcases kept.waits_in_rest front waited with answered | still
    · exact absurd (Option.some.inj (answered.symm.trans asked)) distinct
    · exact still
  · intro other there
    have distinct : other ≠ reply := by
      rintro rfl
      exact gone there
    simpa [distinct] using kept.awaited other (queuedReplies_rest front there)

/-- Serving the oldest request and replying to its caller keeps the protocol. -/
theorem Protocol.served (kept : s.Protocol) (connected : s.requests.connected = true)
    {next : Option SubId} {answer : Option (ReplyId × BusResult (Reply τ))}
    (front : s.requests.queue = request :: rest)
    (turn : BusStep s.bus ⟨request.message, next, answer⟩ bus) :
    ({ s with
      bus := bus
      requests := { s.requests with queue := rest }
      owner := grant s.owner answer }.deliver answer).Protocol := by
  -- The answer finds its caller waiting or it finds nobody, and then nothing is delivered.
  set served : BusSystem build τ := { s with
      bus := bus
      requests := { s.requests with queue := rest }
      owner := grant s.owner answer } with is_served
  have answers : answer.map Prod.fst = request.message.replyTo := turn.answers
  rcases served.deliver_cases answer with same | ⟨reply, caller, result, sent, waits, delivered⟩
  · rw [same]
    refine kept.unreplied connected front fun reply caller answered waits => ?_
    -- A caller that waits for this answer would have been given it.
    obtain ⟨⟨named, result⟩, rfl, rfl⟩ := Option.map_eq_some_iff.mp (answers.trans answered)
    have waiting : served.calls named = .waiting caller := waits
    have told : (served.deliver (some (named, result))).calls named = .replied caller result := by
      simp [deliver, waiting]
    rw [same] at told
    simp [waiting] at told
  · rw [delivered]
    have asked : request.message.replyTo = some reply := by rw [← answers, sent]; rfl
    exact kept.replied connected front asked waits

end Serving

/-- An unfinished call borrows a handle, whether or not it has its reply. -/
theorem caller_of_open (found : s.calls reply = .waiting caller ∨
    ∃ result, s.calls reply = .replied caller result) : (s.calls reply).caller = some caller := by
  -- Both states carry the caller.
  rcases found with waits | ⟨result, replied⟩
  · rw [waits]
    rfl
  · rw [replied]
    rfl

/-- A reply that was received is not owed any more. -/
theorem Protocol.unowed (kept : s.Protocol) {result : BusResult (Reply τ)}
    (found : s.calls reply = .replied caller result) : reply ∉ s.queuedReplies := by
  -- The caller of a request in the queue waits or has given up.
  intro owed
  rcases kept.awaited reply owed with ⟨other, waits⟩ | gone
  · simp [found] at waits
  · simp [found] at gone

/-- Taking a reply keeps the protocol. -/
theorem Protocol.received (kept : s.Protocol) {result : BusResult (Reply τ)}
    (found : s.calls reply = .replied caller result) :
    (s.finish reply caller (.returned result)).Protocol := by
  -- A call with a reply borrows its handle, and its request has left the queue.
  refine kept.finished ?_ rfl (.inr (kept.unowed found))
  rw [found]
  rfl

/-- Nothing happens any more once the actor has left its loop. -/
theorem Protocol.connected_of_step (kept : s.Protocol) (step : SystemStep s act t) :
    s.requests.connected = true := by
  -- Whoever acts holds a handle, or has a call that borrows one.
  cases step_move step with
  | called _ alive => exact kept.connected alive
  | unsubscribed held => exact kept.connected (alive_of_held held)
  | cleaned there => exact kept.connected (alive_of_bus there)
  | counted _ alive => exact kept.connected alive
  | received found => exact kept.connected (kept.alive_of_open (by rw [found]; rfl))
  | granted found => exact kept.connected (kept.alive_of_open (by rw [found]; rfl))
  | abandoned found => exact kept.connected (kept.alive_of_open (caller_of_open found))
  | cloned held => exact kept.connected (alive_of_held held)
  | dropped held => exact kept.connected (alive_of_held held)
  | announced held => exact kept.connected (alive_of_held held)
  | served connected => exact connected
  | stopped connected => exact connected

/-- Every step keeps the protocol. -/
theorem Protocol.step (kept : s.Protocol) (step : SystemStep s act t) : t.Protocol := by
  -- Whoever acts finds the actor in its loop, so every message is queued.
  have connected := kept.connected_of_step step
  cases step_move step with
  | called _ alive asks => exact kept.called alive asks _
  | unsubscribed => exact kept.sent connected rfl _
  | cleaned => exact kept.sent connected rfl _
  | counted _ _ buses pubs => exact kept.counted connected buses pubs
  | received found => exact kept.received found
  | granted found => exact (kept.received found).newHandle connected _
  | abandoned found => exact kept.finished (caller_of_open found) rfl (.inl rfl)
  | cloned => exact kept.newHandle connected _
  | dropped _ unborrowed => exact kept.removed connected unborrowed
  | announced _ unborrowed => exact (kept.removed connected unborrowed).sent connected rfl _
  | served _ front turn => exact kept.served connected front turn
  | stopped _ empty unreferenced =>
    -- The last sender is gone, and so is every call.
    exact
      { fresh := kept.fresh
        unmade := kept.unmade
        roomy := kept.roomy
        borrowed := kept.borrowed
        alive := kept.alive
        closed := fun _ => ⟨unreferenced, empty⟩
        queued := kept.queued
        awaited := kept.awaited
        once := kept.once }

/-- The protocol is kept in every run from the start of the actor. -/
theorem protocol_of_run {acts : List (ClientAction τ)}
    (run : Run SystemStep (newWithHandle : BusSystem build τ) acts s) : s.Protocol :=
  run.invariant newWithHandle_protocol fun _ _ _ before step => before.step step

/-- New requests are put at the end of the channel, and whoever is to be answered waits. -/
def Posts (s t : BusSystem build τ) : Prop :=
  ∃ posted, t.requests.queue = s.requests.queue ++ posted ∧
    ∀ request ∈ posted, ∀ reply, request.message.replyTo = some reply →
      reply = s.nextReply ∧ ∃ caller, t.calls reply = .waiting caller

/-- Without a new request, nothing is put into the channel. -/
theorem Posts.of_same (same : t.requests.queue = s.requests.queue) : s.Posts t :=
  ⟨[], by simpa using same, by simp⟩

/-- A message without a reply is put at the end. -/
theorem Protocol.send_posts (kept : s.Protocol) (connected : s.requests.connected = true)
    {message : EventBusMessage build τ} (quiet : message.replyTo = none)
    (subscription : Option ReplyId) : s.Posts (s.send message subscription) := by
  -- The one new message asks for no reply, so nobody has to wait for it.
  rw [send_eq kept.roomy connected]
  refine ⟨_, rfl, fun request there reply asked => ?_⟩
  obtain rfl := List.mem_singleton.mp there
  simp [quiet] at asked

/-- A call puts its request at the end and waits. -/
theorem Protocol.call_posts (kept : s.Protocol) (alive : s.Alive caller)
    {message : ReplyId → EventBusMessage build τ}
    (asks : ∀ reply, (message reply).replyTo = some reply) (subscription : Option ReplyId) :
    s.Posts (s.call caller message subscription) := by
  -- The one new message asks for the reply of the call that is made with it.
  rw [call_eq kept.roomy (kept.connected alive)]
  refine ⟨_, rfl, fun request there reply asked => ?_⟩
  obtain rfl := List.mem_singleton.mp there
  obtain rfl : s.nextReply = reply := Option.some.inj ((asks _).symm.trans asked)
  exact ⟨rfl, caller, by simp⟩

/-- Every step of a client only adds to the end of the channel. -/
theorem Protocol.posts (kept : s.Protocol) (step : SystemStep s act t)
    (client : ∀ next, act ≠ .serve next) : s.Posts t := by
  -- A step of a client sends one request at most, and a message that is sent goes to the end.
  have connected := kept.connected_of_step step
  cases step_move step with
  | called _ alive asks => exact kept.call_posts alive asks _
  | unsubscribed => exact kept.send_posts connected rfl _
  | cleaned => exact kept.send_posts connected rfl _
  | announced _ unborrowed =>
    -- The handle is gone before its end is announced.
    exact (kept.removed connected unborrowed).send_posts connected rfl _
  | served => exact absurd rfl (client _)
  | _ => exact .of_same rfl

/-- Serving answers the oldest request, whose caller, if it still waits, has its reply. -/
theorem deliver_calls (s : BusSystem build τ) (answer : Option (ReplyId × BusResult (Reply τ)))
    (reply : ReplyId) :
    (s.deliver answer).calls reply = s.calls reply ∨ ∃ caller result,
      answer = some (reply, result) ∧ s.calls reply = .waiting caller ∧
        (s.deliver answer).calls reply = .replied caller result := by
  -- An answer is for one call, and it is delivered only if this call waits.
  rcases s.deliver_cases answer with same | ⟨named, caller, result, sent, waits, delivered⟩
  · exact .inl (by rw [same])
  · by_cases same : reply = named
    · subst same
      exact .inr ⟨caller, result, sent, waits, by simp [delivered]⟩
    · exact .inl (by simp [delivered, same])

end BusSystem

end Imputio
