import Imputio.EventBus.Answers

/-! Every request has its turn, and the actor ends once its clients are gone and all is done. -/

namespace Imputio

open Transition

variable {build : Build} {τ : Type*}

/-- The actor takes a message. -/
def ClientAction.isServe : ClientAction τ → Bool
  | .serve _ => true
  | _ => false

/-- How many messages the actor takes. -/
def turns (acts : List (ClientAction τ)) : Nat := acts.countP ClientAction.isServe

namespace BusSystem

variable {s : BusSystem build τ}

/-- Nobody is left to use a handle. -/
theorem Protocol.not_alive (kept : s.Protocol) (unreferenced : s.Unreferenced) (caller : Caller) :
    ¬ s.Alive caller := by
  -- Each kind of handle is counted or numbered, and all of them are gone.
  obtain ⟨buses, pubs, subs⟩ := unreferenced
  cases caller with
  | busHandle => exact fun alive => absurd buses alive.ne'
  | pubHandle => exact fun alive => absurd pubs alive.ne'
  | subHandle handle =>
    -- A handle is one of those that were made.
    intro held
    have made : handle < s.nextHandle := by
      by_contra beyond
      exact held (kept.unmade handle (Nat.le_of_not_lt beyond))
    exact held (subs handle made)

/-- A call that is open keeps its handle, so no call is open once there are no handles. -/
theorem Protocol.not_open (kept : s.Protocol) (unreferenced : s.Unreferenced) (reply : ReplyId)
    (caller : Caller) : (s.calls reply).caller ≠ some caller :=
  fun borrows => kept.not_alive unreferenced caller (kept.alive_of_open borrows)

/-- Without any handle the actor takes what is left in the channel, and then it stops. -/
theorem Protocol.winds_down {t : BusSystem build τ} {act : ClientAction τ} (kept : s.Protocol)
    (unreferenced : s.Unreferenced) (step : SystemStep s act t) : t.Unreferenced ∧
      ((∃ next request rest, act = .serve next ∧ s.requests.queue = request :: rest ∧
          t.requests = { s.requests with queue := rest }) ∨
        act = .stop ∧ s.requests.queue = [] ∧ t.requests = s.requests.disconnect) := by
  -- Whoever makes a step other than the actor has a handle.
  have nobody := kept.not_alive unreferenced
  have silent := kept.not_open unreferenced
  cases step_move step with
  | called _ alive => exact absurd alive (nobody _)
  | unsubscribed held => exact absurd (alive_of_held held) (nobody _)
  | cleaned there => exact absurd (alive_of_bus there) (nobody _)
  | counted _ alive => exact absurd alive (nobody _)
  | received found => exact absurd (caller_of_open (.inr ⟨_, found⟩)) (silent _ _)
  | granted found => exact absurd (caller_of_open (.inr ⟨_, found⟩)) (silent _ _)
  | abandoned found => exact absurd (caller_of_open found) (silent _ _)
  | cloned held => exact absurd (alive_of_held held) (nobody _)
  | dropped held => exact absurd (alive_of_held held) (nobody _)
  | announced held => exact absurd (alive_of_held held) (nobody _)
  | @served next request rest answer bus connected front turn =>
    -- Only the tables of the bus and the channel change, and perhaps one call.
    refine ⟨?_, .inl ⟨next, request, rest, rfl, front, ?_⟩⟩
    -- An answer is kept for its caller, and makes no handle by itself.
    · rcases deliver_cases _ answer with same | ⟨_, _, _, -, -, same⟩ <;> rw [same] <;>
        exact unreferenced
    · rcases deliver_cases _ answer with same | ⟨_, _, _, -, -, same⟩ <;> rw [same]
  | stopped connected empty => exact ⟨unreferenced, .inr ⟨rfl, empty, rfl⟩⟩

end BusSystem

namespace ReplySystem

variable {s t : ReplySystem build τ} {act : ClientAction τ} {acts : List (ClientAction τ)}

/-- The histories only grow, that of the actor by the messages that it takes. -/
theorem Wired.grows (wired : s.Wired) (step : ReplyStep s act t) : ∃ more processed,
    t.sent = s.sent ++ more ∧ t.log = s.log ++ processed ∧ processed.length = turns [act] := by
  -- Only a turn of the actor adds to the log, and only a client adds to what was sent.
  by_cases quiet : BusSystem.Quiet act
  · -- Such a step is not one of the actor's turns.
    obtain ⟨core, posted, rfl, -⟩ := wired.quiet_spec quiet step
    refine ⟨_, [], rfl, (List.append_nil _).symm, ?_⟩
    cases act <;> first | rfl | exact quiet.elim
  · cases act with
    | receive reply =>
      obtain ⟨caller, result, rest, -, -, shape⟩ := wired.receives step.taken
      rcases shape with ⟨id, -, rfl⟩ | ⟨-, rfl⟩
      · exact ⟨[], [], (List.append_nil _).symm, (List.append_nil _).symm, rfl⟩
      · exact ⟨[], [], (List.append_nil _).symm, (List.append_nil _).symm, rfl⟩
    | abandon reply =>
      have gone : s.abandon reply = some t := step.taken
      unfold abandon at gone
      split at gone
      · obtain rfl := Option.some.inj gone
        exact ⟨[], [], (List.append_nil _).symm, (List.append_nil _).symm, rfl⟩
      · simp at gone
    | serve next =>
      obtain ⟨request, rest, bus, answer, replies, senders, -, -, -, -, rfl⟩ :=
        wired.serve_spec step.taken
      exact ⟨[], [_], (List.append_nil _).symm, rfl, rfl⟩
    | _ => exact absurd trivial quiet

/-- A run adds to the history of the actor as many messages as it took. -/
theorem Wired.grows_run (wired : s.Wired) (run : Run ReplyStep s acts t) : t.Wired ∧
    ∃ more processed, t.sent = s.sent ++ more ∧ t.log = s.log ++ processed ∧
      processed.length = turns acts := by
  -- By induction on the run, together with the wiring that a step needs.
  induction run with
  | nil => exact ⟨wired, [], [], (List.append_nil _).symm, (List.append_nil _).symm, rfl⟩
  | snoc _ step ih =>
    -- What the last step adds comes after what the run before it has added.
    obtain ⟨there, more, processed, sent, log, count⟩ := ih
    obtain ⟨more', processed', sent', log', count'⟩ := there.grows step
    refine ⟨there.step step, more ++ more', processed ++ processed', ?_, ?_, ?_⟩
    · rw [sent', sent, List.append_assoc]
    · rw [log', log, List.append_assoc]
    · rw [List.length_append, count, count', turns, turns, turns, List.countP_append]

/-- The actor can take the next message, whatever it is, and nobody else is affected by it. -/
theorem Wired.can_serve (wired : s.Wired) {request : Request build τ}
    {rest : List (Request build τ)} (front : s.core.requests.queue = request :: rest) :
    ∃ next t, ReplyStep s (.serve next) t ∧ t.core.requests.queue = rest ∧
      t.core.calls = s.core.calls := by
  -- The iteration over the free ids yields one of them if there is one.
  have yields : ∃ next, IterNext s.core.bus.ids next := by
    by_cases free : ∃ id, s.core.bus.ids id = true
    · exact ⟨some free.choose, free.choose_spec⟩
    · exact ⟨none, fun id => by simpa using not_exists.mp free id⟩
  obtain ⟨next, picked⟩ := yields
  have connected : s.core.requests.connected = true := by
    by_contra still
    have left : s.core.requests.connected = false := by simpa using still
    have empty := (wired.protocol.closed left).2
    exact List.cons_ne_nil _ _ (front.symm.trans empty)
  obtain ⟨bus, answer, replies, senders, -, -, served⟩ := wired.serves front next
  refine ⟨next, _, ⟨fun other _ _ _ same _ _ => ?_, (if_pos connected).trans served⟩, rfl, rfl⟩
  obtain rfl := ClientAction.serve.inj same
  exact picked

/-- The actor alone can empty its channel, one turn for each message. -/
theorem Wired.drains (wired : s.Wired) : ∃ acts t, Run ReplyStep s acts t ∧
    turns acts = acts.length ∧ acts.length = s.core.requests.queue.length ∧
      t.core.requests.queue = [] ∧ t.core.calls = s.core.calls := by
  -- The induction is on what is left in the channel.
  generalize left : s.core.requests.queue = queue
  induction queue generalizing s with
  | nil => exact ⟨[], s, .nil, rfl, rfl, left, rfl⟩
  | cons request rest ih =>
    -- One turn takes the oldest message, and the rest is taken in the same way.
    obtain ⟨next, mid, step, queue, calls⟩ := wired.can_serve left
    obtain ⟨acts, t, run, only, count, empty, kept⟩ := ih (wired.step step) queue
    refine ⟨.serve next :: acts, t, .cons step run, ?_, ?_, empty, kept.trans calls⟩
    · rw [turns, List.countP_cons_of_pos rfl, List.length_cons, ← only, turns]
    · rw [List.length_cons, count, List.length_cons]

/-- A waiting call whose reply is in its channel can take it. -/
theorem receive_of_front {reply : ReplyId} {caller : Caller} {result : BusResult (Reply τ)}
    {rest : List (BusResult (Reply τ))} (waits : s.core.calls reply = .waiting caller)
    (front : (s.replies reply).queue = result :: rest) :
    ∃ t, ReplyStep s (.receive reply) t := by
  -- The reply is taken out of the channel, and a handle may be made of it.
  have received :
      (s.replies reply).tryRecv = some (result, { s.replies reply with queue := rest }) :=
    Channel.tryRecv_eq_some_iff.mpr ⟨front, rfl⟩
  have enabled : ∃ t, s.receive reply = some t := by
    rw [receive, waits]
    simp only [received]
    split <;> exact ⟨_, rfl⟩
  obtain ⟨t, taken⟩ := enabled
  exact ⟨t, by simp, taken⟩

end ReplySystem

open ReplySystem

/--
Every request has its turn, whatever the other clients do in the meantime.

With `front` requests ahead of it, it is still in the channel, one place further ahead for each
turn of the actor, until the actor has had as many turns; with the next one it is processed, and
its reply is where the caller waits, unless the caller has taken it or given up.
-/
theorem answered_in_turn {before acts : List (ClientAction τ)} {s t : ReplySystem build τ}
    {front rest : List (Request build τ)} {request : Request build τ} {reply : ReplyId}
    (reached : Run ReplyStep newWithHandle before s)
    (queued : s.core.requests.queue = front ++ request :: rest)
    (asked : request.message.replyTo = some reply) (run : Run ReplyStep s acts t) :
    (turns acts ≤ front.length →
      (t.core.requests.queue.map Request.message)[front.length - turns acts]? =
        some request.message) ∧
    (front.length < turns acts → ∃ entry result,
      t.log[s.log.length + front.length]? = some entry ∧ entry.message = request.message ∧
        entry.reply = some (reply, result) ∧ t.Settled reply result) := by
  -- The channel is what was sent without what is in the log, so that places can be compared.
  obtain ⟨wired, logged⟩ := logged_of_run reached
  obtain ⟨-, after⟩ := logged_of_run (reached.append run)
  obtain ⟨-, more, processed, sent, log, count⟩ := wired.grows_run run
  -- The request has kept its place among all that was ever sent.
  have place : t.sent[s.log.length + front.length]? = some request.message := by
    rw [sent, logged.sent, queued]
    simp
  -- The actor has processed as many messages more as it has had turns.
  have taken : t.log.length = s.log.length + turns acts := by
    rw [log, List.length_append, count]
  rw [after.sent] at place
  constructor
  · intro ahead
    rw [List.getElem?_append_right (by simp [taken, ahead]), List.length_map, taken] at place
    rwa [Nat.add_sub_add_left] at place
  · intro passed
    -- The place is among what has been processed, where every call has its reply.
    rw [List.getElem?_append_left (by simp [taken, passed]), List.getElem?_map] at place
    obtain ⟨entry, there, message⟩ := Option.map_eq_some_iff.mp place
    have among : entry ∈ t.log := List.mem_of_getElem? there
    obtain ⟨result, answered, settled⟩ := after.settled entry among reply (message ▸ asked)
    exact ⟨entry, result, there, message, answered, settled⟩

/--
The bus never deadlocks: from wherever it is, the actor alone can answer everyone who waits.

It takes one turn for each message in its channel, and then every call that waits can return.
-/
theorem actor_answers_everyone {acts : List (ClientAction τ)} {s : ReplySystem build τ}
    (run : Run ReplyStep newWithHandle acts s) : ∃ served t, Run ReplyStep s served t ∧
      turns served = served.length ∧ served.length = s.core.requests.queue.length ∧
      t.core.requests.queue = [] ∧ t.core.calls = s.core.calls ∧
      ∀ reply caller, s.core.calls reply = .waiting caller →
        ∃ u, ReplyStep t (.receive reply) u := by
  -- The actor drains the channel first, and then every reply is there.
  obtain ⟨wired, -⟩ := logged_of_run run
  obtain ⟨served, t, onward, only, count, empty, calls⟩ := wired.drains
  refine ⟨served, t, onward, only, count, empty, calls, ?_⟩
  intro reply caller waits
  -- The channels of the replies are in order after the actor's turns as well.
  have after := (wired.grows_run onward).1
  have waits' : t.core.calls reply = .waiting caller := (congrFun calls reply).trans waits
  -- A call whose reply is not there yet would have its request in the channel.
  cases there : (t.replies reply).queue with
  | nil =>
    have owed := after.owed waits' there
    simp [BusSystem.queuedReplies, empty] at owed
  | cons result rest => exact receive_of_front waits' there

/-- How many steps are left until the actor has ended, once nobody can send to it any more. -/
def ReplySystem.stepsLeft (s : ReplySystem build τ) : Nat :=
  if s.core.requests.connected then s.core.requests.queue.length + 1 else 0

/-- Without any handle each step brings the actor one step nearer to its end. -/
theorem ReplySystem.Wired.winding_step {s t : ReplySystem build τ} {act : ClientAction τ}
    (wired : s.Wired) (unreferenced : s.core.Unreferenced) (step : ReplyStep s act t) :
    t.core.Unreferenced ∧ (act = .stop ∨ act.isServe) ∧ t.stepsLeft + 1 = s.stepsLeft ∧
      t.sent = s.sent := by
  -- With nobody left, a step serves a message or stops the actor.
  have viewed := wired.viewed step
  have connected : s.core.requests.connected = true := wired.protocol.connected_of_step viewed
  obtain ⟨gone, ⟨next, request, rest, rfl, front, requests⟩ | ⟨rfl, empty, requests⟩⟩ :=
    wired.protocol.winds_down unreferenced viewed
  -- One message less is left.
  · have before : s.core.requests.queue = request :: rest := front
    have after : t.core.requests = { s.core.requests with queue := rest } := requests
    obtain ⟨_, _, _, _, _, _, -, -, -, -, rfl⟩ := wired.serve_spec step.taken
    refine ⟨gone, .inr rfl, ?_, rfl⟩
    rw [stepsLeft, stepsLeft, after, before, if_pos connected, if_pos connected, List.length_cons]
  -- The loop of the actor ends, as all senders are gone.
  · have before : s.core.requests.queue = [] := empty
    have after : t.core.requests = s.core.requests.disconnect := requests
    obtain ⟨core, stepped, rfl⟩ := Option.map_eq_some_iff.mp step.taken
    have same : core.requests = s.core.requests.disconnect := after
    refine ⟨gone, .inl rfl, ?_, ?_⟩
    · rw [stepsLeft, stepsLeft, after, before, if_pos connected, Channel.disconnect,
        if_neg (by simp)]
      rfl
    · simp [client, same, Channel.disconnect]

/--
Once the last handle is gone, the actor processes what is left in its channel and ends.

It does so in exactly one step for each message and one to stop, nobody else can do anything, and
nothing that was ever sent is left unprocessed.
-/
theorem actor_ends_when_unreferenced {before acts : List (ClientAction τ)}
    {s t : ReplySystem build τ} (reached : Run ReplyStep newWithHandle before s)
    (unreferenced : s.core.Unreferenced) (run : Run ReplyStep s acts t) :
    (∀ act ∈ acts, act = .stop ∨ act.isServe) ∧ acts.length + t.stepsLeft = s.stepsLeft ∧
      (t.stepsLeft ≠ 0 → ∃ act u, ReplyStep t act u) ∧
      (t.stepsLeft = 0 → t.log.map Processed.message = s.sent ∧ ∀ act u, ¬ ReplyStep t act u) := by
  -- The induction counts the steps down, and at zero the actor is gone.
  obtain ⟨wired, -⟩ := logged_of_run reached
  obtain ⟨after, logged⟩ := logged_of_run (reached.append run)
  -- Each step of the run is one of those that bring the actor nearer to its end.
  have each : t.Wired ∧ t.core.Unreferenced ∧ (∀ act ∈ acts, act = .stop ∨ act.isServe) ∧
      acts.length + t.stepsLeft = s.stepsLeft ∧ t.sent = s.sent := by
    clear after logged reached
    induction run with
    | nil => exact ⟨wired, unreferenced, by simp, by simp, rfl⟩
    | snoc _ step ih =>
      obtain ⟨there, gone, only, count, sent⟩ := ih
      obtain ⟨gone', act, left, sent'⟩ := there.winding_step gone step
      -- Nobody has come back, so each step takes one off what is left.
      refine ⟨there.step step, gone', ?_, by rw [List.length_append, List.length_singleton]; omega,
        sent'.trans sent⟩
      intro other among
      rcases List.mem_append.mp among with earlier | now
      · exact only other earlier
      · obtain rfl := List.mem_singleton.mp now
        exact act
  obtain ⟨-, gone, only, count, sent⟩ := each
  refine ⟨only, count, ?_, ?_⟩
  · intro left
    have connected : t.core.requests.connected = true := by
      by_contra still
      exact left (if_neg still)
    cases front : t.core.requests.queue with
    | nil =>
      -- The channel is empty and no sender is left, so receiving fails.
      have stops : ∃ u, t.next .stop = some u := by
        simp only [next, BusSystem.next]
        rw [if_pos ⟨connected, by simp [front], gone⟩]
        exact ⟨_, rfl⟩
      obtain ⟨u, taken⟩ := stops
      exact ⟨.stop, u, by simp, taken⟩
    -- There is a message that the actor can take.
    | cons request rest =>
      obtain ⟨next, u, step, -⟩ := after.can_serve front
      exact ⟨_, u, step⟩
  · intro ended
    -- With no step left, the receiver is gone, and nothing was left in the channel.
    have left : t.core.requests.connected = false := by
      by_contra still
      rw [stepsLeft, if_pos (by simpa using still)] at ended
      exact Nat.succ_ne_zero _ ended
    have empty : t.core.requests.queue = [] := (after.protocol.closed left).2
    refine ⟨?_, fun act u step => ?_⟩
    · rw [← sent, logged.sent, empty, List.map_nil, List.append_nil]
    · have connected : t.core.requests.connected = true :=
        after.protocol.connected_of_step (after.viewed step)
      simp [left] at connected

/-- A subscriber waits behind a publication, whose caller gives up. -/
theorem answered_in_turn_second :
    ∃ s t : ReplySystem .immediate Nat,
      Run ReplyStep newWithHandle [.getSubscriber, .serve (some 1), .receive 0, .getPublisher,
        .publishEvent 7, .batchPoll 0] s ∧
      Run ReplyStep s [.serve none, .abandon 1, .serve none] t ∧
      ∃ entry result, t.log[2]? = some entry ∧ entry.reply = some (2, result) ∧
        t.Settled 2 result := by
  -- The poll is second in the channel and has its reply after two turns of the actor.
  have runs : ∃ s t : ReplySystem .immediate Nat,
      Run ReplyStep newWithHandle [.getSubscriber, .serve (some 1), .receive 0, .getPublisher,
        .publishEvent 7, .batchPoll 0] s ∧
      Run ReplyStep s [.serve none, .abandon 1, .serve none] t ∧ s.log.length = 1 ∧
      s.core.requests.queue = [⟨.pushEvent 7 1, none⟩] ++ ⟨.batchPoll 1 2, some 0⟩ :: [] :=
    ⟨_, _,
      .cons ⟨by simp, rfl⟩ <|
      .cons ⟨fun _ _ _ _ same _ _ => by cases same; rfl, rfl⟩ <|
      .cons ⟨by simp, rfl⟩ <| .cons ⟨by simp, rfl⟩ <| .cons ⟨by simp, rfl⟩ <|
      .cons ⟨by simp, rfl⟩ .nil,
      .cons ⟨fun _ _ _ _ _ front asked => by cases front; simp at asked, rfl⟩ <|
      .cons ⟨by simp, rfl⟩ <|
      .cons ⟨fun _ _ _ _ _ front asked => by cases front; simp at asked, rfl⟩ .nil, rfl, rfl⟩
  obtain ⟨s, t, before, after, one, queued⟩ := runs
  obtain ⟨entry, result, there, -, answered, settled⟩ :=
    (answered_in_turn before queued rfl after).2 (by decide)
  rw [one] at there
  exact ⟨s, t, before, after, entry, result, there, answered, settled⟩

/-- A poll that waits has its reply after one turn of the actor, and returns. -/
theorem actor_answers_everyone_polled :
    ∃ s : ReplySystem .immediate Nat,
      Run ReplyStep newWithHandle [.getSubscriber, .serve (some 1), .receive 0, .poll 0] s ∧
      ∃ served t u, Run ReplyStep s served t ∧ served.length = 1 ∧
        ReplyStep t (.receive 1) u := by
  -- After these four steps one request is in the channel, and its caller waits.
  have run : Run ReplyStep (newWithHandle : ReplySystem .immediate Nat)
      [.getSubscriber, .serve (some 1), .receive 0, .poll 0] _ :=
    .cons ⟨by simp, rfl⟩ <|
    .cons ⟨fun _ _ _ _ same _ _ => by cases same; rfl, rfl⟩ <|
    .cons ⟨by simp, rfl⟩ <| .cons ⟨by simp, rfl⟩ .nil
  obtain ⟨served, t, onward, -, count, -, -, returns⟩ := actor_answers_everyone run
  obtain ⟨u, received⟩ := returns 1 (.subHandle 0) rfl
  exact ⟨_, run, served, t, u, onward, count, received⟩

/-- The last handles are dropped, and the actor processes what the drop of one has sent. -/
theorem actor_ends_when_unreferenced_dropped :
    ∃ s t : ReplySystem .immediate Nat,
      Run ReplyStep newWithHandle
        [.getSubscriber, .serve (some 1), .receive 0, .dropSub 0, .dropBus] s ∧
      Run ReplyStep s [.serve none, .stop] t ∧ t.log.map Processed.message = s.sent ∧
      ∀ act u, ¬ ReplyStep t act u := by
  -- Dropping the subscription leaves a message, and dropping the bus leaves no handle.
  have runs : ∃ s t : ReplySystem .immediate Nat,
      Run ReplyStep newWithHandle
        [.getSubscriber, .serve (some 1), .receive 0, .dropSub 0, .dropBus] s ∧
      Run ReplyStep s [.serve none, .stop] t ∧ s.core.Unreferenced ∧ t.stepsLeft = 0 :=
    ⟨_, _,
      .cons ⟨by simp, rfl⟩ <|
      .cons ⟨fun _ _ _ _ same _ _ => by cases same; rfl, rfl⟩ <|
      .cons ⟨by simp, rfl⟩ <| .cons ⟨by simp, rfl⟩ <| .cons ⟨by simp, rfl⟩ .nil,
      .cons ⟨fun _ _ _ _ _ front asked => by cases front; simp at asked, rfl⟩ <|
      .cons ⟨by simp, rfl⟩ .nil, by decide, rfl⟩
  obtain ⟨s, t, before, after, unreferenced, ended⟩ := runs
  obtain ⟨all, nothing⟩ :=
    (actor_ends_when_unreferenced before unreferenced after).2.2.2 ended
  exact ⟨s, t, before, after, all, nothing⟩

end Imputio
