import Imputio.EventBus.Replies

/-! Every request is answered once, with its own result, and no channel ever fails a client. -/

namespace Imputio

open Transition

variable {build : Build} {τ : Type*}

/-- The actor answers with an error only when it has no id to grant. -/
theorem BusStep.error_eq {bus after : EventBus τ} {entry : Processed build τ} {reply : ReplyId}
    {error : EventBusError} (step : BusStep bus entry after)
    (answered : entry.reply = some (reply, .error error)) : error = .resourceExhaustion := by
  -- Of the eight effects only a failed subscription and the two polls can carry an error.
  cases step.effect with
  | granted => simp at answered
  | exhausted => simpa [eq_comm] using (Prod.mk.inj (Option.some.inj answered)).2
  | removed => simp at answered
  | marked => simp at answered
  | pushed => simp at answered
  -- A poll that finds no queue answers with nothing, which is no error.
  | @polled id =>
    cases live : bus.eventQueues id <;> simp [EventBus.poll, live, Except.map] at answered
  | @drained id =>
    cases live : bus.eventQueues id <;> simp [EventBus.batchPoll, live, Except.map] at answered
  | cleaned => simp at answered

namespace ReplySystem

/-- A result has reached its caller, in the channel or as what the call returned. -/
def Got (s : ReplySystem build τ) (reply : ReplyId) (result : BusResult (Reply τ)) : Prop :=
  (∃ caller rest, s.core.calls reply = .waiting caller ∧
    (s.replies reply).queue = result :: rest) ∨
  s.core.calls reply = .returned result

/-- The one reply to a request is in its channel or has been taken, unless nobody waits for it. -/
def Settled (s : ReplySystem build τ) (reply : ReplyId) (result : BusResult (Reply τ)) : Prop :=
  (∃ caller, s.core.calls reply = .waiting caller ∧ (s.replies reply).queue = [result]) ∨
  s.core.calls reply = .returned result ∨ s.core.calls reply = .abandoned

/-- What the history says about the requests and their replies. -/
structure Logged (s : ReplySystem build τ) : Prop where
  sent : s.sent = s.log.map Processed.message ++ s.core.requests.queue.map Request.message
  processed : Run BusStep .new s.log s.core.bus
  once : (s.log.filterMap fun entry => entry.message.replyTo).Nodup
  done : ∀ entry ∈ s.log, ∀ reply, entry.message.replyTo = some reply →
    reply ∉ s.core.queuedReplies
  settled : ∀ entry ∈ s.log, ∀ reply, entry.message.replyTo = some reply →
    ∃ result, entry.reply = some (reply, result) ∧ s.Settled reply result
  got : ∀ reply result, s.Got reply result → ∃ entry ∈ s.log, entry.reply = some (reply, result)

variable {s t : ReplySystem build τ} {act : ClientAction τ}

/-- Nothing is processed yet when the actor starts. -/
theorem newWithHandle_logged : (newWithHandle : ReplySystem build τ).Logged where
  sent := rfl
  processed := .nil
  once := List.nodup_nil
  done := by simp [newWithHandle]
  settled := by simp [newWithHandle]
  got := by
    -- No call has been made, so none waits and none has returned.
    rintro reply result (⟨caller, rest, waits, -⟩ | returned)
    · simp [newWithHandle, BusSystem.newWithHandle] at waits
    · simp [newWithHandle, BusSystem.newWithHandle] at returned

/-- A request that was settled has been made. -/
theorem Settled.made {reply : ReplyId} {result : BusResult (Reply τ)}
    (settled : s.Settled reply result) (wired : s.Wired) : reply ≠ s.core.nextReply := by
  -- The next reply channel is unused, and a settled call is in none of the states that are.
  rintro rfl
  have fresh := wired.fresh
  rcases settled with ⟨caller, waits, -⟩ | returned | gone
  · simp [fresh] at waits
  · simp [fresh] at returned
  · simp [fresh] at gone

/-- A step that uses no reply channel adds to the history what it has sent. -/
theorem Logged.of_quiet (logged : s.Logged) (wired : s.Wired) (quiet : BusSystem.Quiet act)
    (step : ReplyStep s act t) : t.Logged := by
  -- Nothing is processed, so what is known of the history only has to be read in the new state.
  obtain ⟨core, posted, rfl, bus, queue, asks, calls⟩ := wired.quiet_spec quiet step
  -- Such a step may only post requests and start the call of the next reply channel.
  refine ⟨?_, ?_, logged.once, ?_, ?_, ?_⟩
  · change s.sent ++ (core.requests.queue.drop _).map Request.message = _
    rw [queue, List.drop_left, logged.sent, List.append_assoc, ← List.map_append, ← queue]
    rfl
  · change Run BusStep .new s.log core.bus
    rw [bus]
    exact logged.processed
  · intro entry among reply asked owed
    obtain ⟨result, -, settled⟩ := logged.settled entry among reply asked
    have there : reply ∈ core.queuedReplies := owed
    rw [BusSystem.queuedReplies, queue, List.filterMap_append] at there
    rcases List.mem_append.mp there with old | new
    · exact logged.done entry among reply asked old
    · obtain ⟨request, posts, carries⟩ := List.mem_filterMap.mp new
      exact settled.made wired (asks request posts reply carries)
  · intro entry among reply asked
    obtain ⟨result, answered, settled⟩ := logged.settled entry among reply asked
    refine ⟨result, answered, ?_⟩
    -- The calls that were settled are older than the one that starts.
    rcases calls reply with same | ⟨new, -⟩
    · unfold Settled client
      rw [same]
      exact settled
    · exact absurd new (settled.made wired)
  · intro reply result got
    apply logged.got
    rcases calls reply with same | ⟨rfl, caller, waits⟩
    · unfold Got client at got
      rw [same] at got
      exact got
    · -- The channel of a new request is still empty.
      rcases got with ⟨_, rest, -, front⟩ | returned
      · have empty : s.replies s.core.nextReply = .bounded 1 := (wired.unused _ wired.fresh).1
        have filled : (s.replies s.core.nextReply).queue = result :: rest := front
        simp [empty, Channel.bounded] at filled
      · simp [client, waits] at returned

/-- A call that ends leaves the history as it is. -/
theorem Logged.of_closed {reply : ReplyId} {state : CallState τ}
    {channel : Channel (BusResult (Reply τ))} (logged : s.Logged)
    (calls : t.core.calls = Function.update s.core.calls reply state)
    (replies : t.replies = Function.update s.replies reply channel)
    (log : t.log = s.log) (sent : t.sent = s.sent) (requests : t.core.requests = s.core.requests)
    (bus : t.core.bus = s.core.bus)
    (settled : ∀ result, s.Settled reply result → state = .returned result ∨ state = .abandoned)
    (got : state = .abandoned ∨ ∃ result, state = .returned result ∧ s.Got reply result) :
    t.Logged := by
  -- The log and the requests are the same, so only the replies have to be looked at.
  refine ⟨?_, ?_, ?_, ?_, ?_, ?_⟩
  · rw [sent, log, requests]
    exact logged.sent
  · rw [log, bus]
    exact logged.processed
  · rw [log]
    exact logged.once
  · rw [log, BusSystem.queuedReplies, requests]
    exact logged.done
  · rw [log]
    intro entry among other asked
    obtain ⟨result, answered, before⟩ := logged.settled entry among other asked
    refine ⟨result, answered, ?_⟩
    unfold Settled
    rw [calls, replies]
    by_cases same : other = reply
    · subst same
      -- The call that ends has taken its reply, or nobody waits for it any more.
      rcases settled result before with rfl | rfl
      · exact .inr (.inl (by simp))
      · exact .inr (.inr (by simp))
    · simpa [Settled, same] using before
  · rw [log]
    intro other result after
    unfold Got at after
    rw [calls, replies] at after
    by_cases same : other = reply
    · subst same
      rcases got with rfl | ⟨value, rfl, had⟩
      · simp at after
      · obtain rfl : value = result := by simpa using after
        exact logged.got other value had
    · exact logged.got other result (by simpa [Got, same] using after)

/-- The actor adds the request and its one reply to the history. -/
theorem Logged.of_served (logged : s.Logged) (wired : s.Wired) {next : Option SubId}
    (step : ReplyStep s (.serve next) t) : t.Logged := by
  -- One entry is added; each field is shown for the earlier entries and then for this one.
  obtain ⟨request, rest, bus, answer, replies, senders, front, processed, answered, -, rfl⟩ :=
    wired.serve_spec step.taken
  have turn : BusStep s.core.bus ⟨request.message, next, answer⟩ bus :=
    ⟨fun reply asks => step.picked next request rest reply rfl front asks, processed⟩
  have asked : answer.map Prod.fst = request.message.replyTo := turn.answers
  have owed := BusSystem.queuedReplies_front front
  -- A request that was settled before is not the one that is answered now.
  have other : ∀ entry ∈ s.log, ∀ reply, entry.message.replyTo = some reply →
      request.message.replyTo ≠ some reply := by
    intro entry among reply carries now
    exact logged.done entry among reply carries (by rw [owed, now]; exact List.mem_cons_self)
  refine ⟨?_, logged.processed.snoc turn, ?_, ?_, ?_, ?_⟩
  · change s.sent = (s.log ++ [_]).map Processed.message ++ rest.map Request.message
    rw [logged.sent, front]
    simp
  · change ((s.log ++ [_]).filterMap fun entry : Processed build τ => _).Nodup
    rw [List.filterMap_append]
    refine logged.once.append ?_ ?_
    · cases carries : request.message.replyTo <;> simp [carries]
    · intro reply earlier now
      obtain ⟨entry, among, carries⟩ := List.mem_filterMap.mp earlier
      obtain ⟨_, this, asks⟩ := List.mem_filterMap.mp now
      obtain rfl := List.mem_singleton.mp this
      exact other entry among reply carries asks
  · intro entry among reply carries later
    have there : reply ∈ rest.filterMap fun request => request.message.replyTo := later
    rcases List.mem_append.mp among with earlier | now
    · exact logged.done entry earlier reply carries (owed ▸ List.mem_append_right _ there)
    · obtain rfl := List.mem_singleton.mp now
      exact wired.protocol.not_later front carries there
  · intro entry among reply carries
    rcases List.mem_append.mp among with earlier | now
    · obtain ⟨result, sent, settled⟩ := logged.settled entry earlier reply carries
      refine ⟨result, sent, ?_⟩
      have distinct := other entry earlier reply carries
      cases answered with
      | unasked => exact settled
      | @filled named value caller waits empty =>
        have aside : reply ≠ named := by
          rintro rfl
          exact distinct asked.symm
        simpa [Settled, aside] using settled
      | ignored => exact settled
    · obtain rfl := List.mem_singleton.mp now
      have asks : request.message.replyTo = some reply := carries
      cases answered with
      | unasked => simp [asks] at asked
      | @filled named value caller waits empty =>
        obtain rfl : named = reply := Option.some.inj (asked.trans asks)
        exact ⟨value, rfl, .inl ⟨caller, waits, by simp⟩⟩
      | @ignored named value gone =>
        obtain rfl : named = reply := Option.some.inj (asked.trans asks)
        exact ⟨value, rfl, .inr (.inr gone)⟩
  · intro reply result got
    have old : s.Got reply result → ∃ entry ∈ s.log ++ [⟨request.message, next, answer⟩],
        entry.reply = some (reply, result) := by
      intro before
      obtain ⟨entry, among, sent⟩ := logged.got reply result before
      exact ⟨entry, List.mem_append_left _ among, sent⟩
    cases answered with
    | unasked => exact old got
    | @filled named value caller waits empty =>
      by_cases same : reply = named
      · -- What is in the channel now is the reply that has just been sent.
        subst same
        rcases got with ⟨who, others, -, filled⟩ | returned
        · obtain rfl : value = result := by
            have only : [value] = result :: others := by simpa using filled
            exact (List.cons.inj only).1
          exact ⟨_, List.mem_append_right _ (List.mem_singleton.mpr rfl), rfl⟩
        · have already : s.core.calls reply = .returned result := returned
          simp [waits] at already
      · exact old (by simpa [Got, same] using got)
    | ignored => exact old got

/-- Every step keeps the history. -/
theorem Logged.step (logged : s.Logged) (wired : s.Wired) (step : ReplyStep s act t) :
    t.Logged := by
  -- Besides the quiet steps, a call takes its reply, gives up, or the actor serves.
  by_cases quiet : BusSystem.Quiet act
  · exact logged.of_quiet wired quiet step
  · cases act with
    | receive reply =>
      obtain ⟨caller, result, rest, waits, front, shape⟩ := wired.receives step.taken
      have settled : ∀ other, s.Settled reply other →
          CallState.returned result = .returned other ∨ CallState.returned result = .abandoned := by
        -- The channel holds one reply, so whatever was settled is what is taken.
        rintro other (⟨_, -, only⟩ | returned | gone)
        · rw [front] at only
          rw [(List.cons.inj only).1]
          exact .inl rfl
        · simp [waits] at returned
        · simp [waits] at gone
      have got : s.Got reply result := .inl ⟨caller, rest, waits, front⟩
      rcases shape with ⟨id, rfl, rfl⟩ | ⟨plain, rfl⟩
      · exact logged.of_closed rfl rfl rfl rfl rfl rfl settled (.inr ⟨_, rfl, got⟩)
      · exact logged.of_closed rfl rfl rfl rfl rfl rfl settled (.inr ⟨_, rfl, got⟩)
    | abandon reply =>
      have gone : s.abandon reply = some t := step.taken
      unfold abandon at gone
      split at gone
      · obtain rfl := Option.some.inj gone
        exact logged.of_closed rfl rfl rfl rfl rfl rfl (fun _ _ => .inr rfl) (.inl rfl)
      · simp at gone
    | serve next => exact logged.of_served wired step
    | _ => exact absurd trivial quiet

/-- The protocol, the channels and the history hold together in every run. -/
theorem logged_of_run {acts : List (ClientAction τ)}
    (run : Run ReplyStep (newWithHandle : ReplySystem build τ) acts s) : s.Wired ∧ s.Logged := by
  -- Induction on the run; the history relies on the channels, which are kept by themselves.
  induction run with
  | nil => exact ⟨newWithHandle_wired, newWithHandle_logged⟩
  | snoc _ step ih => exact ⟨ih.1.step step, ih.2.step ih.1 step⟩

/-- Without the reply channels, the system does what the bus and its clients do. -/
theorem refines_busSystem {acts : List (ClientAction τ)}
    (run : Run ReplyStep (newWithHandle : ReplySystem build τ) acts s) :
    Run SystemStep .newWithHandle acts s.view := by
  -- Every step has its counterpart, as the states of a run are wired.
  induction run with
  | nil => exact .nil
  | snoc earlier step ih => exact ih.snoc ((logged_of_run earlier).1.viewed step)

end ReplySystem

open ReplySystem

/--
The actor answers every request once, with the result of that request, and never waits.

While a handle is alive the actor is in its loop, so no call ever fails on a channel.
-/
theorem requests_answered {acts : List (ClientAction τ)} {s : ReplySystem build τ}
    (run : Run ReplyStep newWithHandle acts s) :
    (¬ s.core.Unreferenced → s.core.requests.connected = true ∧
      ∀ request, ∃ after, s.core.requests.send request = .sent after) ∧
    (s.sent = s.log.map Processed.message ++ s.core.requests.queue.map Request.message ∧
      Run BusStep .new s.log s.core.bus) ∧
    ((s.log.filterMap fun entry => entry.message.replyTo).Nodup ∧
      ∀ entry ∈ s.log, ∀ reply, entry.message.replyTo = some reply →
        ∃ result, entry.reply = some (reply, result) ∧
          ((∃ caller, s.core.calls reply = .waiting caller ∧ (s.replies reply).queue = [result]) ∨
            s.core.calls reply = .returned result ∨ s.core.calls reply = .abandoned)) ∧
    (∀ next, s.core.requests.queue ≠ [] → ∃ t, s.next (.serve next) = some t) ∧
    ∀ reply error, s.core.calls reply = .returned (.error error) →
      error ≠ .channelSendError ∧ error ≠ .channelRcvError := by
  -- Everything is read off the history, which is kept along with the wiring of the channels.
  obtain ⟨wired, logged⟩ := logged_of_run run
  have protocol := wired.protocol
  refine ⟨?_, ⟨logged.sent, logged.processed⟩, ⟨logged.once, logged.settled⟩, ?_, ?_⟩
  · -- The actor has left its loop only if no handle is alive.
    intro referenced
    have connected : s.core.requests.connected = true := by
      by_contra still
      have left : s.core.requests.connected = false := by simpa using still
      exact referenced (protocol.closed left).1
    exact ⟨connected, fun request => ⟨_, BusSystem.sends protocol.roomy connected request⟩⟩
  · -- A request that waits keeps the actor in its loop, and its channel has room.
    intro next waiting
    have connected : s.core.requests.connected = true := by
      by_contra still
      have left : s.core.requests.connected = false := by simpa using still
      exact waiting (protocol.closed left).2
    obtain ⟨request, rest, front⟩ := List.exists_cons_of_ne_nil waiting
    obtain ⟨bus, answer, replies, senders, -, -, served⟩ := wired.serves front next
    exact ⟨_, (if_pos connected).trans served⟩
  · -- Whatever a call has returned is the reply to a request that was processed.
    intro reply error returned
    obtain ⟨entry, among, answered⟩ := logged.got reply _ (.inr returned)
    have honest : ∀ entry ∈ s.log, ∀ error, entry.reply = some (reply, .error error) →
        error = .resourceExhaustion :=
      logged.processed.forall_mem fun _ _ _ step _ => step.error_eq
    rw [honest entry among error answered]
    exact ⟨by simp, by simp⟩

/-- A subscriber polls and gives up, the publisher publishes, and a batch poll is answered. -/
theorem requests_answered_polled :
    ∃ s : ReplySystem .immediate Nat,
      Run ReplyStep newWithHandle
        [.getSubscriber, .serve (some 1), .receive 0, .getPublisher, .poll 0, .publishEvent 7,
          .batchPoll 0, .abandon 1, .serve none, .serve none, .serve none] s ∧
      s.core.requests.connected = true ∧ (s.replies 3).queue = [.ok (.events [7])] := by
  -- The run is written out, and each step is possible by computation.
  have run : Run ReplyStep (newWithHandle : ReplySystem .immediate Nat)
      [.getSubscriber, .serve (some 1), .receive 0, .getPublisher, .poll 0, .publishEvent 7,
        .batchPoll 0, .abandon 1, .serve none, .serve none, .serve none] _ :=
    .cons ⟨by simp, rfl⟩ <|
    .cons ⟨fun _ _ _ _ same _ _ => by cases same; rfl, rfl⟩ <|
    .cons ⟨by simp, rfl⟩ <| .cons ⟨by simp, rfl⟩ <| .cons ⟨by simp, rfl⟩ <|
    .cons ⟨by simp, rfl⟩ <| .cons ⟨by simp, rfl⟩ <| .cons ⟨by simp, rfl⟩ <|
    .cons ⟨fun _ _ _ _ _ front asked => by cases front; simp at asked, rfl⟩ <|
    .cons ⟨fun _ _ _ _ _ front asked => by cases front; simp at asked, rfl⟩ <|
    .cons ⟨fun _ _ _ _ _ front asked => by cases front; simp at asked, rfl⟩ .nil
  have referenced := ((requests_answered run).1 fun gone => absurd gone.1 Nat.one_ne_zero).1
  exact ⟨_, run, referenced, rfl⟩

end Imputio
