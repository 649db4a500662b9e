import Imputio.EventBus.Consumer

/-! The two matchers leave a subscription alike exactly if no batch goes on behind its match. -/

namespace Imputio

open Transition FirstMatch BusSystem

variable {build : Build} {τ S : Type*}

namespace MatcherSystem

/-- The loop has been left exactly if it has taken a matching event. -/
def StopsAtMatch (matcher : τ → Bool) (s : MatcherSystem build τ S) : Prop :=
  s.loop = .exited ∨ s.loop = .returned ↔ Matches matcher s.taken

/-- What polling the subscription still yields, when some more events are published. -/
def Leaves (id : SubId) (later remaining : List τ) (s : MatcherSystem build τ S) : Prop :=
  ∃ rest, s.system.bus.eventQueues id = some rest ∧ rest ++ later = remaining

/-- A batch is taken for the loop only if its first match is the last event of the queue. -/
def MatchIsLast (id : SubId) (matcher : τ → Bool) (s : MatcherSystem build τ S)
    (act : MatcherAction τ) : Prop :=
  ∀ next request rest reply queue, act = .others (.serve next) →
    s.system.requests.queue = request :: rest → request.message = .batchPoll id reply →
      s.loop = .awaiting reply → s.system.bus.eventQueues id = some queue →
        behind matcher queue = []

/-- The loop has been handed nothing that follows its first match. -/
def KeepsRest (matcher : τ → Bool) (s : MatcherSystem build τ S) : Prop :=
  behind matcher s.handed = []

variable {m : PollMatcher τ S} {s t : MatcherSystem build τ S} {id : SubId} {matcher : τ → Bool}
  {queue : List τ}

/-- A loop that is in step with its subscription stops exactly at a match. -/
theorem Phase.stopsAtMatch (phase : s.Phase m matcher) : s.StopsAtMatch matcher := by
  -- A loop that has been left was left with a match, and before that there was none.
  have matched : s.Stopped m matcher → Matches matcher s.taken := by
    rintro ⟨quiet, result, -, taken, -, found⟩
    rw [taken, matches_append]
    exact .inr found
  unfold StopsAtMatch
  cases phase with
  | polling atTop quiet => simp [atTop, quiet]
  | waiting waits _ quiet => simp [waits, quiet]
  | replied waits _ _ quiet => simp [waits, quiet]
  | exited left stopped => simp [left, matched stopped]
  | returned left stopped => simp [left, matched stopped]

/-- A step that hands the loop nothing meets the condition. -/
theorem MatchIsLast.of_not_batch {act : MatcherAction τ}
    (other : ∀ next, act ≠ .others (.serve next)) : MatchIsLast id matcher s act :=
  fun next _ _ _ _ serving => absurd serving (other next)

/-- Once it has returned, what a loop was handed is what it has taken. -/
theorem handed_of_returned (returned : s.loop = .returned) : s.handed = s.taken := by
  simp [handed, inFlight, returned]

/-- A batch poll hands over all that the queue holds. -/
theorem delivered_batch {bus after : EventBus τ} {items : List τ} {reply : ReplyId}
    {next : Option SubId} {answer : Option (ReplyId × BusResult (Reply τ))}
    (turn : BusStep bus (⟨.batchPoll id reply, next, answer⟩ : Processed build τ) after)
    (there : bus.eventQueues id = some items) :
    (⟨.batchPoll id reply, next, answer⟩ : Processed build τ).delivered id = items := by
  -- The reply of the step is the one of a batch poll, which holds the whole queue.
  obtain ⟨-, processed⟩ := turn
  obtain ⟨-, rfl⟩ := Prod.mk.inj processed
  simp [Processed.delivered, there, Except.map, EventBus.drain_eq]

/-- Serving a message puts something behind the match exactly if it breaks the condition. -/
theorem Follows.keepsRest_served {next : Option SubId} {request : Request build τ}
    {rest : List (Request build τ)} {answer : Option (ReplyId × BusResult (Reply τ))}
    {bus : EventBus τ} (follows : s.Follows m id matcher queue) (batch : m.pollFn = .batchPoll)
    (served : BusSystem build τ) (sole : SoleConsumer id s (.others (.serve next)))
    (front : s.system.requests.queue = request :: rest)
    (turn : BusStep s.system.bus ⟨request.message, next, answer⟩ bus)
    (calls : served.calls = s.system.calls) :
    (s.aside (.serve next) (served.deliver answer)).KeepsRest matcher ↔
      s.KeepsRest matcher ∧ MatchIsLast id matcher s (.others (.serve next)) := by
  -- What the loop is handed now comes behind what it was handed before, where nothing matched.
  obtain ⟨-, hands⟩ := follows.handed_served served sole front turn calls
  rw [KeepsRest, KeepsRest, hands]
  cases takes : request.message.takesFrom id with
  | none =>
    -- The message takes nothing, so it is no batch poll of this queue.
    have free : MatchIsLast id matcher s (.others (.serve next)) := by
      intro _ other _ reply _ _ front' asks
      rw [front] at front'
      obtain ⟨rfl, -⟩ := List.cons.inj front'
      simp [asks, EventBusMessage.takesFrom] at takes
    rw [delivered_of_not_takes takes, List.append_nil, and_iff_left free]
  | some reply =>
    have waits := sole next request rest reply rfl front takes
    obtain ⟨nothing, quiet, -⟩ := follows.answered front turn takes waits calls
    have own : request.message = .batchPoll id reply := by
      have asked := follows.requested reply waits request (front ▸ List.mem_cons_self)
        (replyTo_of_takesFrom takes)
      rwa [batch] at asked
    obtain ⟨items, there, -⟩ := follows.stream
    rw [own] at turn ⊢
    rw [handed, nothing, List.append_nil, behind_of_not_matches quiet, behind_quiet quiet,
      show _ = items from delivered_batch turn there, eq_self, true_and]
    constructor
    · intro last _ _ _ _ items' _ _ _ _ there'
      rw [there] at there'
      obtain rfl := Option.some.inj there'
      exact last
    · intro cond
      exact cond next request rest reply items rfl front own waits there

/-- A step puts something behind the match exactly if it breaks the condition. -/
theorem Follows.keepsRest_step {act : MatcherAction τ} (follows : s.Follows m id matcher queue)
    (batch : m.pollFn = .batchPoll) (step : Consumes m id s act t) :
    t.KeepsRest matcher ↔ s.KeepsRest matcher ∧ MatchIsLast id matcher s act := by
  -- Only the actor hands anything over, so the condition is void for the other steps.
  obtain ⟨⟨sole, taken⟩, -⟩ := step
  cases taken.move with
  | @others act system spares moved =>
    by_cases serves : ∃ next, act = .serve next
    · obtain ⟨next, rfl⟩ := serves
      cases step_move moved with
      | called client => exact absurd rfl (client next)
      | counted client => exact absurd rfl (client next)
      | served _ front turn => exact follows.keepsRest_served batch _ sole front turn rfl
    · have client : ∀ next, act ≠ .serve next := fun next same => serves ⟨next, same⟩
      rw [KeepsRest, follows.handed_client client spares moved, KeepsRest, and_iff_left]
      refine .of_not_batch fun next same => client next ?_
      exact MatcherAction.others.inj same
  | polled atTop moved =>
    rw [KeepsRest, follows.handed_polled atTop moved, KeepsRest,
      and_iff_left (.of_not_batch (by simp))]
  | resumed waits found =>
    rw [KeepsRest, follows.handed_resumed waits found, KeepsRest,
      and_iff_left (.of_not_batch (by simp))]
  | failed waits found => exact (follows.phase.not_failed waits found).elim
  | notified left =>
    rw [KeepsRest, handed_notified left, KeepsRest, and_iff_left (.of_not_batch (by simp))]

/-- A loop that has returned leaves what follows the match, or less than that. -/
theorem Follows.leaves_iff (follows : s.Follows m id matcher queue) (done : s.loop = .returned)
    (later : List τ) :
    s.Leaves id later (behind matcher (queue ++ (s.published ++ later))) ↔
      s.KeepsRest matcher := by
  -- Taken events and left events together are all events, cut where the loop has stopped.
  obtain ⟨rest, there, whole⟩ := follows.stream
  have matched : Matches matcher s.handed := by
    rw [handed_of_returned done]
    exact follows.phase.stopsAtMatch.mp (.inr done)
  -- All that is left lies behind the match, and so may some of what was handed over.
  rw [KeepsRest, ← List.append_assoc, whole, List.append_assoc, behind_of_matches matched]
  constructor
  · rintro ⟨other, there', same⟩
    rw [there] at there'
    obtain rfl := Option.some.inj there'
    exact List.self_eq_append_left.mp same
  · intro nothing
    refine ⟨rest, there, ?_⟩
    rw [nothing, List.nil_append]

end MatcherSystem

open MatcherSystem

/-- A loop over single polls is handed nothing behind the match. -/
theorem MatcherSystem.Follows.keepsRest_single {handle : HandleId} {matcher : τ → Bool}
    {notify : Option S} {s : MatcherSystem build τ S} {id : SubId} {queue : List τ}
    (follows : s.Follows (eventPollMatcher handle matcher notify) id matcher queue)
    (done : s.loop = .returned) : s.KeepsRest matcher := by
  -- Such a loop ends with the one event that matches.
  rw [KeepsRest, handed_of_returned done]
  obtain ⟨quiet, hit, taken, passes, silent⟩ := (follows.phase.at_end done).1.single
  rw [taken, ← List.append_nil (quiet ++ [hit])]
  exact (cut_snoc silent passes).2

/-- A batch loop keeps the rest exactly if every one of its steps meets the condition. -/
theorem MatcherSystem.follows_batch_iff {handle : HandleId} {matcher : τ → Bool}
    {notify : Option S} {past : List (ClientAction τ)} {system : BusSystem build τ}
    {sub : SubHandle} {queue : List τ} {acts : List (MatcherAction τ)}
    {last : MatcherSystem build τ S} (reached : Run SystemStep newWithHandle past system)
    (held : system.handles handle = some sub)
    (opened : system.bus.eventQueues sub.id = some queue)
    (run : Run (Consumes (eventBatchPollMatcher handle matcher notify) sub.id)
      (PollMatcher.start system) acts last) :
    last.KeepsRest matcher ↔ Run (Guarded (MatchIsLast sub.id matcher)
        (Consumes (eventBatchPollMatcher handle matcher notify) sub.id))
      (PollMatcher.start system) acts last := by
  -- The condition of each step is the one under which the step keeps the rest.
  have tests := eventBatchPollMatcher_tests handle matcher notify
  have init : (PollMatcher.start system).Follows (eventBatchPollMatcher handle matcher notify)
      sub.id matcher queue :=
    start_follows (protocol_of_run reached) (poolDisjoint_of_run reached) held opened
  -- Nothing has been handed over before the loop begins.
  have nothing : (PollMatcher.start (S := S) system).KeepsRest matcher := rfl
  refine run.last_iff_guarded init (fun s act t before step => ?_) nothing
    fun s act t before step => ?_
  · exact before.step tests step
  · exact before.keepsRest_step rfl step

/--
The two matchers are interchangeable exactly if the first match of a batch is its last event.

Both always stop exactly when a matching event has been taken. They leave the same events, namely
all that follow the first match, exactly if the batch loop met the condition at each of its polls.
-/
theorem matchers_interchangeable_iff {matcher : τ → Bool} {notify notify' : Option S}
    {past : List (ClientAction τ)} {system : BusSystem build τ} {handle : HandleId}
    {sub : SubHandle} {queue : List τ} {acts acts' : List (MatcherAction τ)}
    {polled batched : MatcherSystem build τ S} {later later' : List τ}
    (reached : Run SystemStep newWithHandle past system)
    (held : system.handles handle = some sub)
    (opened : system.bus.eventQueues sub.id = some queue)
    (polls : Run (Consumes (eventPollMatcher handle matcher notify) sub.id)
      (PollMatcher.start system) acts polled)
    (batches : Run (Consumes (eventBatchPollMatcher handle matcher notify') sub.id)
      (PollMatcher.start system) acts' batched)
    (done : polled.loop = .returned) (done' : batched.loop = .returned)
    (same : polled.published ++ later = batched.published ++ later') :
    (Throughout (Consumes (eventPollMatcher handle matcher notify) sub.id)
        (PollMatcher.start system) (StopsAtMatch matcher) acts ∧
      Throughout (Consumes (eventBatchPollMatcher handle matcher notify') sub.id)
        (PollMatcher.start system) (StopsAtMatch matcher) acts' ∧
      ∃ remaining, remaining = behind matcher (queue ++ (polled.published ++ later)) ∧
        polled.Leaves sub.id later remaining ∧ batched.Leaves sub.id later' remaining) ↔
    Run (Guarded (MatchIsLast sub.id matcher)
        (Consumes (eventBatchPollMatcher handle matcher notify') sub.id))
      (PollMatcher.start system) acts' batched := by
  -- Both loops follow their subscription, and so they stop at a match in every run.
  have tests := eventPollMatcher_tests handle matcher notify
  have tests' := eventBatchPollMatcher_tests handle matcher notify'
  have follows := follows_of_run tests reached held opened polls
  have follows' := follows_of_run tests' reached held opened batches
  -- The single loop always leaves the rest, so the batch loop decides.
  have single := (follows.leaves_iff done later).mpr (follows.keepsRest_single done)
  have exactly := follows_batch_iff reached held opened batches
  have batch := follows'.leaves_iff done' later'
  rw [← exactly, ← batch, ← same]
  constructor
  · rintro ⟨-, -, remaining, rfl, -, left⟩
    exact left
  · intro left
    refine ⟨fun front s _ along => ?_, fun front s _ along => ?_, _, rfl, single, left⟩
    · exact (follows_of_run tests reached held opened along).phase.stopsAtMatch
    · exact (follows_of_run tests' reached held opened along).phase.stopsAtMatch

/-- A subscription with two events in its queue. -/
def subscribedTwice {τ : Type*} (first second : τ) : List (ClientAction τ) :=
  subscribedOnce first ++ [.publishEvent second, .serve none, .receive 2]

/-- One turn of a loop: a poll, the actor's answer, and a look at it. -/
def turnOfLoop {τ : Type*} : List (MatcherAction τ) := [.poll, .others (.serve none), .resume]

/-- A subscription after `subscribedTwice`, and both loops after the given actions on it. -/
def bothReturn (first second : Nat) (acts acts' : List (MatcherAction Nat)) (left left' : List Nat)
    (taken : List Nat) : Bool :=
  (replay (nextIf fun _ _ => True) (newWithHandle : BusSystem .immediate Nat)
    (subscribedTwice first second)).any fun system =>
      system.handles 0 == some ⟨1, 0⟩ && system.bus.eventQueues 1 == some [first, second] &&
      ((replay (PollMatcher.consume (eventPollMatcher 0 (· == 7) (none : Option Unit)) 1)
          (PollMatcher.start system) acts).any fun polled =>
        polled.loop == .returned && polled.published == [] &&
          polled.system.bus.eventQueues 1 == some left) &&
      (replay (PollMatcher.consume (eventBatchPollMatcher 0 (· == 7) (none : Option Unit)) 1)
          (PollMatcher.start system) acts').any fun batched =>
        batched.loop == .returned && batched.published == [] && batched.taken == taken &&
          batched.system.bus.eventQueues 1 == some left'

/-- What the test says about the two runs. -/
theorem of_bothReturn {first second : Nat} {acts acts' : List (MatcherAction Nat)}
    {left left' taken : List Nat}
    (replayed : bothReturn first second acts acts' left left' taken = true) :
    ∃ (system : BusSystem .immediate Nat) (polled batched : MatcherSystem .immediate Nat Unit),
      Run SystemStep newWithHandle (subscribedTwice first second) system ∧
      system.handles 0 = some ⟨1, 0⟩ ∧ system.bus.eventQueues 1 = some [first, second] ∧
      Run (Consumes (eventPollMatcher 0 (· == 7) none) 1) (PollMatcher.start system) acts polled ∧
      Run (Consumes (eventBatchPollMatcher 0 (· == 7) none) 1) (PollMatcher.start system) acts'
        batched ∧
      polled.loop = .returned ∧ batched.loop = .returned ∧
      polled.published = [] ∧ batched.published = [] ∧ batched.taken = taken ∧
      polled.system.bus.eventQueues 1 = some left ∧
      batched.system.bus.eventQueues 1 = some left' := by
  -- The test is a conjunction of decidable facts, in the order of the statement.
  simp only [bothReturn, Option.any_eq_true, Bool.and_eq_true, beq_iff_eq] at replayed
  obtain ⟨system, reached, ⟨⟨held, opened⟩, polled, stepped, ⟨done, quiet⟩, rest⟩, batched,
    stepped', ⟨⟨done', quiet'⟩, took⟩, rest'⟩ := replayed
  exact ⟨system, polled, batched, ((Run.of_replay reached).mono step_of_nextIf).unguard, held,
    opened, (Run.of_replay stepped).mono consumes_of_consume,
    (Run.of_replay stepped').mono consumes_of_consume, done, done', quiet, quiet', took, rest,
    rest'⟩

/-- With a match in front of another event, a loop over batches loses the other event. -/
theorem batch_matcher_drops_rest :
    ∃ (system : BusSystem .immediate Nat) (polled batched : MatcherSystem .immediate Nat Unit),
      Run SystemStep newWithHandle (subscribedTwice 7 8) system ∧
      Run (Consumes (eventPollMatcher 0 (· == 7) none) 1) (PollMatcher.start system)
        (turnOfLoop ++ [.notify]) polled ∧
      Run (Consumes (eventBatchPollMatcher 0 (· == 7) none) 1) (PollMatcher.start system)
        (turnOfLoop ++ [.notify]) batched ∧
      polled.loop = .returned ∧ batched.loop = .returned ∧
      polled.published = [] ∧ batched.published = [] ∧
      polled.Leaves 1 [] (behind (· == 7) [7, 8]) ∧
      ¬ batched.Leaves 1 [] (behind (· == 7) [7, 8]) := by
  -- The same events are queued for both loops, with the match in front.
  have replayed : bothReturn 7 8 (turnOfLoop ++ [.notify]) (turnOfLoop ++ [.notify]) [8] []
      [7, 8] = true := by
    decide
  obtain ⟨system, polled, batched, reached, -, -, polls, batches, done, done', quiet, quiet', -,
    rest, rest'⟩ := of_bothReturn replayed
  refine ⟨system, polled, batched, reached, polls, batches, done, done', quiet, quiet',
    ⟨[8], rest, rfl⟩, ?_⟩
  -- The batch loop has emptied the queue.
  rintro ⟨other, there, same⟩
  rw [rest'] at there
  obtain rfl := Option.some.inj there
  exact absurd same (by decide)

/-- With the match at the end of the batch, both loops leave the same. -/
theorem matchers_interchangeable_iff_last :
    ∃ (system : BusSystem .immediate Nat) (polled batched : MatcherSystem .immediate Nat Unit),
      Run SystemStep newWithHandle (subscribedTwice 5 7) system ∧
      Run (Consumes (eventPollMatcher 0 (· == 7) none) 1) (PollMatcher.start system)
        (turnOfLoop ++ turnOfLoop ++ [.notify]) polled ∧
      Run (Consumes (eventBatchPollMatcher 0 (· == 7) none) 1) (PollMatcher.start system)
        (turnOfLoop ++ [.notify]) batched ∧
      polled.Leaves 1 [8] [8] ∧ batched.Leaves 1 [8] [8] := by
  -- The match comes second, so that the single loop polls twice and the other one once.
  have replayed : bothReturn 5 7 (turnOfLoop ++ turnOfLoop ++ [.notify])
      (turnOfLoop ++ [.notify]) [] [] [5, 7] = true := by
    decide
  obtain ⟨system, polled, batched, reached, held, opened, polls, batches, done, done', quiet,
    quiet', took, -, -⟩ := of_bothReturn replayed
  -- Nothing of what the batch loop has taken lies behind the match.
  have keeps : batched.KeepsRest (· == 7) := by
    rw [KeepsRest, handed_of_returned done', took]
    rfl
  have guarded := (follows_batch_iff reached held opened batches).mp keeps
  have same : polled.published ++ [8] = batched.published ++ [8] := by rw [quiet, quiet']
  obtain ⟨-, -, remaining, rfl, left, left'⟩ :=
    (matchers_interchangeable_iff reached held opened polls batches done done' same).mpr guarded
  rw [quiet] at left left'
  exact ⟨system, polled, batched, reached, polls, batches, left, left'⟩

end Imputio
