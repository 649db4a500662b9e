import Imputio.EventBus.Replies

/-! What the actor does to its tables for a client that has given up its call. -/

namespace Imputio

open Transition

variable {build : Build} {τ : Type*}

/-- The message asks for something that is taken out of the tables of the bus. -/
def EventBusMessage.Asks : EventBusMessage build τ → Prop
  | .subscribe _ => True
  | .poll _ _ => True
  | .batchPoll _ _ => True
  | _ => False

/-- There is nothing in the tables for the message to take. -/
def EventBusMessage.FindsNothing (bus : EventBus τ) : EventBusMessage build τ → Prop
  | .subscribe _ => ∀ id, bus.ids id = false
  | .poll id _ => bus.eventQueues id = none ∨ bus.eventQueues id = some []
  | .batchPoll id _ => bus.eventQueues id = none ∨ bus.eventQueues id = some []
  | _ => True

/-- Writing what is there already is no change, and writing anything else is one. -/
theorem EventBus.update_queue_iff {bus : EventBus τ} {id : SubId} {queue : Option (List τ)} :
    Function.update bus.eventQueues id queue = bus.eventQueues ↔ bus.eventQueues id = queue := by
  rw [Function.update_eq_self_iff, eq_comm]

/-- A message that asks for something leaves the tables alone exactly if it finds nothing. -/
theorem EventBusMessage.sameTables_iff {bus : EventBus τ} {message : EventBusMessage build τ}
    {next : Option SubId} (asks : message.Asks)
    (picked : ∀ reply, message = .subscribe reply → IterNext bus.ids next) :
    (bus.process message next).1.SameTables bus ↔ message.FindsNothing bus := by
  -- Of the six messages three ask for something, and each of these takes it from a table.
  cases message with
  | subscribe reply =>
    have valid := picked reply rfl
    cases next with
    | none => exact iff_of_true ⟨rfl, rfl⟩ valid
    | some id =>
      -- The id that is granted was free, and it is not free any more.
      have free : bus.ids id = true := valid
      refine iff_of_false (fun same => ?_) fun none => ?_
      · have kept : Function.update bus.ids id false id = bus.ids id := congrFun same.2 id
        simp [free] at kept
      · simp [none id] at free
  | poll id reply =>
    show (bus.poll id).2.SameTables bus ↔ _
    unfold EventBus.poll
    cases found : bus.eventQueues id with
    | none => exact iff_of_true ⟨rfl, rfl⟩ (.inl found)
    | some queue =>
      simp only [EventBus.SameTables, EventBus.update_queue_iff, found, FindsNothing]
      cases queue <;> simp
  | batchPoll id reply =>
    show (bus.batchPoll id).2.SameTables bus ↔ _
    unfold EventBus.batchPoll
    cases found : bus.eventQueues id with
    | none => exact iff_of_true ⟨rfl, rfl⟩ (.inl found)
    | some queue =>
      simp only [EventBus.SameTables, EventBus.update_queue_iff, found, FindsNothing]
      cases queue <;> simp
  | unsubscribe => exact asks.elim
  | pushEvent => exact asks.elim
  | cleanUpBgTask => exact asks.elim

namespace ReplySystem

/-- The actor takes a message whose client has given up and asked for something. -/
def ServesGivenUp (s : ReplySystem build τ) (act : ClientAction τ)
    (message : EventBusMessage build τ) : Prop :=
  (∃ next, act = .serve next) ∧ s.core.requests.queue.head?.map Request.message = some message ∧
    message.Asks ∧ ∃ reply, message.replyTo = some reply ∧ (s.replies reply).connected = false

/-- A request whose reply cannot be delivered leaves the tables of the bus as they were. -/
def SparesBus (s : ReplySystem build τ) (act : ClientAction τ) (t : ReplySystem build τ) : Prop :=
  ∀ message, s.ServesGivenUp act message → t.core.bus.SameTables s.core.bus

/-- A request whose reply cannot be delivered finds nothing to take. -/
def FindsNothing (s : ReplySystem build τ) (act : ClientAction τ) : Prop :=
  ∀ message, s.ServesGivenUp act message → message.FindsNothing s.core.bus

variable {s t : ReplySystem build τ} {act : ClientAction τ}

/-- Sending a reply does not change the bus. -/
theorem answer_core {answer : Option (ReplyId × BusResult (Reply τ))}
    (answered : s.answer answer = some t) : t.core = s.core := by
  -- A reply is stored in the caller's slot, or it is lost with the caller.
  cases answer with
  | none =>
    obtain rfl := Option.some.inj answered
    rfl
  | some sent =>
    obtain ⟨reply, result⟩ := sent
    simp only [ReplySystem.answer] at answered
    split at answered
    · obtain rfl := Option.some.inj answered
      rfl
    · obtain rfl := Option.some.inj answered
      rfl
    · simp at answered

/-- What the actor does to the bus is what the message asks for, whether or not it can reply. -/
theorem serve_bus {next : Option SubId} {request : Request build τ}
    (front : s.core.requests.queue.head? = some request) (served : s.serve next = some t) :
    t.core.bus = (s.core.bus.process request.message next).1 := by
  -- The request is taken and processed before anything is sent.
  obtain ⟨rest, queue⟩ := List.head?_eq_some_iff.mp front
  have taken : s.core.requests.tryRecv = some (request, { s.core.requests with queue := rest }) :=
    Channel.tryRecv_eq_some_iff.mpr ⟨queue, rfl⟩
  simp only [serve, taken] at served
  rw [answer_core served]

/-- A step spares the bus exactly if its message finds nothing to take. -/
theorem sparesBus_iff (step : ReplyStep s act t) : s.SparesBus act t ↔ s.FindsNothing act := by
  -- The message at the front is the one that is served, and it is processed before it is answered.
  refine forall_congr' fun message => forall_congr' fun given_up => ?_
  obtain ⟨⟨next, rfl⟩, head, asks, -⟩ := given_up
  obtain ⟨request, front, rfl⟩ := Option.map_eq_some_iff.mp head
  obtain ⟨rest, queue⟩ := List.head?_eq_some_iff.mp front
  -- The actor serves only while it is in its loop.
  obtain ⟨-, served⟩ := Option.ite_none_right_eq_some.mp step.taken
  rw [serve_bus front served]
  exact EventBusMessage.sameTables_iff asks fun reply same =>
    step.picked next request rest reply rfl queue same

end ReplySystem

open ReplySystem

/-- A step of the system has one result at most. -/
theorem replyStep_functional (s : ReplySystem build τ) (act : ClientAction τ)
    (t u : ReplySystem build τ) (first : ReplyStep s act t) (second : ReplyStep s act u) : t = u :=
  -- Both are the value of one function call.
  Option.some.inj (first.taken.symm.trans second.taken)

/--
Whatever the state of the bus, a request whose client has given up leaves the queues and the free
ids as they were exactly if it finds nothing to take: a subscription when no id is free, a poll of
an id whose queue is missing or empty. In every run all such requests do so exactly if each of them
finds nothing.
-/
theorem undelivered_spares_bus_iff {start last : ReplySystem build τ}
    {acts : List (ClientAction τ)} (run : Run ReplyStep start acts last) :
    (∀ (s : ReplySystem build τ) act t, ReplyStep s act t →
      (s.SparesBus act t ↔ s.FindsNothing act)) ∧
      (EveryStep ReplyStep start SparesBus acts ↔
        Run (Guarded FindsNothing ReplyStep) start acts last) :=
  -- The condition of one step is the condition of all of them.
  ⟨fun _ _ _ => sparesBus_iff,
    run.everyStep_iff_guarded replyStep_functional fun _ _ _ => sparesBus_iff⟩

/-- An event is published, and its subscriber sends a poll that it gives up at once. -/
def pollGivenUp : List (ClientAction Nat) :=
  [.getSubscriber, .serve (some 1), .receive 0, .getPublisher, .publishEvent 7, .serve none,
    .poll 0, .abandon 2]

/-- The actor takes the event out of the queue, and nobody receives it. -/
theorem abandoned_poll_loses_event :
    ∃ s t : ReplySystem .immediate Nat, Run ReplyStep newWithHandle pollGivenUp s ∧
      ReplyStep s (.serve none) t ∧ s.core.bus.eventQueues 1 = some [7] ∧
      t.core.bus.eventQueues 1 = some [] ∧ ¬ s.SparesBus (.serve none) t := by
  -- The run is written out: an event is published, polled for, and the poll is given up.
  have run : Run ReplyStep (newWithHandle : ReplySystem .immediate Nat) pollGivenUp _ :=
    .cons ⟨by simp, rfl⟩ <|
    .cons ⟨fun _ _ _ _ same _ _ => by cases same; rfl, rfl⟩ <|
    .cons ⟨by simp, rfl⟩ <| .cons ⟨by simp, rfl⟩ <| .cons ⟨by simp, rfl⟩ <|
    .cons ⟨fun _ _ _ _ _ front asked => by cases front; simp at asked, rfl⟩ <|
    .cons ⟨by simp, rfl⟩ <| .cons ⟨by simp, rfl⟩ .nil
  refine ⟨_, _, run, ⟨fun _ _ _ _ _ front asked => by cases front; simp at asked, rfl⟩, rfl, rfl,
    fun spares => ?_⟩
  -- The queue was not empty before, and it is empty now.
  have same := spares (.poll 1 2) ⟨⟨none, rfl⟩, rfl, trivial, 2, rfl, rfl⟩
  have kept : some [] = some [7] := congrFun same.1 1
  simp at kept

/-- A poll that is given up while the queue is empty does no harm. -/
theorem undelivered_spares_bus_iff_empty :
    ∃ s t : ReplySystem .immediate Nat, Run ReplyStep newWithHandle
        [.getSubscriber, .serve (some 1), .receive 0, .poll 0, .abandon 1] s ∧
      ReplyStep s (.serve none) t ∧ s.SparesBus (.serve none) t := by
  -- Nothing was published in this run.
  have run : Run ReplyStep (newWithHandle : ReplySystem .immediate Nat)
      [.getSubscriber, .serve (some 1), .receive 0, .poll 0, .abandon 1] _ :=
    .cons ⟨by simp, rfl⟩ <|
    .cons ⟨fun _ _ _ _ same _ _ => by cases same; rfl, rfl⟩ <|
    .cons ⟨by simp, rfl⟩ <| .cons ⟨by simp, rfl⟩ <| .cons ⟨by simp, rfl⟩ .nil
  refine ⟨_, _, run, ⟨fun _ _ _ _ _ front asked => by cases front; simp at asked, rfl⟩,
    ((undelivered_spares_bus_iff run).1 _ (.serve none) _
      ⟨fun _ _ _ _ _ front asked => by cases front; simp at asked, rfl⟩).mpr ?_⟩
  -- The one message in the channel is the poll.
  intro message given_up
  obtain rfl : .poll 1 1 = message := Option.some.inj given_up.2.1
  exact .inr rfl

end Imputio
