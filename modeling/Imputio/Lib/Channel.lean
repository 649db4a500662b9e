import Mathlib.Data.List.Basic
import Mathlib.Logic.Function.Basic

/-! Multi-producer channels: a queue, a capacity, and whether a receiver is left. -/

/-- A channel as its senders and receivers see it, the oldest message first. -/
structure Channel (α : Type*) where
  queue : List α
  capacity : Option Nat
  -- Whether at least one receiver is alive.
  connected : Bool
  deriving DecidableEq, Repr

/-- What a send does. -/
inductive SendResult (α : Type*) where
  | sent (channel : Channel α)
  -- The sender waits until a message is taken.
  | full
  -- Every receiver is gone, and the message is handed back.
  | disconnected
  deriving Repr

namespace Channel

variable {α : Type*}

/-- An empty channel that holds any number of messages. -/
def unbounded : Channel α := ⟨[], none, true⟩

/-- An empty channel that holds a given number of messages. -/
def bounded (capacity : Nat) : Channel α := ⟨[], some capacity, true⟩

/-- The channel after its last receiver is dropped, which keeps the queued messages. -/
def disconnect (ch : Channel α) : Channel α := { ch with connected := false }

/-- Whether another message has to wait. -/
def isFull (ch : Channel α) : Bool :=
  match ch.capacity with
  | none => false
  | some capacity => capacity ≤ ch.queue.length

/-- Send a message, which fails without a receiver and waits while there is no room. -/
def send (ch : Channel α) (message : α) : SendResult α :=
  if !ch.connected then .disconnected
  else if ch.isFull then .full
  else .sent { ch with queue := ch.queue ++ [message] }

/-- Take the oldest message, if there is one. -/
def tryRecv (ch : Channel α) : Option (α × Channel α) :=
  match ch.queue with
  | [] => none
  | message :: rest => some (message, { ch with queue := rest })

/-- A message goes through exactly when a receiver is alive and there is room. -/
theorem send_eq_sent_iff {ch after : Channel α} {message : α} :
    ch.send message = .sent after ↔
      ch.connected = true ∧ ch.isFull = false ∧
        after = { ch with queue := ch.queue ++ [message] } := by
  -- The three results are the three branches of the two tests.
  unfold send
  cases connected : ch.connected <;> cases full : ch.isFull <;> simp [eq_comm]

/-- A send is refused exactly when no receiver is left. -/
theorem send_eq_disconnected_iff {ch : Channel α} {message : α} :
    ch.send message = .disconnected ↔ ch.connected = false := by
  unfold send
  cases connected : ch.connected <;> cases full : ch.isFull <;> simp

/-- A send waits exactly while a receiver is alive and there is no room. -/
theorem send_eq_full_iff {ch : Channel α} {message : α} :
    ch.send message = .full ↔ ch.connected = true ∧ ch.isFull = true := by
  unfold send
  cases connected : ch.connected <;> cases full : ch.isFull <;> simp

/-- There is nothing to take from an empty channel only. -/
theorem tryRecv_eq_none_iff {ch : Channel α} : ch.tryRecv = none ↔ ch.queue = [] := by
  -- The front of the queue decides what is taken.
  unfold tryRecv
  split
  · rename_i empty
    exact iff_of_true rfl empty
  · rename_i front
    simp [front]

/-- A received message was the oldest one. -/
theorem tryRecv_eq_some_iff {ch after : Channel α} {message : α} :
    ch.tryRecv = some (message, after) ↔
      ch.queue = message :: after.queue ∧ after = { ch with queue := after.queue } := by
  -- Taking a message changes nothing but the queue.
  unfold tryRecv
  cases ch with
  | mk queue capacity connected =>
    cases queue with
    | nil => simp
    | cons head rest =>
      cases after
      simp only [Option.some.injEq, Prod.mk.injEq, mk.injEq, List.cons.injEq]
      grind

section Families

variable {κ : Type*} [DecidableEq κ] {channels : κ → Channel α}

/-- Send one message to one of many channels, and go on if the send is refused. -/
def deliver (channels : κ → Channel α) (key : κ) (message : α) : Option (κ → Channel α) :=
  match (channels key).send message with
  | .sent after => some (Function.update channels key after)
  | .disconnected => some channels
  | .full => none

/-- Send messages one after the other, up to the first that has to wait. -/
def deliverAll (channels : κ → Channel α) : List (κ × α) → (κ → Channel α) × Bool
  | [] => (channels, true)
  | (key, message) :: rest =>
    match deliver channels key message with
    | some after => deliverAll after rest
    | none => (channels, false)

/-- The messages that are sent to one of the channels, in order. -/
def messagesFor (key : κ) (sends : List (κ × α)) : List α :=
  (sends.filter fun sent => sent.1 = key).map Prod.snd

/-- A channel that is sent messages for which it has room, which it gets if anyone listens. -/
def extend (ch : Channel α) (messages : List α) : Channel α :=
  if ch.connected then { ch with queue := ch.queue ++ messages } else ch

/-- No send to the channel ever waits. -/
def NeverWaits (ch : Channel α) : Prop :=
  ch.connected = true → ch.capacity = none

/-- Sending nothing changes nothing. -/
@[simp] theorem extend_nil (ch : Channel α) : ch.extend [] = ch := by
  unfold extend
  split <;> simp

/-- Messages may be sent in two batches. -/
@[simp] theorem extend_extend (ch : Channel α) (first second : List α) :
    (ch.extend first).extend second = ch.extend (first ++ second) := by
  -- Whether anyone listens does not change in between.
  unfold extend
  by_cases connected : ch.connected = true <;> simp [connected]

/-- A channel that never waits goes on never to wait. -/
theorem NeverWaits.extend {ch : Channel α} (never : ch.NeverWaits) (messages : List α) :
    (ch.extend messages).NeverWaits := by
  -- Neither the capacity nor the receivers change.
  unfold Channel.extend
  split
  · exact never
  · exact never

/-- A send to a channel that never waits goes through, unless nobody listens. -/
theorem NeverWaits.send_eq {ch : Channel α} (never : ch.NeverWaits) (message : α) :
    ch.send message = if ch.connected then .sent (ch.extend [message]) else .disconnected := by
  -- There is always room, so the other end alone decides.
  split
  · rename_i connected
    have room : ch.isFull = false := by simp [isFull, never connected]
    exact send_eq_sent_iff.mpr ⟨connected, room, by rw [Channel.extend, if_pos connected]⟩
  · rename_i closed
    exact send_eq_disconnected_iff.mpr (by simpa using closed)

/-- A channel that never waits is sent a message at once, and no other channel changes. -/
theorem deliver_eq {key : κ} (never : (channels key).NeverWaits) (message : α) :
    deliver channels key message =
      some (Function.update channels key ((channels key).extend [message])) := by
  -- The two outcomes of a send without waiting are gone through.
  unfold deliver
  by_cases connected : (channels key).connected = true
  · -- The channel is unbounded, so there is room.
    have room : (channels key).isFull = false := by simp [isFull, never connected]
    have sent : (channels key).send message =
        .sent { channels key with queue := (channels key).queue ++ [message] } :=
      send_eq_sent_iff.mpr ⟨connected, room, rfl⟩
    rw [sent, extend, if_pos connected]
  · have refused : (channels key).send message = .disconnected :=
      send_eq_disconnected_iff.mpr (by simpa using connected)
    rw [refused, extend, if_neg connected, Function.update_eq_self]

/-- Every channel that never waits gets all of its messages in order, whatever the others do. -/
theorem deliverAll_eq (sends : List (κ × α))
    (never : ∀ sent ∈ sends, (channels sent.1).NeverWaits) :
    deliverAll channels sends =
      (fun key => (channels key).extend (messagesFor key sends), true) := by
  -- The induction follows the sends, over the channels as they are before each of them.
  induction sends generalizing channels with
  | nil => simp [deliverAll, messagesFor]
  | cons sent rest ih =>
    obtain ⟨target, message⟩ := sent
    have now : (channels target).NeverWaits := never _ List.mem_cons_self
    have first : deliverAll channels ((target, message) :: rest) = deliverAll
        (Function.update channels target ((channels target).extend [message])) rest := by
      rw [deliverAll, deliver_eq now]
    have kept : ∀ sent ∈ rest, (Function.update channels target
        ((channels target).extend [message]) sent.1).NeverWaits := by
      intro sent among
      by_cases same : sent.1 = target
      · rw [same, Function.update_self]
        exact now.extend _
      · rw [Function.update_of_ne same]
        exact never sent (List.mem_cons_of_mem _ among)
    rw [first, ih kept]
    congr 1
    funext key
    by_cases same : key = target
    · subst same
      simp [messagesFor]
    · simp [messagesFor, Function.update_of_ne same, Ne.symm same]

end Families

end Channel
