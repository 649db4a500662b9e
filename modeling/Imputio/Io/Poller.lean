import Imputio.Lib.Slab
import Imputio.Lib.Transition

/-! The poller of one executor: its registration tables and its dispatch of events. -/

namespace Imputio

/-- A descriptor number, a `c_int` in the source. -/
abbrev RawFd := Nat

/-- An open file, which is behind a descriptor and all its duplicates. -/
abbrev FileId := Nat

/-- The channel behind a user-supplied notifier; clones of a sender share their channel. -/
abbrev ChannelId := Nat

/-- A nonempty set of readiness kinds. -/
structure Interest where
  bits : BitVec 8
  nonzero : bits ≠ 0
  deriving DecidableEq, Repr

namespace Interest

/-- `Interest::READABLE`. -/
def readable : Interest := ⟨0b1, by decide⟩

/-- `Interest::WRITABLE`. -/
def writable : Interest := ⟨0b10, by decide⟩

/-- `Interest::PRIORITY`. -/
def priority : Interest := ⟨0b10000, by decide⟩

/-- The union of two interests. -/
def add (interest other : Interest) : Interest where
  bits := interest.bits ||| other.bits
  nonzero := by
    intro empty
    exact interest.nonzero (BitVec.or_eq_zero_iff.mp empty).1

end Interest

/-- The interest that every registration asks the kernel for. -/
def rwInterests : Interest := (Interest.readable.add .writable).add .priority

/--
An open listening socket.

The origin is history: the number of the listener that this one was cloned from.
-/
structure StdTcpListener where
  rawFd : RawFd
  origin : RawFd
  file : FileId
  deriving DecidableEq, Repr

/-- An event that the kernel reports. -/
structure Event where
  token : Nat
  readiness : BitVec 8
  deriving DecidableEq, Repr

/-- The operations that a poller accepts, which are also what its slab stores. -/
inductive Operation where
  | registrationFdAdd (fd : RawFd) (interest : Interest) (notify : Option ChannelId)
  | registrationTcpAdd (fd : StdTcpListener) (interest : Interest) (notify : Option ChannelId)
  | modifyRegistration (fd : RawFd) (interest : Interest) (notify : Option ChannelId)
  | deleteRegistration (fd : RawFd)
  deriving DecidableEq, Repr

/-- The errors of the poller and of its handle. -/
inductive PollError where
  | resourceExhaustion
  | actorError (message : String)
  | actorRcvError
  | actorSendError
  | ioError
  deriving DecidableEq, Repr

/-- The results of the poller and of its handle. -/
abbrev PollResult (α : Type*) := Except PollError α

/-- What the operating system answers while one operation is pushed. -/
structure OsReply where
  -- The number of the cloned descriptor, unless cloning fails.
  tryClone : Option RawFd
  -- Whether the kernel accepts the registration.
  register : Bool
  -- The open file behind a raw descriptor.
  file : FileId
  -- The open files that the process has other descriptors of when the call returns.
  held : List FileId
  deriving DecidableEq, Repr

/-- A source that the kernel watches, under its token. -/
structure Registered where
  source : RawFd
  file : FileId
  token : Nat
  interest : Interest
  deriving DecidableEq, Repr

/-- The sources in the kernel's registry and the two tables that mirror them. -/
structure Poller where
  registry : List Registered
  eventSrcIds : RawFd → Option (Nat × Option ChannelId)
  tokens : Slab Operation
  -- History: every registration that the kernel has accepted.
  accepted : List Registered

/-- What one event leads to. -/
inductive Dispatch where
  | silent
  | notified (notify : ChannelId)
  -- The `todo!()` arms.
  | unfinished
  deriving DecidableEq, Repr

/-- What a call of `poll` sends, and how it ends if it does not panic. -/
structure PollOutcome where
  sends : List (ChannelId × Event)
  result : Option (PollResult Unit)
  deriving DecidableEq

/-- The notifier stored with an operation. -/
def Operation.notify : Operation → Option ChannelId
  | .registrationFdAdd _ _ notify => notify
  | .registrationTcpAdd _ _ notify => notify
  | .modifyRegistration _ _ notify => notify
  | .deleteRegistration _ => none

/-- The descriptor number an operation is submitted with. -/
def Operation.rawFd : Operation → RawFd
  | .registrationFdAdd fd _ _ => fd
  | .registrationTcpAdd fd _ _ => fd.rawFd
  | .modifyRegistration fd _ _ => fd
  | .deleteRegistration fd => fd

/-- The descriptor number a stored operation was submitted with. -/
def Operation.subject : Operation → RawFd
  | .registrationFdAdd fd _ _ => fd
  | .registrationTcpAdd fd _ _ => fd.origin
  | .modifyRegistration fd _ _ => fd
  | .deleteRegistration fd => fd

/-- The open file that an operation asks the kernel to watch. -/
def Operation.file (op : Operation) (os : OsReply) : FileId :=
  match op with
  | .registrationTcpAdd fd _ _ => fd.file
  | _ => os.file

/-- The open file of the listener that comes with an operation. -/
def Operation.listenerFile : Operation → Option FileId
  | .registrationTcpAdd fd _ _ => some fd.file
  | _ => none

/-- The operations that ask for events. -/
def Operation.Watches : Operation → Prop
  | .registrationFdAdd _ _ _ => True
  | .registrationTcpAdd _ _ _ => True
  | _ => False

instance (op : Operation) : Decidable op.Watches := by
  cases op <;> unfold Operation.Watches <;> infer_instance

/-- The operation needs a clone of its listener and does not get one. -/
def Operation.CloneFails (op : Operation) (os : OsReply) : Prop :=
  match op with
  | .registrationTcpAdd _ _ _ => os.tryClone = none
  | _ => False

instance (op : Operation) (os : OsReply) : Decidable (op.CloneFails os) := by
  cases op <;> unfold Operation.CloneFails <;> infer_instance

/-- The system does what an operation needs: it clones the listener and accepts the source. -/
def Operation.Accepted (op : Operation) (os : OsReply) : Prop :=
  ¬ op.CloneFails os ∧ (op.Watches → os.register = true)

instance (op : Operation) (os : OsReply) : Decidable (op.Accepted os) :=
  inferInstanceAs (Decidable (_ ∧ (_ → _)))

/-- Duplicate the descriptor of a listener under the number that the system picks. -/
def StdTcpListener.tryClone (fd : StdTcpListener) (os : OsReply) : Option StdTcpListener :=
  os.tryClone.map fun number => ⟨number, fd.rawFd, fd.file⟩

namespace Poller

/-- A poller that watches nothing. -/
def new : Poller where
  registry := []
  eventSrcIds := fun _ => none
  tokens := .empty
  accepted := []

/-- Ask the kernel to watch a source. -/
def register (p : Poller) (source : RawFd) (file : FileId) (token : Nat) (os : OsReply) :
    Poller × PollResult Unit :=
  if os.register then
    let entry : Registered := ⟨source, file, token, rwInterests⟩
    ({ p with registry := p.registry ++ [entry], accepted := p.accepted ++ [entry] }, .ok ())
  else (p, .error .ioError)

/--
Write the slot of a descriptor, as the two operations on raw descriptors do.

A known descriptor keeps its slot and the notifier recorded for it. The operation is given the
notifier it is stored with.
-/
def writeSlot (policy : KeyPolicy) (p : Poller) (fd : RawFd) (notify : Option ChannelId)
    (op : Option ChannelId → Operation) : Option (Nat × Poller) :=
  match p.eventSrcIds fd with
  | some (id, existingNotify) =>
    -- The slab is indexed directly, which panics when the slot is vacant.
    (p.tokens.set id (op existingNotify)).map fun tokens => (id, { p with tokens := tokens })
  | none =>
    let newId := p.tokens.vacantKey policy
    some (newId,
      { p with
        eventSrcIds := Function.update p.eventSrcIds fd (some (newId, none))
        tokens := p.tokens.insert policy (op notify) })

/-- Watch a raw descriptor. -/
def registrationFdAdd (policy : KeyPolicy) (p : Poller) (fd : RawFd) (interest : Interest)
    (notify : Option ChannelId) (os : OsReply) : Option (Poller × PollResult Unit) :=
  (p.writeSlot policy fd notify (.registrationFdAdd fd interest)).map fun (id, p) =>
    p.register fd os.file id os

/-- Change the stored interest and the recorded notifier of a descriptor. -/
def modifyRegistration (policy : KeyPolicy) (p : Poller) (fd : RawFd) (interest : Interest)
    (notify : Option ChannelId) : Option (Poller × PollResult Unit) :=
  (p.writeSlot policy fd notify (.modifyRegistration fd interest)).map fun (id, p) =>
    match notify with
    | some notify =>
      ({ p with eventSrcIds := Function.update p.eventSrcIds fd (some (id, some notify)) }, .ok ())
    | none => (p, .ok ())

/-- Watch a listening socket, of which the slab keeps a clone. -/
def registrationTcpAdd (policy : KeyPolicy) (p : Poller) (fd : StdTcpListener)
    (interest : Interest) (notify : Option ChannelId) (os : OsReply) :
    Option (Poller × PollResult Unit) :=
  match p.eventSrcIds fd.rawFd with
  | some (id, existingNotify) =>
    -- The slot is indexed before the listener is cloned.
    if p.tokens.get id = none then none
    else
      match fd.tryClone os with
      | none => some (p, .error .ioError)
      | some clone =>
        (p.tokens.set id (.registrationTcpAdd clone interest existingNotify)).map fun tokens =>
          { p with tokens := tokens }.register fd.rawFd fd.file id os
  | none =>
    let newId := p.tokens.vacantKey policy
    -- The first table is written before the listener is cloned, the second one after.
    let p :=
      { p with eventSrcIds := Function.update p.eventSrcIds fd.rawFd (some (newId, notify)) }
    match fd.tryClone os with
    | none => some (p, .error .ioError)
    | some clone =>
      some ({ p with
        tokens := p.tokens.insert policy (.registrationTcpAdd clone interest notify) }.register
          fd.rawFd fd.file newId os)

/-- The slab owns a descriptor of a file, through the clone of a listener. -/
def holdsFile (p : Poller) (file : FileId) : Bool :=
  decide (∃ key ∈ p.tokens.keys, (p.tokens.get key).bind Operation.listenerFile = some file)

/-- There is still a descriptor of a file, in the slab or elsewhere. -/
def hasOpen (p : Poller) (held : List FileId) (file : FileId) : Bool :=
  p.holdsFile file || held.contains file

/-- The kernel forgets the sources whose last descriptor was closed. -/
def forgetClosed (p : Poller) (held : List FileId) : Poller :=
  { p with registry := p.registry.filter fun entry => p.hasOpen held entry.file }

/-- The arms of `push_token_entry`; there is no result when the code panics. -/
def pushArm (policy : KeyPolicy) (p : Poller) (op : Operation) (os : OsReply) :
    Option (Poller × PollResult Unit) :=
  match op with
  | .registrationFdAdd fd interest notify => p.registrationFdAdd policy fd interest notify os
  | .modifyRegistration fd interest notify => p.modifyRegistration policy fd interest notify
  | .deleteRegistration _ => none
  | .registrationTcpAdd fd interest notify => p.registrationTcpAdd policy fd interest notify os

/--
Push one operation.

A listener that was overwritten in its slot is closed by then, and the submitted one as well.
-/
def pushTokenEntry (policy : KeyPolicy) (p : Poller) (op : Operation) (os : OsReply) :
    Option (Poller × PollResult Unit) :=
  (p.pushArm policy op os).map fun (p, result) => (p.forgetClosed os.held, result)

/-- What the slot of an event's token says about the event. -/
def dispatch (p : Poller) (event : Event) : Dispatch :=
  match p.tokens.get event.token with
  | none => .silent
  | some (.registrationFdAdd _ _ none) => .silent
  | some (.registrationFdAdd _ _ (some notify)) => .notified notify
  -- Both of these arms panic.
  | some (.modifyRegistration _ _ _) => .unfinished
  | some (.deleteRegistration _) => .unfinished
  | some (.registrationTcpAdd _ _ none) => .silent
  | some (.registrationTcpAdd _ _ (some notify)) => .notified notify

/-- The loop over the events of one batch. -/
def dispatchAll (p : Poller) : List Event → PollOutcome
  | [] => ⟨[], some (.ok ())⟩
  | event :: events =>
    match p.dispatch event with
    | .silent => p.dispatchAll events
    | .notified notify =>
      let rest := p.dispatchAll events
      { rest with sends := (notify, event) :: rest.sends }
    | .unfinished => ⟨[], none⟩

/-- Wait for events and dispatch them. -/
def poll (p : Poller) (ready : PollResult (List Event)) : PollOutcome :=
  match ready with
  | .error error => ⟨[], some (.error error)⟩
  | .ok events => p.dispatchAll events

/-- The kernel was asked to watch a source, and its answer is the result. -/
def Asked (p : Poller) (source : RawFd) (file : FileId) (token : Nat) (os : OsReply)
    (after : Poller) (result : PollResult Unit) : Prop :=
  os.register = true ∧ result = .ok () ∧
      after.accepted = p.accepted ++ [⟨source, file, token, rwInterests⟩] ∨
    os.register = false ∧ result = .error .ioError ∧ after.accepted = p.accepted

/-- The registry and its history have grown by the same registrations. -/
def Extends (p after : Poller) : Prop :=
  ∃ new, after.registry = p.registry ++ new ∧ after.accepted = p.accepted ++ new

/-- The slot that an operation overwrites, if it gets so far. -/
def overwritten (p : Poller) (op : Operation) (os : OsReply) : Option Nat :=
  if op.CloneFails os then none else (p.eventSrcIds op.rawFd).map Prod.fst

/--
A file has a descriptor after an operation: one of the process, the clone that the operation stores,
or a clone in a slot that it does not overwrite.
-/
def StaysOpen (p : Poller) (op : Operation) (os : OsReply) (file : FileId) : Prop :=
  file ∈ os.held ∨ (¬ op.CloneFails os ∧ op.listenerFile = some file) ∨
    ∃ key ∈ p.tokens.keys, p.overwritten op os ≠ some key ∧
      (p.tokens.get key).bind Operation.listenerFile = some file

instance (p : Poller) (op : Operation) (os : OsReply) (file : FileId) :
    Decidable (p.StaysOpen op os file) :=
  inferInstanceAs (Decidable (_ ∨ _ ∨ ∃ key ∈ p.tokens.keys, _))

/-- What pushing an operation does to the tables, by what they say about its descriptor. -/
inductive Effect (policy : KeyPolicy) (p : Poller) (op : Operation) (os : OsReply) :
    Option (Poller × PollResult Unit) → Prop
  -- A known descriptor whose slot is vacant.
  | panicked {id : Nat} {recorded : Option ChannelId}
      (known : p.eventSrcIds op.rawFd = some (id, recorded)) (vacant : p.tokens.get id = none) :
      Effect policy p op os none
  -- A known listener that cannot be cloned.
  | refused {id : Nat} {recorded : Option ChannelId} {after : Poller}
      (known : p.eventSrcIds op.rawFd = some (id, recorded)) (occupied : p.tokens.get id ≠ none)
      (failed : op.CloneFails os) (ids : after.eventSrcIds = p.eventSrcIds)
      (slots : after.tokens = p.tokens) (accepted : after.accepted = p.accepted) :
      Effect policy p op os (some (after, .error .ioError))
  -- A known descriptor: its slot is overwritten, with the recorded notifier.
  | rewritten {id : Nat} {recorded noted : Option ChannelId} {after : Poller}
      {result : PollResult Unit} {stored : Operation}
      (known : p.eventSrcIds op.rawFd = some (id, recorded)) (occupied : p.tokens.get id ≠ none)
      (cloned : ¬ op.CloneFails os)
      (ids : ∀ fd, after.eventSrcIds fd =
        if fd = op.rawFd then some (id, noted) else p.eventSrcIds fd)
      (slots : ∀ key, after.tokens.get key = if key = id then some stored else p.tokens.get key)
      (subject : stored.subject = op.rawFd) (notify : stored.notify = recorded)
      (watches : op.Watches → stored.Watches ∧ p.Asked op.rawFd (op.file os) id os after result)
      (listener : stored.listenerFile = op.listenerFile) :
      Effect policy p op os (some (after, result))
  -- An unknown descriptor: it is given a slot, with the supplied notifier.
  | added {noted : Option ChannelId} {after : Poller} {result : PollResult Unit}
      {stored : Operation} (unknown : p.eventSrcIds op.rawFd = none) (cloned : ¬ op.CloneFails os)
      (ids : ∀ fd, after.eventSrcIds fd =
        if fd = op.rawFd then some (p.tokens.vacantKey policy, noted) else p.eventSrcIds fd)
      (slots : ∀ key, after.tokens.get key =
        if key = p.tokens.vacantKey policy then some stored else p.tokens.get key)
      (subject : stored.subject = op.rawFd) (notify : stored.notify = op.notify)
      (watches : op.Watches → stored.Watches ∧
        p.Asked op.rawFd (op.file os) (p.tokens.vacantKey policy) os after result)
      (listener : stored.listenerFile = op.listenerFile) :
      Effect policy p op os (some (after, result))
  -- An unknown listener that cannot be cloned: the first table keeps an entry without a slot.
  | leaked {noted : Option ChannelId} {after : Poller}
      (unknown : p.eventSrcIds op.rawFd = none) (failed : op.CloneFails os)
      (ids : ∀ fd, after.eventSrcIds fd =
        if fd = op.rawFd then some (p.tokens.vacantKey policy, noted) else p.eventSrcIds fd)
      (slots : after.tokens = p.tokens) (accepted : after.accepted = p.accepted) :
      Effect policy p op os (some (after, .error .ioError))

/-- Asking the kernel touches neither table. -/
theorem register_rest (p : Poller) (source : RawFd) (file : FileId) (token : Nat) (os : OsReply) :
    (p.register source file token os).1.eventSrcIds = p.eventSrcIds ∧
      (p.register source file token os).1.tokens = p.tokens ∧
      p.Asked source file token os (p.register source file token os).1
        (p.register source file token os).2 := by
  -- The registrations are the only thing that the kernel's answer changes.
  unfold register Asked
  cases os.register <;> simp

/-- The slot of a descriptor is overwritten or added, unless the index is out of use. -/
theorem writeSlot_cases (policy : KeyPolicy) (p : Poller) (fd : RawFd) (notify : Option ChannelId)
    (op : Option ChannelId → Operation) :
    (∃ id recorded, p.eventSrcIds fd = some (id, recorded) ∧ p.tokens.get id = none ∧
      p.writeSlot policy fd notify op = none) ∨
    (∃ id recorded tokens, p.eventSrcIds fd = some (id, recorded) ∧ p.tokens.get id ≠ none ∧
      p.tokens.set id (op recorded) = some tokens ∧
      p.writeSlot policy fd notify op = some (id, { p with tokens := tokens })) ∨
    (p.eventSrcIds fd = none ∧ p.writeSlot policy fd notify op =
      some (p.tokens.vacantKey policy,
        { p with
          eventSrcIds := Function.update p.eventSrcIds fd (some (p.tokens.vacantKey policy, none))
          tokens := p.tokens.insert policy (op notify) })) := by
  -- The slab decides whether the index of a known descriptor panics.
  unfold writeSlot
  cases known : p.eventSrcIds fd with
  | none => exact .inr (.inr ⟨rfl, by simp⟩)
  | some entry =>
    obtain ⟨id, recorded⟩ := entry
    cases written : p.tokens.set id (op recorded) with
    | none => exact .inl ⟨id, recorded, rfl, Slab.set_eq_none_iff.mp written, by simp [written]⟩
    | some tokens =>
      have occupied : p.tokens.get id ≠ none := fun vacant => by
        simp [Slab.set_eq_none_iff.mpr vacant] at written
      exact .inr (.inl ⟨id, recorded, tokens, rfl, occupied, written, by simp [written]⟩)

/-- A table that records what it already says about a descriptor is the same table. -/
theorem eventSrcIds_same {p : Poller} {fd id : Nat} {recorded : Option ChannelId}
    (known : p.eventSrcIds fd = some (id, recorded)) (other : RawFd) :
    p.eventSrcIds other = if other = fd then some (id, recorded) else p.eventSrcIds other := by
  -- Writing the same entry again is no change.
  by_cases same : other = fd
  · rw [if_pos same, same, known]
  · rw [if_neg same]

/-- A listener is not cloned exactly when the system refuses to duplicate its descriptor. -/
theorem cloneFails_iff {fd : StdTcpListener} {interest : Interest} {notify : Option ChannelId}
    {os : OsReply} :
    (Operation.registrationTcpAdd fd interest notify).CloneFails os ↔ fd.tryClone os = none :=
  Option.map_eq_none_iff.symm

/-- A listener that is cloned does not fail to be cloned. -/
theorem not_cloneFails {fd clone : StdTcpListener} {interest : Interest}
    {notify : Option ChannelId} {os : OsReply} (cloned : fd.tryClone os = some clone) :
    ¬ (Operation.registrationTcpAdd fd interest notify).CloneFails os := by
  rw [cloneFails_iff, cloned]
  simp

/-- A clone remembers the number of the listener that was submitted, and shares its file. -/
theorem tryClone_origin {fd clone : StdTcpListener} {os : OsReply}
    (cloned : fd.tryClone os = some clone) : clone.origin = fd.rawFd ∧ clone.file = fd.file := by
  -- The number of the clone itself is up to the system.
  obtain ⟨number, -, rfl⟩ := Option.map_eq_some_iff.mp cloned
  exact ⟨rfl, rfl⟩

section Effects

variable {policy : KeyPolicy} {p : Poller} {os : OsReply} {interest : Interest}
  {notify : Option ChannelId}

/-- Watching a raw descriptor writes its slot and then asks the kernel. -/
theorem registrationFdAdd_effect {fd : RawFd} :
    p.Effect policy (.registrationFdAdd fd interest notify) os
      (p.registrationFdAdd policy fd interest notify os) := by
  -- What the table says about the descriptor decides how the slot is written.
  unfold registrationFdAdd
  rcases p.writeSlot_cases policy fd notify (.registrationFdAdd fd interest) with
    ⟨id, recorded, known, vacant, panics⟩ |
    ⟨id, recorded, tokens, known, occupied, written, done⟩ | ⟨unknown, done⟩
  · rw [panics]
    exact .panicked known vacant
  · rw [done]
    obtain ⟨ids, slots, answer⟩ := register_rest { p with tokens := tokens } fd os.file id os
    exact .rewritten known occupied not_false
      (fun other => (congrFun ids other).trans (eventSrcIds_same known other))
      (fun key => (congrArg (Slab.get · key) slots).trans (Slab.get_set written key))
      rfl rfl (fun _ => ⟨trivial, answer⟩) rfl
  · rw [done]
    obtain ⟨ids, slots, answer⟩ := register_rest { p with
      eventSrcIds := Function.update p.eventSrcIds fd (some (p.tokens.vacantKey policy, none))
      tokens := p.tokens.insert policy (.registrationFdAdd fd interest notify) } fd os.file
        (p.tokens.vacantKey policy) os
    exact .added unknown not_false
      (fun other => (congrFun ids other).trans (Function.update_apply ..))
      (fun key => (congrArg (Slab.get · key) slots).trans (Slab.get_insert ..))
      rfl rfl (fun _ => ⟨trivial, answer⟩) rfl

/-- Modifying a registration writes the slot of the descriptor and asks nobody. -/
theorem modifyRegistration_effect {fd : RawFd} :
    p.Effect policy (.modifyRegistration fd interest notify) os
      (p.modifyRegistration policy fd interest notify) := by
  -- A supplied notifier replaces the recorded one after the slot is written.
  unfold modifyRegistration
  rcases p.writeSlot_cases policy fd notify (.modifyRegistration fd interest) with
    ⟨id, recorded, known, vacant, panics⟩ |
    ⟨id, recorded, tokens, known, occupied, written, done⟩ | ⟨unknown, done⟩
  · rw [panics]
    exact .panicked known vacant
  · rw [done]
    cases notify with
    | none =>
      exact .rewritten known occupied not_false (eventSrcIds_same known) (Slab.get_set written)
        rfl rfl False.elim rfl
    | some notify =>
      exact .rewritten known occupied not_false (fun _ => Function.update_apply ..)
        (Slab.get_set written) rfl rfl False.elim rfl
  · rw [done]
    cases notify with
    | none =>
      exact .added unknown not_false (fun _ => Function.update_apply ..)
        (fun _ => Slab.get_insert ..) rfl rfl False.elim rfl
    | some notify =>
      -- The entry of the descriptor is written twice, and the second time counts.
      have twice : ∀ other, Function.update (Function.update p.eventSrcIds fd
          (some (p.tokens.vacantKey policy, none))) fd
          (some (p.tokens.vacantKey policy, some notify)) other =
            if other = fd then some (p.tokens.vacantKey policy, some notify)
            else p.eventSrcIds other := by
        intro other
        rw [Function.update_idem]
        exact Function.update_apply ..
      exact .added unknown not_false twice (fun _ => Slab.get_insert ..) rfl rfl False.elim rfl

/-- Watching a listener may fail at the clone, before or after the first table is written. -/
theorem registrationTcpAdd_effect {fd : StdTcpListener} :
    p.Effect policy (.registrationTcpAdd fd interest notify) os
      (p.registrationTcpAdd policy fd interest notify os) := by
  -- A known listener is cloned after its slot was indexed, an unknown one after its entry is made.
  unfold registrationTcpAdd
  cases known : p.eventSrcIds fd.rawFd with
  | some entry =>
    obtain ⟨id, recorded⟩ := entry
    by_cases vacant : p.tokens.get id = none
    · simp only [vacant, if_true]
      exact .panicked known vacant
    simp only [vacant, if_false]
    cases cloned : fd.tryClone os with
    | none => exact .refused known vacant (cloneFails_iff.mpr cloned) rfl rfl rfl
    | some clone =>
      cases written : p.tokens.set id (.registrationTcpAdd clone interest recorded) with
      | none => exact absurd (Slab.set_eq_none_iff.mp written) vacant
      | some tokens =>
        simp only [written, Option.map_some]
        obtain ⟨ids, slots, answer⟩ :=
          register_rest { p with tokens := tokens } fd.rawFd fd.file id os
        exact .rewritten known vacant (not_cloneFails cloned)
          (fun other => (congrFun ids other).trans (eventSrcIds_same known other))
          (fun key => (congrArg (Slab.get · key) slots).trans (Slab.get_set written key))
          (tryClone_origin cloned).1 rfl (fun _ => ⟨trivial, answer⟩)
          (congrArg some (tryClone_origin cloned).2)
  | none =>
    cases cloned : fd.tryClone os with
    | none =>
      exact .leaked known (cloneFails_iff.mpr cloned) (fun other => Function.update_apply ..)
        rfl rfl
    | some clone =>
      obtain ⟨ids, slots, answer⟩ := register_rest { p with
        eventSrcIds := Function.update p.eventSrcIds fd.rawFd
          (some (p.tokens.vacantKey policy, notify))
        tokens := p.tokens.insert policy (.registrationTcpAdd clone interest notify) } fd.rawFd
          fd.file (p.tokens.vacantKey policy) os
      exact .added known (not_cloneFails cloned)
        (fun other => (congrFun ids other).trans (Function.update_apply ..))
        (fun key => (congrArg (Slab.get · key) slots).trans (Slab.get_insert ..))
        (tryClone_origin cloned).1 rfl (fun _ => ⟨trivial, answer⟩)
        (congrArg some (tryClone_origin cloned).2)

end Effects

/-- What the kernel forgets afterwards is in none of the tables. -/
theorem Effect.forgetClosed {policy : KeyPolicy} {p : Poller} {op : Operation} {os : OsReply}
    {outcome : Option (Poller × PollResult Unit)} (effect : p.Effect policy op os outcome) :
    p.Effect policy op os (outcome.map fun (after, result) =>
      (after.forgetClosed os.held, result)) := by
  -- Each effect is about what stays as it is.
  cases effect with
  | panicked known vacant => exact .panicked known vacant
  | refused known occupied failed ids slots accepted =>
    exact .refused known occupied failed ids slots accepted
  | rewritten known occupied cloned ids slots subject notify watches listener =>
    exact .rewritten known occupied cloned ids slots subject notify watches listener
  | added unknown cloned ids slots subject notify watches listener =>
    exact .added unknown cloned ids slots subject notify watches listener
  | leaked unknown failed ids slots accepted => exact .leaked unknown failed ids slots accepted

/-- Every operation but a deletion has one of the listed effects. -/
theorem pushTokenEntry_effect (policy : KeyPolicy) (p : Poller) (op : Operation) (os : OsReply)
    (kept : ∀ fd, op ≠ .deleteRegistration fd) :
    p.Effect policy op os (p.pushTokenEntry policy op os) := by
  -- What the kernel forgets afterwards is in none of the effects, and the arms are known.
  refine Effect.forgetClosed ?_
  cases op with
  | deleteRegistration fd => exact absurd rfl (kept fd)
  | registrationFdAdd fd interest notify => exact registrationFdAdd_effect
  | modifyRegistration fd interest notify => exact modifyRegistration_effect
  | registrationTcpAdd fd interest notify => exact registrationTcpAdd_effect

section Results

variable {policy : KeyPolicy} {p after : Poller} {op : Operation} {os : OsReply}
  {result : PollResult Unit}

/-- What is returned is what one of the arms has returned, without the closed sources. -/
theorem pushed_arm (pushed : p.pushTokenEntry policy op os = some (after, result)) :
    ∃ mid, p.pushArm policy op os = some (mid, result) ∧ after = mid.forgetClosed os.held := by
  -- Forgetting leaves the result as it is.
  obtain ⟨⟨mid, _⟩, arm, done⟩ := Option.map_eq_some_iff.mp pushed
  obtain ⟨rfl, rfl⟩ := Prod.mk.inj done
  exact ⟨mid, arm, rfl⟩

/-- Deletions never return. -/
theorem pushed_kept {outcome : Poller × PollResult Unit}
    (pushed : p.pushTokenEntry policy op os = some outcome) (fd : RawFd) :
    op ≠ .deleteRegistration fd := by
  rintro rfl
  simp [pushTokenEntry, pushArm] at pushed

/-- Every operation that returns has one of the listed effects. -/
theorem pushed_effect {outcome : Poller × PollResult Unit}
    (pushed : p.pushTokenEntry policy op os = some outcome) :
    p.Effect policy op os (some outcome) := by
  rw [← pushed]
  exact p.pushTokenEntry_effect policy op os (pushed_kept pushed)

/-- Modifying a registration never fails. -/
theorem modifyRegistration_result {fd : RawFd} {interest : Interest} {notify : Option ChannelId}
    (pushed : p.modifyRegistration policy fd interest notify = some (after, result)) :
    result = .ok () := by
  -- The slot is written, and both ways to go on return `Ok`.
  unfold modifyRegistration at pushed
  obtain ⟨written, -, done⟩ := Option.map_eq_some_iff.mp pushed
  cases notify with
  | none => exact (congrArg Prod.snd done).symm
  | some notify => exact (congrArg Prod.snd done).symm

/-- Writing a slot concerns the tables only. -/
theorem writeSlot_registry {fd id : Nat} {notify : Option ChannelId}
    {op : Option ChannelId → Operation}
    (written : p.writeSlot policy fd notify op = some (id, after)) :
    after.registry = p.registry ∧ after.accepted = p.accepted := by
  -- A vacant slot panics, and a new or an old slot is written.
  rcases p.writeSlot_cases policy fd notify op with
    ⟨_, _, -, -, panics⟩ | ⟨_, _, tokens, -, -, -, done⟩ | ⟨-, done⟩
  · simp [panics] at written
  · rw [done] at written
    obtain ⟨-, rfl⟩ := Prod.mk.inj (Option.some.inj written)
    exact ⟨rfl, rfl⟩
  · rw [done] at written
    obtain ⟨-, rfl⟩ := Prod.mk.inj (Option.some.inj written)
    exact ⟨rfl, rfl⟩

/-- An operation that asks for no events never fails. -/
theorem pushTokenEntry_plain (pushed : p.pushTokenEntry policy op os = some (after, result))
    (silent : ¬ op.Watches) : result = .ok () := by
  -- A modification is the only operation that asks for no events and returns.
  obtain ⟨mid, arm, -⟩ := pushed_arm pushed
  cases op with
  | modifyRegistration fd interest notify => exact modifyRegistration_result arm
  | deleteRegistration fd => simp [pushArm] at arm
  | registrationFdAdd => exact absurd trivial silent
  | registrationTcpAdd => exact absurd trivial silent

/-- The kernel's answer is the result. -/
theorem Asked.ok_iff {source : RawFd} {file : FileId} {token : Nat}
    (asked : p.Asked source file token os after result) :
    result = .ok () ↔ os.register = true := by
  -- The kernel accepts or refuses.
  rcases asked with ⟨accepted, ok, -⟩ | ⟨refused, error, -⟩
  · exact iff_of_true ok accepted
  · exact iff_of_false (by simp [error]) (by simp [refused])

/-- An operation that is pushed succeeds exactly if the system does what it needs. -/
theorem pushTokenEntry_ok_iff (pushed : p.pushTokenEntry policy op os = some (after, result)) :
    result = .ok () ↔ op.Accepted os := by
  -- Each effect is an error of the clone or leaves the answer to the kernel.
  have plain := pushTokenEntry_plain pushed
  -- A listener that is cloned leaves the answer to the kernel.
  have asked : ∀ {id : Nat}, ¬ op.CloneFails os →
      (op.Watches → p.Asked op.rawFd (op.file os) id os after result) →
        (result = .ok () ↔ op.Accepted os) := by
    intro id cloned watches
    by_cases watching : op.Watches
    · rw [(watches watching).ok_iff]
      exact ⟨fun accepted => ⟨cloned, fun _ => accepted⟩, fun accepts => accepts.2 watching⟩
    · exact iff_of_true (plain watching) ⟨cloned, fun w => absurd w watching⟩
  cases pushed_effect pushed with
  | refused known occupied failed =>
    exact iff_of_false (by simp) fun accepts => accepts.1 failed
  | leaked unknown failed => exact iff_of_false (by simp) fun accepts => accepts.1 failed
  | rewritten known occupied cloned ids slots subject notify watches =>
    exact asked cloned fun watching => (watches watching).2
  | added unknown cloned ids slots subject notify watches =>
    exact asked cloned fun watching => (watches watching).2

/-- There is one error that an operation that is pushed can fail with. -/
theorem pushTokenEntry_error (pushed : p.pushTokenEntry policy op os = some (after, result))
    (rejected : ¬ op.Accepted os) : result = .error .ioError := by
  -- A modification does not fail, and what is cloned fails with the kernel's answer.
  have asked : ∀ {id : Nat}, ¬ op.CloneFails os →
      (op.Watches → p.Asked op.rawFd (op.file os) id os after result) →
        result = .error .ioError := by
    intro id cloned watches
    by_cases watching : op.Watches
    · rcases watches watching with ⟨accepted, -, -⟩ | ⟨-, error, -⟩
      · exact absurd ⟨cloned, fun _ => accepted⟩ rejected
      · exact error
    · exact absurd ⟨cloned, fun w => absurd w watching⟩ rejected
  cases pushed_effect pushed with
  | refused => rfl
  | leaked => rfl
  | rewritten known occupied cloned ids slots subject notify watches =>
    exact asked cloned fun watching => (watches watching).2
  | added unknown cloned ids slots subject notify watches =>
    exact asked cloned fun watching => (watches watching).2

/-- Asking the kernel adds the source at most. -/
theorem register_extends {mid : Poller} {source : RawFd} {file : FileId} {token : Nat}
    (same : mid.registry = p.registry ∧ mid.accepted = p.accepted) :
    p.Extends (mid.register source file token os).1 := by
  -- A refused source is not added.
  unfold Extends register
  rw [← same.1, ← same.2]
  cases os.register with
  | true => exact ⟨_, rfl, rfl⟩
  | false => exact ⟨[], (List.append_nil _).symm, (List.append_nil _).symm⟩

/-- The arms of an operation add to what the kernel watches, and take nothing away. -/
theorem pushArm_extends {mid : Poller} (arm : p.pushArm policy op os = some (mid, result)) :
    p.Extends mid := by
  -- The tables are written first, which leaves the kernel alone.
  have nothing : p.Extends p := ⟨[], (List.append_nil _).symm, (List.append_nil _).symm⟩
  cases op with
  | deleteRegistration fd => simp [pushArm] at arm
  | registrationFdAdd fd interest notify =>
    obtain ⟨⟨id, written⟩, slot, done⟩ := Option.map_eq_some_iff.mp arm
    obtain rfl : (written.register fd os.file id os).1 = mid := congrArg Prod.fst done
    exact register_extends (writeSlot_registry slot)
  | modifyRegistration fd interest notify =>
    obtain ⟨⟨id, written⟩, slot, done⟩ := Option.map_eq_some_iff.mp arm
    obtain ⟨registry, accepted⟩ := writeSlot_registry slot
    have grown : p.Extends written :=
      ⟨[], registry.trans (List.append_nil _).symm, accepted.trans (List.append_nil _).symm⟩
    cases notify with
    | none =>
      obtain rfl : written = mid := congrArg Prod.fst done
      exact grown
    | some notify =>
      obtain rfl := congrArg Prod.fst done
      exact grown
  | registrationTcpAdd fd interest notify =>
    simp only [pushArm, registrationTcpAdd] at arm
    split at arm
    · split at arm
      · simp at arm
      · split at arm
        · obtain ⟨rfl, -⟩ := Prod.mk.inj (Option.some.inj arm)
          exact nothing
        · obtain ⟨tokens, -, done⟩ := Option.map_eq_some_iff.mp arm
          obtain rfl := congrArg Prod.fst done
          exact register_extends ⟨rfl, rfl⟩
    · split at arm
      · obtain ⟨rfl, -⟩ := Prod.mk.inj (Option.some.inj arm)
        exact nothing
      · obtain rfl := congrArg Prod.fst (Option.some.inj arm)
        exact register_extends ⟨rfl, rfl⟩

/-- The slab owns a descriptor of a file exactly if a listener of that file is in a slot. -/
theorem holdsFile_iff {file : FileId} : p.holdsFile file = true ↔
    ∃ key stored, p.tokens.get key = some stored ∧ stored.listenerFile = some file := by
  -- The keys that are searched are those with something stored under them.
  unfold holdsFile
  rw [decide_eq_true_eq]
  constructor
  · rintro ⟨key, -, held⟩
    obtain ⟨stored, slot, listener⟩ := Option.bind_eq_some_iff.mp held
    exact ⟨key, stored, slot, listener⟩
  · rintro ⟨key, stored, slot, listener⟩
    refine ⟨key, (p.tokens.mem_keys key).mpr ?_, Option.bind_eq_some_iff.mpr ⟨_, slot, listener⟩⟩
    exact Option.isSome_iff_exists.mpr ⟨stored, slot⟩

/-- Which slots hold a file is decided by what is written, and by what is not overwritten. -/
theorem holdsFile_write {file : FileId} {id : Nat} {stored : Operation}
    (slots : ∀ key, after.tokens.get key = if key = id then some stored else p.tokens.get key) :
    after.holdsFile file = true ↔ stored.listenerFile = some file ∨
      ∃ key ∈ p.tokens.keys, key ≠ id ∧
        (p.tokens.get key).bind Operation.listenerFile = some file := by
  -- The slot that is written is looked at first, and the others are as they were.
  rw [holdsFile_iff]
  constructor
  · rintro ⟨key, now, slot, listener⟩
    rw [slots] at slot
    split at slot
    · obtain rfl := Option.some.inj slot
      exact .inl listener
    · rename_i apart
      refine .inr ⟨key, (p.tokens.mem_keys key).mpr ?_, apart, ?_⟩
      · exact Option.isSome_iff_exists.mpr ⟨now, slot⟩
      · exact Option.bind_eq_some_iff.mpr ⟨now, slot, listener⟩
  · rintro (listener | ⟨key, -, apart, held⟩)
    · exact ⟨id, stored, by rw [slots, if_pos rfl], listener⟩
    · obtain ⟨now, slot, listener⟩ := Option.bind_eq_some_iff.mp held
      exact ⟨key, now, by rw [slots, if_neg apart, slot], listener⟩

/-- Which files have a descriptor left is known before an operation is pushed. -/
theorem hasOpen_iff (pushed : p.pushTokenEntry policy op os = some (after, result))
    {file : FileId} : after.hasOpen os.held file = true ↔ p.StaysOpen op os file := by
  -- The files that the process holds count on both sides, so only the slots are compared.
  have left : after.hasOpen os.held file = true ↔
      file ∈ os.held ∨ after.holdsFile file = true := by
    rw [hasOpen, Bool.or_eq_true, List.contains_iff_mem, or_comm]
  rw [left]
  refine or_congr_right ?_
  -- Where nothing is written, the slots hold what they held.
  have unwritten : op.CloneFails os → after.tokens = p.tokens → (after.holdsFile file = true ↔
      (¬ op.CloneFails os ∧ op.listenerFile = some file) ∨
        ∃ key ∈ p.tokens.keys, p.overwritten op os ≠ some key ∧
          (p.tokens.get key).bind Operation.listenerFile = some file) := by
    intro failed same
    simp [holdsFile, same, overwritten, failed]
  cases pushed_effect pushed with
  | refused known occupied failed ids slots => exact unwritten failed slots
  | leaked unknown failed ids slots => exact unwritten failed slots
  | @rewritten id _ _ _ _ _ known occupied cloned ids slots subject notify watches listener =>
    rw [holdsFile_write slots, listener]
    simp [overwritten, cloned, known, eq_comm]
  | @added _ _ _ _ unknown cloned ids slots subject notify watches listener =>
    rw [holdsFile_write slots, listener]
    -- The slot that is written was vacant.
    refine or_congr (by simp [cloned]) (exists_congr fun key => and_congr_right fun used => ?_)
    have other : key ≠ p.tokens.vacantKey policy := by
      rintro rfl
      exact policy.fresh _ used
    simp [overwritten, cloned, unknown, other]

/-- The kernel watches what it watched and was asked to watch, if a descriptor of it is left. -/
theorem pushTokenEntry_registry (pushed : p.pushTokenEntry policy op os = some (after, result)) :
    ∃ new, after.accepted = p.accepted ++ new ∧
      after.registry = (p.registry ++ new).filter fun entry => p.StaysOpen op os entry.file := by
  -- Forgetting closed sources does not change which descriptors the slab holds.
  obtain ⟨mid, arm, rfl⟩ := pushed_arm pushed
  obtain ⟨new, registry, accepted⟩ := pushArm_extends arm
  refine ⟨new, accepted, ?_⟩
  rw [← registry]
  refine List.filter_congr fun entry _ => ?_
  rw [Bool.eq_iff_iff, decide_eq_true_eq]
  exact hasOpen_iff pushed

end Results

/-- The notifier that an event with a given token is sent to. -/
def slotNotify (p : Poller) (token : Nat) : Option ChannelId :=
  (p.tokens.get token).bind Operation.notify

/-- Every occupied slot holds an operation that asks for events. -/
def AllWatch (p : Poller) : Prop :=
  ∀ key op, p.tokens.get key = some op → op.Watches

/-- An event goes to the notifier in its slot, if there is one. -/
theorem AllWatch.dispatch {p : Poller} (watch : p.AllWatch) (event : Event) :
    p.dispatch event = match p.slotNotify event.token with
      | none => .silent
      | some notify => .notified notify := by
  -- The arms that are left out belong to operations that are not stored here.
  unfold Poller.dispatch slotNotify
  cases stored : p.tokens.get event.token with
  | none => rfl
  | some op =>
    have watches := watch _ op stored
    cases op with
    | registrationFdAdd fd interest notify => cases notify <;> rfl
    | registrationTcpAdd fd interest notify => cases notify <;> rfl
    | modifyRegistration => exact watches.elim
    | deleteRegistration => exact watches.elim

/-- A batch is dispatched event by event, in order, and to its end. -/
theorem AllWatch.poll {p : Poller} (watch : p.AllWatch) (events : List Event) :
    p.poll (.ok events) =
      ⟨events.filterMap fun event => (p.slotNotify event.token).map fun notify => (notify, event),
        some (.ok ())⟩ := by
  -- The induction follows the loop over the batch.
  show p.dispatchAll events = _
  induction events with
  | nil => rfl
  | cons event events ih =>
    rw [dispatchAll, watch.dispatch]
    cases found : p.slotNotify event.token with
    | none => simpa [found] using ih
    | some notify => simp [found, ih]

end Poller

end Imputio
