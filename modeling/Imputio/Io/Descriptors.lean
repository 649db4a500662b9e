import Imputio.Io.Survival

/-! Seen from outside, the poller is one table with an entry for each descriptor number. -/

namespace Imputio

open Transition

/-- What a poller knows about a descriptor. -/
structure DescriptorEntry where
  -- Where events are sent to.
  notify : Option ChannelId
  -- The notifier that the next operation is going to be stored with.
  noted : Option ChannelId
  -- Whether the operation that is stored asks for events.
  watches : Bool
  -- The open file of the listener that is kept.
  listener : Option FileId
  deriving DecidableEq

/-- A poller without tokens: its descriptors, and the sources of theirs that the kernel watches. -/
structure DescriptorTable where
  entries : RawFd → Option DescriptorEntry
  watched : RawFd → FileId → Prop

/-- What users and the kernel ask of a poller. -/
inductive PollerInput where
  | push (op : Operation) (os : OsReply)
  | report (fd : RawFd) (readiness : BitVec 8)
  -- The process closes descriptors of its own; it keeps some of the listed files.
  | close (held : List FileId)
  deriving DecidableEq, Repr

/-- What users and the kernel see of it. -/
inductive PollerOutput where
  | pushed (result : PollResult Unit)
  | dispatched (dispatch : Dispatch)
  deriving DecidableEq

/-- The notifier that is on record after an operation, by the record that there was before. -/
def Operation.noted (op : Operation) (before : Option (Option ChannelId)) : Option ChannelId :=
  match op with
  -- The first notifier of a raw descriptor is not recorded, and that of a listener is.
  | .registrationFdAdd _ _ _ => before.join
  | .registrationTcpAdd _ _ notify => before.getD notify
  | .modifyRegistration _ _ notify => notify.or before.join
  | .deleteRegistration _ => before.join

namespace DescriptorTable

open scoped Classical

/-- The table of a poller that knows nothing. -/
def empty : DescriptorTable where
  entries := fun _ => none
  watched := fun _ _ => False

/-- Write the entry of an operation's descriptor, with the notifier recorded for it before. -/
def write (table : DescriptorTable) (op : Operation) : DescriptorTable :=
  let before := (table.entries op.rawFd).map DescriptorEntry.noted
  { table with
    entries := Function.update table.entries op.rawFd
      (some ⟨before.getD op.notify, op.noted before, decide op.Watches, op.listenerFile⟩) }

/-- Watch one more source. -/
def watch (table : DescriptorTable) (fd : RawFd) (file : FileId) : DescriptorTable :=
  { table with
    watched := fun source other => table.watched source other ∨ source = fd ∧ other = file }

/-- A listener of a file is kept for some descriptor. -/
def Holds (table : DescriptorTable) (file : FileId) : Prop :=
  ∃ fd, ∃ entry ∈ table.entries fd, entry.listener = some file

/-- Forget the sources of which there is no descriptor left. -/
def forgetClosed (table : DescriptorTable) (held : List FileId) : DescriptorTable :=
  { table with
    watched := fun fd file => table.watched fd file ∧ (file ∈ held ∨ table.Holds file) }

/-- Push one operation; there is no result for a deletion, which panics. -/
def push (table : DescriptorTable) (op : Operation) (os : OsReply) :
    Option (DescriptorTable × PollResult Unit) :=
  match op with
  | .deleteRegistration _ => none
  | op =>
    if op.CloneFails os then some (table.forgetClosed os.held, .error .ioError)
    else if ¬ op.Watches then some ((table.write op).forgetClosed os.held, .ok ())
    else if os.register then
      some (((table.write op).watch op.rawFd (op.file os)).forgetClosed os.held, .ok ())
    else some ((table.write op).forgetClosed os.held, .error .ioError)

/-- What an event of a descriptor leads to. -/
def dispatch (table : DescriptorTable) (fd : RawFd) : Dispatch :=
  match table.entries fd with
  | none => .silent
  | some ⟨_, _, false, _⟩ => .unfinished
  | some ⟨none, _, true, _⟩ => .silent
  | some ⟨some notify, _, true, _⟩ => .notified notify

/--
What a table does with an input, where it is possible; a panic leaves no table. Unknown listeners
that cannot be cloned are not considered.
-/
noncomputable def next (s : Option DescriptorTable) (input : PollerInput) :
    Option (Option DescriptorTable) :=
  s.bind fun table => match input with
    | .push op os =>
      if table.entries op.rawFd = none ∧ op.CloneFails os then none
      else some ((table.push op os).map Prod.fst)
    | .report fd _ =>
      if ∃ file, table.watched fd file then
        some (if table.dispatch fd = .unfinished then none else some table)
      else none
    | .close held => some (some (table.forgetClosed held))

/-- What a table lets see of an input. -/
noncomputable def output (s : Option DescriptorTable) (input : PollerInput) :
    Option PollerOutput :=
  s.bind fun table => match input with
    | .push op os => (table.push op os).map fun out => .pushed out.2
    | .report fd _ =>
      if ∃ file, table.watched fd file then some (.dispatched (table.dispatch fd)) else none
    | .close _ => none

/-- Every operation but a deletion is pushed in the same way. -/
theorem push_eq {table : DescriptorTable} {op : Operation} {os : OsReply}
    (kept : ∀ fd, op ≠ .deleteRegistration fd) :
    table.push op os =
      if op.CloneFails os then some (table.forgetClosed os.held, .error .ioError)
      else if ¬ op.Watches then some ((table.write op).forgetClosed os.held, .ok ())
      else if os.register then
        some (((table.write op).watch op.rawFd (op.file os)).forgetClosed os.held, .ok ())
      else some ((table.write op).forgetClosed os.held, .error .ioError) := by
  -- The other three are the same by definition.
  cases op with
  | deleteRegistration fd => exact absurd rfl (kept fd)
  | registrationFdAdd => rfl
  | registrationTcpAdd => rfl
  | modifyRegistration => rfl

end DescriptorTable

namespace Poller

/--
What a poller does with an input, where it is possible; a panic leaves no poller. The kernel reports
readiness under the token that it watches a descriptor as.
-/
def next (policy : KeyPolicy) (s : Option Poller) (input : PollerInput) :
    Option (Option Poller) :=
  s.bind fun p => match input with
    | .push op os =>
      if p.eventSrcIds op.rawFd = none ∧ op.CloneFails os then none
      else some ((p.pushTokenEntry policy op os).map Prod.fst)
    | .report fd readiness =>
      (p.watchedAs fd).map fun watched =>
        if p.dispatch ⟨watched.1, readiness⟩ = .unfinished then none else some p
    | .close held => some (some (p.forgetClosed held))

/-- What a poller lets see of an input. -/
def output (policy : KeyPolicy) (s : Option Poller) (input : PollerInput) :
    Option PollerOutput :=
  s.bind fun p => match input with
    | .push op os => (p.pushTokenEntry policy op os).map fun out => .pushed out.2
    | .report fd readiness =>
      (p.watchedAs fd).map fun watched => .dispatched (p.dispatch ⟨watched.1, readiness⟩)
    | .close _ => none

/-- What a poller knows about a descriptor is in both of its tables. -/
def entryOf (p : Poller) (fd : RawFd) : Option DescriptorEntry :=
  (p.eventSrcIds fd).bind fun known =>
    (p.tokens.get known.1).map fun stored =>
      ⟨stored.notify, known.2, decide stored.Watches, stored.listenerFile⟩

/-- A poller with its tokens forgotten. -/
def view (p : Poller) : DescriptorTable where
  entries := p.entryOf
  watched := fun fd file => ∃ entry ∈ p.registry, entry.source = fd ∧ entry.file = file

/-- Every slot that is in use is that of a known descriptor. -/
def SlotsKnown (p : Poller) : Prop :=
  ∀ key stored, p.tokens.get key = some stored →
    ∃ fd recorded, p.eventSrcIds fd = some (key, recorded)

variable {policy : KeyPolicy} {p after : Poller} {op : Operation} {os : OsReply}
  {result : PollResult Unit}

/-- Descriptors that the table has no entry for are not in view. -/
theorem entryOf_unknown {fd : RawFd} (unknown : p.eventSrcIds fd = none) :
    p.entryOf fd = none := by
  simp [entryOf, unknown]

/-- A known descriptor is in view with what its slot holds. -/
theorem entryOf_known {fd id : Nat} {noted : Option ChannelId} {stored : Operation}
    (known : p.eventSrcIds fd = some (id, noted)) (slot : p.tokens.get id = some stored) :
    p.entryOf fd = some ⟨stored.notify, noted, decide stored.Watches, stored.listenerFile⟩ := by
  simp [entryOf, known, slot]

/-- While the tables agree, exactly the known descriptors are in view. -/
theorem TableInv.entryOf_eq_none_iff (table : p.TableInv) {fd : RawFd} :
    p.entryOf fd = none ↔ p.eventSrcIds fd = none := by
  -- A known descriptor is out of view only if its slot is vacant.
  constructor
  · intro unseen
    cases known : p.eventSrcIds fd with
    | none => rfl
    | some entry =>
      -- The slot of a known descriptor is occupied.
      obtain ⟨id, noted⟩ := entry
      obtain ⟨stored, slot, -⟩ := table fd id noted known
      simp [entryOf_known known slot] at unseen
  · exact entryOf_unknown

/-- The notifier recorded for a descriptor is in view. -/
theorem TableInv.entryOf_noted (table : p.TableInv) (fd : RawFd) :
    (p.entryOf fd).map DescriptorEntry.noted = (p.eventSrcIds fd).map Prod.snd := by
  -- What is recorded comes into view together with the slot.
  cases known : p.eventSrcIds fd with
  | none => simp [entryOf_unknown known]
  | some entry =>
    obtain ⟨id, noted⟩ := entry
    obtain ⟨stored, slot, -⟩ := table fd id noted known
    simp [entryOf_known known slot]

/-- Writing the slot of one descriptor changes nothing else in view. -/
theorem entryOf_write {fd id : Nat} {noted : Option ChannelId} {stored : Operation}
    (own : ∀ other recorded, p.eventSrcIds other = some (id, recorded) → other = fd)
    (ids : ∀ other, after.eventSrcIds other =
      if other = fd then some (id, noted) else p.eventSrcIds other)
    (slots : ∀ key, after.tokens.get key = if key = id then some stored else p.tokens.get key) :
    after.entryOf =
      Function.update p.entryOf fd
        (some ⟨stored.notify, noted, decide stored.Watches, stored.listenerFile⟩) := by
  -- The descriptor that is written is read back, and the others are compared by their slots.
  funext other
  by_cases same : other = fd
  · subst same
    rw [Function.update_self]
    exact entryOf_known (by rw [ids, if_pos rfl]) (by rw [slots, if_pos rfl])
  · rw [Function.update_of_ne same]
    unfold entryOf
    rw [ids, if_neg same]
    cases known : p.eventSrcIds other with
    | none => rfl
    | some entry =>
      -- No other descriptor has its slot where the operation writes.
      have apart : entry.1 ≠ id := fun shared =>
        same (own other entry.2 (known.trans (by rw [← shared])))
      simp [slots, apart]

/-- Writing a slot keeps the record of a known descriptor, and makes an empty one for a new one. -/
theorem writeSlot_noted {fd id : Nat} {notify : Option ChannelId}
    {stored : Option ChannelId → Operation}
    (written : p.writeSlot policy fd notify stored = some (id, after)) :
    after.eventSrcIds fd = some (id, ((p.eventSrcIds fd).map Prod.snd).join) := by
  -- The number is known, or it gets a slot of its own.
  rcases p.writeSlot_cases policy fd notify stored with
    ⟨_, _, -, -, panics⟩ | ⟨_, recorded, tokens, known, -, -, done⟩ | ⟨unknown, done⟩
  · simp [panics] at written
  · rw [done] at written
    obtain ⟨rfl, rfl⟩ := Prod.mk.inj (Option.some.inj written)
    simp [known]
  · rw [done] at written
    obtain ⟨rfl, rfl⟩ := Prod.mk.inj (Option.some.inj written)
    simp [unknown]

/-- An operation that gets its clone leaves its own record of the notifier. -/
theorem pushTokenEntry_noted (pushed : p.pushTokenEntry policy op os = some (after, result))
    (cloned : ¬ op.CloneFails os) :
    ∃ id, after.eventSrcIds op.rawFd =
      some (id, op.noted ((p.eventSrcIds op.rawFd).map Prod.snd)) := by
  -- Forgetting closed sources leaves the record alone.
  obtain ⟨done, arm, rfl⟩ := pushed_arm pushed
  show ∃ id, done.eventSrcIds op.rawFd =
    some (id, op.noted ((p.eventSrcIds op.rawFd).map Prod.snd))
  cases op with
  | deleteRegistration fd => simp [pushArm] at arm
  | registrationFdAdd fd interest notify =>
    obtain ⟨⟨id, mid⟩, written, asked⟩ := Option.map_eq_some_iff.mp arm
    -- Asking the kernel leaves it alone as well.
    obtain ⟨ids, -, -⟩ := register_rest mid fd os.file id os
    rw [show done = (mid.register fd os.file id os).1 from (congrArg Prod.fst asked).symm, ids]
    exact ⟨id, writeSlot_noted written⟩
  | modifyRegistration fd interest notify =>
    obtain ⟨⟨id, mid⟩, written, noted⟩ := Option.map_eq_some_iff.mp arm
    -- A supplied notifier replaces the one on record.
    cases notify with
    | none =>
      obtain rfl : mid = done := congrArg Prod.fst noted
      exact ⟨id, writeSlot_noted written⟩
    | some notify =>
      obtain rfl := congrArg Prod.fst noted
      exact ⟨id, Function.update_self ..⟩
  | registrationTcpAdd fd interest notify =>
    -- The record of a known listener stays, and a new one is made with the supplied notifier.
    cases copied : fd.tryClone os with
    | none => exact absurd (cloneFails_iff.mpr copied) cloned
    | some clone =>
      unfold pushArm registrationTcpAdd at arm
      cases known : p.eventSrcIds fd.rawFd with
      | none =>
        simp only [known, copied, Option.some.injEq] at arm
        obtain rfl := (congrArg Prod.fst arm).symm
        obtain ⟨ids, -, -⟩ := register_rest { p with
          eventSrcIds := Function.update p.eventSrcIds fd.rawFd
            (some (p.tokens.vacantKey policy, notify))
          tokens := p.tokens.insert policy (.registrationTcpAdd clone interest notify) } fd.rawFd
            fd.file (p.tokens.vacantKey policy) os
        have noted := (congrFun ids fd.rawFd).trans (Function.update_self ..)
        exact ⟨_, by simpa [Operation.noted, Operation.rawFd, known] using noted⟩
      | some entry =>
        obtain ⟨id, recorded⟩ := entry
        simp only [known, copied] at arm
        split at arm
        · simp at arm
        · obtain ⟨tokens, -, asked⟩ := Option.map_eq_some_iff.mp arm
          obtain rfl := (congrArg Prod.fst asked).symm
          obtain ⟨ids, -, -⟩ := register_rest { p with tokens := tokens } fd.rawFd fd.file id os
          have noted := (congrFun ids fd.rawFd).trans known
          exact ⟨id, by simpa [Operation.noted, Operation.rawFd, known] using noted⟩

/-- An operation that asks for no events stores one that asks for none. -/
theorem pushTokenEntry_watches (pushed : p.pushTokenEntry policy op os = some (after, result))
    {id : Nat} {noted : Option ChannelId} {stored : Operation}
    (known : after.eventSrcIds op.rawFd = some (id, noted))
    (slot : after.tokens.get id = some stored) (silent : ¬ op.Watches) : ¬ stored.Watches := by
  -- Among the operations that ask for no events, one stores something.
  cases op with
  | registrationFdAdd => exact absurd trivial silent
  | registrationTcpAdd => exact absurd trivial silent
  | deleteRegistration fd => exact absurd rfl (pushed_kept pushed fd)
  | modifyRegistration fd interest notify =>
    -- A modification stores a modification.
    obtain ⟨id', noted', recorded, known', slot'⟩ := modifyRegistration_stores pushed
    obtain ⟨rfl, rfl⟩ := Prod.mk.inj (Option.some.inj (known.symm.trans known'))
    obtain rfl := Option.some.inj (slot.symm.trans slot')
    exact silent

/-- Afterwards every descriptor is in view as a table would have it. -/
theorem TableInv.push_entries (table : p.TableInv)
    (pushed : p.pushTokenEntry policy op os = some (after, result)) (cloned : ¬ op.CloneFails os) :
    after.entryOf = (p.view.write op).entries := by
  -- Both ways to write a slot are instances of one write; the other two need a failed clone.
  have before := table.entryOf_noted op.rawFd
  obtain ⟨key, now⟩ := pushTokenEntry_noted pushed cloned
  have kind : ∀ {id : Nat} {noted : Option ChannelId} {stored : Operation},
      after.eventSrcIds op.rawFd = some (id, noted) → after.tokens.get id = some stored →
      (op.Watches → stored.Watches) → noted = op.noted ((p.eventSrcIds op.rawFd).map Prod.snd) ∧
        decide stored.Watches = decide op.Watches := by
    intro id noted stored known slot watches
    refine ⟨(Prod.mk.inj (Option.some.inj (known.symm.trans now))).2, ?_⟩
    refine decide_eq_decide.mpr ⟨fun watching => ?_, watches⟩
    by_contra silent
    exact pushTokenEntry_watches pushed known slot silent watching
  -- The slot is the recorded one or a new one, and it belongs to no other descriptor.
  cases pushed_effect pushed with
  | refused known occupied failed => exact absurd failed cloned
  | leaked unknown failed => exact absurd failed cloned
  | rewritten known occupied _ ids slots subject notify watches listener =>
    have wrote := entryOf_write
      (fun other recorded shared => table.distinct other op.rawFd _ _ _ shared known) ids slots
    obtain ⟨rfl, same⟩ := kind (by rw [ids, if_pos rfl]) (by rw [slots, if_pos rfl])
      fun watching => (watches watching).1
    rw [wrote, same, notify, listener]
    simp [DescriptorTable.write, view, before, known]
  | added unknown _ ids slots subject notify watches listener =>
    have wrote := entryOf_write
      (fun other recorded shared => absurd rfl (table.not_vacant shared)) ids slots
    obtain ⟨rfl, same⟩ := kind (by rw [ids, if_pos rfl]) (by rw [slots, if_pos rfl])
      fun watching => (watches watching).1
    rw [wrote, same, notify, listener]
    simp [DescriptorTable.write, view, before, unknown]

/-- The tables keep agreeing while all listeners with unknown numbers can be cloned. -/
theorem TableInv.pushed (table : p.TableInv)
    (clones : p.eventSrcIds op.rawFd = none → ¬ op.CloneFails os)
    (pushed : p.pushTokenEntry policy op os = some (after, result)) : after.TableInv := by
  -- The operation is a step of the submissions, for which the agreement is known.
  have step : Steps (submitNext policy) (some p) ⟨op, os⟩ (some after) := by
    have kept := pushed_kept pushed
    cases op with
    | deleteRegistration fd => exact absurd rfl (kept fd)
    | registrationFdAdd => simp [Steps, submitNext, pushed]
    | registrationTcpAdd => simp [Steps, submitNext, pushed]
    | modifyRegistration => simp [Steps, submitNext, pushed]
  exact sound_iff.mp ((sound_step_iff (sound_iff.mpr table) step).mpr clones)

/-- The slots that are in use stay those of known descriptors. -/
theorem SlotsKnown.push (used : p.SlotsKnown)
    (pushed : p.pushTokenEntry policy op os = some (after, result)) : after.SlotsKnown := by
  -- Each effect writes at most one slot and records the descriptor it is for.
  intro key stored slot
  cases pushed_effect pushed with
  | refused known occupied failed ids slots =>
    rw [slots] at slot
    rw [ids]
    exact used key stored slot
  | leaked unknown failed ids slots =>
    rw [slots] at slot
    obtain ⟨fd, recorded, known⟩ := used key stored slot
    have other : fd ≠ op.rawFd := by
      rintro rfl
      simp [unknown] at known
    exact ⟨fd, recorded, by rw [ids, if_neg other, known]⟩
  | rewritten known occupied cloned ids slots =>
    rw [slots] at slot
    split at slot
    · rename_i same
      exact ⟨op.rawFd, _, by rw [ids, if_pos rfl, same]⟩
    · rename_i apart
      obtain ⟨fd, recorded, known'⟩ := used key stored slot
      have other : fd ≠ op.rawFd := by
        rintro rfl
        exact apart (Prod.mk.inj (Option.some.inj (known'.symm.trans known))).1
      exact ⟨fd, recorded, by rw [ids, if_neg other, known']⟩
  | added unknown cloned ids slots =>
    rw [slots] at slot
    split at slot
    · rename_i same
      exact ⟨op.rawFd, _, by rw [ids, if_pos rfl, same]⟩
    · obtain ⟨fd, recorded, known⟩ := used key stored slot
      have other : fd ≠ op.rawFd := by
        rintro rfl
        simp [unknown] at known
      exact ⟨fd, recorded, by rw [ids, if_neg other, known]⟩

/-- The listeners that the slab keeps are in view. -/
theorem SlotsKnown.holds_view (used : p.SlotsKnown) {file : FileId} :
    p.view.Holds file ↔ p.holdsFile file = true := by
  -- A slot in use is in view under the descriptor it is known for.
  rw [holdsFile_iff]
  constructor
  · rintro ⟨fd, entry, seen, listener⟩
    obtain ⟨known, -, found⟩ := Option.bind_eq_some_iff.mp seen
    obtain ⟨stored, slot, rfl⟩ := Option.map_eq_some_iff.mp found
    exact ⟨known.1, stored, slot, listener⟩
  · rintro ⟨key, stored, slot, listener⟩
    obtain ⟨fd, recorded, known⟩ := used key stored slot
    exact ⟨fd, _, entryOf_known known slot, listener⟩

/-- Closing descriptors does to the view of a poller what it does to a table. -/
theorem SlotsKnown.view_forgetClosed (used : p.SlotsKnown) (held : List FileId) :
    (p.forgetClosed held).view = p.view.forgetClosed held := by
  -- Closing leaves the tables alone, so only the sources are compared.
  show (⟨p.entryOf, _⟩ : DescriptorTable) = ⟨p.entryOf, _⟩
  -- The entries stay, and a source stays if a descriptor of its file is left.
  refine congrArg _ (funext fun fd => funext fun file => propext ?_)
  have left : p.hasOpen held file = true ↔ file ∈ held ∨ p.view.Holds file := by
    rw [hasOpen, Bool.or_eq_true, List.contains_iff_mem, used.holds_view, or_comm]
  rw [← left]
  constructor
  · rintro ⟨entry, there, rfl, rfl⟩
    obtain ⟨old, remains⟩ := List.mem_filter.mp there
    exact ⟨⟨entry, old, rfl, rfl⟩, remains⟩
  · rintro ⟨⟨entry, old, rfl, rfl⟩, remains⟩
    exact ⟨entry, List.mem_filter.mpr ⟨old, remains⟩, rfl, rfl⟩

/-- Before closed sources are forgotten, the kernel watches what it did and one source more. -/
theorem pushArm_watched {mid : Poller} (arm : p.pushArm policy op os = some (mid, result))
    (fd : RawFd) (file : FileId) :
    mid.view.watched fd file ↔ p.view.watched fd file ∨
      op.Watches ∧ op.Accepted os ∧ fd = op.rawFd ∧ file = op.file os := by
  -- The registry only grows before that, and what is new is known from the effect.
  have pushed : p.pushTokenEntry policy op os = some (mid.forgetClosed os.held, result) := by
    rw [pushTokenEntry, arm, Option.map_some]
  obtain ⟨new, registry, grown⟩ := pushArm_extends arm
  -- What is new in the registry is new in its history, and that is the accepted source.
  have member : ∀ entry : Registered, entry ∈ new ↔ op.Watches ∧ op.Accepted os ∧
      ∃ id recorded, mid.eventSrcIds op.rawFd = some (id, recorded) ∧
        entry = ⟨op.rawFd, op.file os, id, rwInterests⟩ := pushTokenEntry_new pushed grown
  constructor
  · rintro ⟨entry, there, rfl, rfl⟩
    rw [registry, List.mem_append, member] at there
    rcases there with old | ⟨watching, accepted, id, recorded, -, rfl⟩
    · exact .inl ⟨entry, old, rfl, rfl⟩
    · exact .inr ⟨watching, accepted, rfl, rfl⟩
  · rintro (⟨entry, old, rfl, rfl⟩ | ⟨watching, accepted, rfl, rfl⟩)
    · exact ⟨entry, by rw [registry]; exact List.mem_append_left _ old, rfl, rfl⟩
    · obtain ⟨id, recorded, known⟩ := accepted_known pushed watching accepted
      refine ⟨⟨op.rawFd, op.file os, id, rwInterests⟩, ?_, rfl, rfl⟩
      rw [registry, List.mem_append, member]
      exact .inr ⟨watching, accepted, id, recorded, known, rfl⟩

/-- The view afterwards is a table with the same entries that forgets what is closed. -/
theorem SlotsKnown.view_eq (used : p.SlotsKnown)
    (pushed : p.pushTokenEntry policy op os = some (after, result)) (table : DescriptorTable)
    (entries : after.entryOf = table.entries)
    (watched : ∀ fd file, table.watched fd file ↔ p.view.watched fd file ∨
      op.Watches ∧ op.Accepted os ∧ fd = op.rawFd ∧ file = op.file os) :
    after.view = table.forgetClosed os.held := by
  -- The operation itself comes first, and the kernel forgets what is closed afterwards.
  have used' : after.SlotsKnown := used.push pushed
  obtain ⟨mid, arm, rfl⟩ := pushed_arm pushed
  -- Forgetting closed sources leaves the entries and the slots as they are.
  have known : mid.SlotsKnown := used'
  have same : mid.view = table := by
    show (⟨mid.entryOf, mid.view.watched⟩ : DescriptorTable) = _
    rw [show mid.entryOf = table.entries from entries]
    refine congrArg _ (funext fun fd => funext fun file => propext ?_)
    rw [pushArm_watched arm, watched]
  rw [known.view_forgetClosed, same]

/-- Pushing an operation does to the view of a poller what it does to a table. -/
theorem TableInv.push_view (table : p.TableInv) (used : p.SlotsKnown)
    (clones : p.eventSrcIds op.rawFd = none → ¬ op.CloneFails os) :
    (p.pushTokenEntry policy op os).map (fun out => (out.1.view, out.2)) = p.view.push op os := by
  -- A panic is compared first, then a failed clone, then the answer of the kernel.
  cases pushed : p.pushTokenEntry policy op os with
  | none =>
    -- Only deletions panic while the tables agree.
    by_cases kept : ∀ fd, op ≠ .deleteRegistration fd
    · have safely : p.IndexesSafely policy := table.indexesSafely
      obtain ⟨after, result, returns, -⟩ := safely op os kept
      simp [pushed] at returns
    · obtain ⟨fd, rfl⟩ : ∃ fd, op = .deleteRegistration fd := by simpa using kept
      rfl
  | some out =>
    obtain ⟨after, result⟩ := out
    rw [DescriptorTable.push_eq (pushed_kept pushed), Option.map_some]
    have answer := pushTokenEntry_ok_iff pushed
    by_cases failed : op.CloneFails os
    · -- A listener that cannot be cloned is known, and then nothing is written.
      rw [if_pos failed]
      cases pushed_effect pushed with
      | refused known occupied failed ids slots =>
        have entries : after.entryOf = p.view.entries := by
          funext fd
          simp [entryOf, view, ids, slots]
        rw [used.view_eq pushed _ entries fun fd file => ?_]
        exact ⟨.inl, fun there => there.resolve_right fun new => new.2.1.1 failed⟩
      | leaked unknown failed => exact absurd failed (clones unknown)
      | rewritten known occupied cloned => exact absurd failed cloned
      | added unknown cloned => exact absurd failed cloned
    · have entries : after.entryOf = (p.view.write op).entries :=
        table.push_entries pushed failed
      rw [if_neg failed]
      -- The kernel is asked exactly by the operations that ask for events.
      by_cases watching : op.Watches
      · rw [if_neg (not_not_intro watching)]
        by_cases accepted : os.register = true
        · obtain rfl : result = .ok () := answer.mpr ⟨failed, fun _ => accepted⟩
          rw [if_pos accepted, used.view_eq pushed ((p.view.write op).watch ..) entries
            fun fd file => ?_]
          exact or_congr_right ⟨fun own => ⟨watching, ⟨failed, fun _ => accepted⟩, own⟩,
            fun new => new.2.2⟩
        · obtain rfl : result = .error .ioError :=
            pushTokenEntry_error pushed fun accepts => accepted (accepts.2 watching)
          rw [if_neg accepted, used.view_eq pushed _ entries fun fd file => ?_]
          exact ⟨.inl, fun there => there.resolve_right fun new => accepted (new.2.1.2 watching)⟩
      · obtain rfl : result = .ok () := pushTokenEntry_plain pushed watching
        rw [if_pos watching, used.view_eq pushed _ entries fun fd file => ?_]
        exact ⟨.inl, fun there => there.resolve_right fun new => watching new.1⟩

/-- An event of a watched descriptor is dispatched by what is in view of the descriptor. -/
theorem Mirrored.dispatch_view (mirrored : p.Mirrored) {fd token : Nat} {interest : Interest}
    (watched : p.watchedAs fd = some (token, interest)) (readiness : BitVec 8) :
    p.dispatch ⟨token, readiness⟩ = p.view.dispatch fd := by
  -- The kernel watches the descriptor under the token of its entry.
  obtain ⟨-, -, noted, known⟩ := mirrored.watchedAs_iff.mp watched
  unfold dispatch DescriptorTable.dispatch
  cases slot : p.tokens.get token with
  | none => simp [view, entryOf, known, slot]
  | some stored =>
    have seen : p.view.entries fd =
        some ⟨stored.notify, noted, decide stored.Watches, stored.listenerFile⟩ :=
      entryOf_known known slot
    rw [seen]
    cases stored with
    | registrationFdAdd fd interest notify => cases notify <;> rfl
    | registrationTcpAdd fd interest notify => cases notify <;> rfl
    | modifyRegistration => rfl
    | deleteRegistration => rfl

/-- A descriptor number is in view as watched exactly if the kernel watches a source of it. -/
theorem watched_view {fd : RawFd} : (∃ file, p.view.watched fd file) ↔ p.Watching fd := by
  -- The view keeps the number and the file of every source.
  constructor
  · rintro ⟨file, entry, there, source, -⟩
    exact ⟨entry, there, source⟩
  · rintro ⟨entry, there, source⟩
    exact ⟨entry.file, entry, there, source, rfl⟩

/-- The tables of a poller agree with each other and with the kernel, if there is a poller. -/
def Coherent (s : Option Poller) : Prop :=
  ∀ p, s = some p → p.TableInv ∧ p.SlotsKnown ∧ p.Mirrored

/-- A new poller is coherent. -/
theorem new_coherent : Coherent (some .new) := by
  -- All three parts are about entries, and there is none.
  rintro _ ⟨⟩
  refine ⟨fun fd id recorded known => by simp [new] at known, fun key stored slot => ?_,
    new_mirrored⟩
  simp [new, Slab.get, Slab.empty] at slot

/-- A new poller looks like an empty table. -/
theorem new_view : Poller.new.view = .empty := by
  -- There is no entry and no source.
  show (⟨fun _ => none, _⟩ : DescriptorTable) = ⟨fun _ => none, _⟩
  refine congrArg _ (funext fun fd => funext fun file => propext ?_)
  exact iff_of_false (by simp [new]) not_false

open scoped Classical in
/-- A poller does what its view does. -/
theorem Coherent.next_view {s : Option Poller} (coherent : Coherent s) (input : PollerInput) :
    (next policy s input).map (Option.map view) =
      DescriptorTable.next (s.map view) input := by
  -- For an operation the two guards say the same, and for an event the two sources do.
  cases s with
  | none => rfl
  | some p =>
    obtain ⟨table, used, mirrored⟩ := coherent p rfl
    cases input with
    | push op os =>
      show Option.map _ (if p.eventSrcIds op.rawFd = none ∧ op.CloneFails os then none
        else some ((p.pushTokenEntry policy op os).map Prod.fst)) =
          if p.entryOf op.rawFd = none ∧ op.CloneFails os then none
          else some ((p.view.push op os).map Prod.fst)
      simp only [table.entryOf_eq_none_iff]
      by_cases leaks : p.eventSrcIds op.rawFd = none ∧ op.CloneFails os
      · rw [if_pos leaks, if_pos leaks]
        rfl
      · have pushes : Option.map _ (p.pushTokenEntry policy op os) = p.view.push op os :=
          table.push_view used fun unknown failed => leaks ⟨unknown, failed⟩
        rw [if_neg leaks, if_neg leaks, ← pushes]
        simp [Option.map_map, Function.comp_def]
    | report fd readiness =>
      show Option.map _ (Option.map _ (p.watchedAs fd)) =
        if ∃ file, p.view.watched fd file then _ else none
      rw [if_congr watched_view rfl rfl]
      cases watched : p.watchedAs fd with
      | none =>
        rw [if_neg (watchedAs_eq_none_iff.mp watched)]
        rfl
      | some entry =>
        -- Both go on or both panic.
        obtain ⟨token, interest⟩ := entry
        rw [if_pos (mirrored.watchedAs_iff.mp watched).1]
        simp only [Option.map_some, mirrored.dispatch_view watched]
        split
        · rfl
        · rfl
    | close held => exact congrArg (some ∘ some) (used.view_forgetClosed held)

open scoped Classical in
/-- A poller lets see what its view lets see. -/
theorem Coherent.output_view {s : Option Poller} (coherent : Coherent s) (input : PollerInput)
    {t : Option Poller} (taken : next policy s input = some t) :
    output policy s input = DescriptorTable.output (s.map view) input := by
  -- The answers are compared as the steps are.
  cases s with
  | none => rfl
  | some p =>
    obtain ⟨table, used, mirrored⟩ := coherent p rfl
    cases input with
    | push op os =>
      have clones : p.eventSrcIds op.rawFd = none → ¬ op.CloneFails os := by
        intro unknown failed
        simp [next, unknown, failed] at taken
      have pushes : Option.map _ (p.pushTokenEntry policy op os) = p.view.push op os :=
        table.push_view used clones
      show Option.map _ _ = Option.map _ (p.view.push op os)
      rw [← pushes]
      simp [Option.map_map, Function.comp_def]
    | report fd readiness =>
      show Option.map _ (p.watchedAs fd) = if ∃ file, p.view.watched fd file then _ else none
      rw [if_congr watched_view rfl rfl]
      cases watched : p.watchedAs fd with
      | none =>
        rw [if_neg (watchedAs_eq_none_iff.mp watched)]
        rfl
      | some entry =>
        rw [if_pos (mirrored.watchedAs_iff.mp watched).1]
        simp only [Option.map_some, mirrored.dispatch_view watched]
    | close held => rfl

/-- Every step keeps the poller coherent. -/
theorem Coherent.step {s t : Option Poller} {input : PollerInput} (coherent : Coherent s)
    (step : Steps (next policy) s input t) : Coherent t := by
  -- Each input keeps the tables in agreement, the slots known and the registry mirrored.
  obtain ⟨p, rfl, taken⟩ := Option.bind_eq_some_iff.mp step
  obtain ⟨table, used, mirrored⟩ := coherent p rfl
  rintro after rfl
  cases input with
  | push op os =>
    simp only [Option.ite_none_left_eq_some, Option.some.injEq] at taken
    obtain ⟨clones, returned⟩ := taken
    obtain ⟨⟨_, result⟩, pushed, rfl⟩ := Option.map_eq_some_iff.mp returned
    exact ⟨table.pushed (fun unknown failed => clones ⟨unknown, failed⟩) pushed,
      used.push pushed, mirrored.push pushed⟩
  | report fd readiness =>
    obtain ⟨watched, -, went⟩ := Option.map_eq_some_iff.mp taken
    -- Dispatching an event changes nothing about the poller.
    simp only [Option.ite_none_left_eq_some, Option.some.injEq] at went
    obtain ⟨-, rfl⟩ := went
    exact ⟨table, used, mirrored⟩
  | close held =>
    -- The tables are left alone, and what is left of the registry was there before.
    obtain rfl := Option.some.inj (Option.some.inj taken)
    exact ⟨table, used, fun entry there => mirrored entry (List.mem_filter.mp there).1⟩

end Poller

/--
With any choice of tokens, a poller runs as a table without tokens does and lets see the same. Every
run of the one is a run of the other, also where the kernel forgets sources that are closed, be it
by their owner or because the slot of a listener is overwritten.
-/
theorem poller_refines_descriptors {policy : KeyPolicy} (inputs : List PollerInput) :
    (∀ s, Run (Steps (Poller.next policy)) (some .new) inputs s →
      Run (Steps DescriptorTable.next) (some .empty) inputs (s.map Poller.view) ∧
      observed (Poller.next policy) (Poller.output policy) (some .new) inputs =
        observed DescriptorTable.next DescriptorTable.output (some .empty) inputs) ∧
    (∀ t, Run (Steps DescriptorTable.next) (some .empty) inputs t →
      ∃ s, Run (Steps (Poller.next policy)) (some .new) inputs s ∧ s.map Poller.view = t) := by
  -- Both directions are simulations along the view, from the empty table on.
  constructor
  · intro s run
    -- The view is the table that a coherent poller stands for.
    have sim : ∀ s input t T, Poller.Coherent s ∧ s.map Poller.view = T →
        Poller.next policy s input = some t →
          Poller.output policy s input = DescriptorTable.output T (id input) ∧
          ∃ T', DescriptorTable.next T (id input) = some T' ∧
            (Poller.Coherent t ∧ t.map Poller.view = T') := by
      rintro s input t T ⟨coherent, rfl⟩ taken
      have viewed : (Poller.next policy s input).map _ = _ := coherent.next_view input
      rw [taken] at viewed
      exact ⟨coherent.output_view input taken, t.map Poller.view, viewed.symm,
        coherent.step taken, rfl⟩
    have start : (some Poller.new).map Poller.view = some .empty := congrArg some Poller.new_view
    obtain ⟨T, table, ⟨-, rfl⟩, same⟩ := run.observed_refines sim ⟨Poller.new_coherent, start⟩
    rw [List.map_id] at table same
    exact ⟨table, same⟩
  · intro T run
    have sim : ∀ T input T' s, Poller.Coherent s ∧ s.map Poller.view = T →
        Steps DescriptorTable.next T input T' →
          ∃ input' t, Steps (Poller.next policy) s input' t ∧
            (Poller.Coherent t ∧ t.map Poller.view = T') ∧ input = input' := by
      rintro T input T' s ⟨coherent, rfl⟩ taken
      have viewed : (Poller.next policy s input).map _ = _ := coherent.next_view input
      rw [show DescriptorTable.next (s.map Poller.view) input = some T' from taken] at viewed
      obtain ⟨t, step, same⟩ := Option.map_eq_some_iff.mp viewed
      exact ⟨input, t, step, ⟨coherent.step step, same⟩, rfl⟩
    have related : Poller.Coherent (some .new) ∧ (some Poller.new).map Poller.view = some .empty :=
      ⟨Poller.new_coherent, congrArg some Poller.new_view⟩
    -- The answering run takes the same inputs.
    obtain ⟨_, s, mirrored, ⟨-, same⟩, labels⟩ := run.simulate sim related
    rw [List.forall₂_eq_eq_eq] at labels
    subst labels
    exact ⟨s, mirrored, same⟩

end Imputio
