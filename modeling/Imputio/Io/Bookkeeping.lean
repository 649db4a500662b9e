import Imputio.Io.Table

/-! What the kernel watches, compared with what the operations on a descriptor asked for. -/

namespace Imputio

open Transition

/-- The interest that an operation is submitted with. -/
def Operation.interest : Operation → Option Interest
  | .registrationFdAdd _ interest _ => some interest
  | .registrationTcpAdd _ interest _ => some interest
  | .modifyRegistration _ interest _ => some interest
  | .deleteRegistration _ => none

namespace Poller

/-- A registry as a map from sources, which every registration extends. -/
def watchedIn (registry : List Registered) : RawFd → Option (Nat × Interest) :=
  registry.foldl
    (fun watched entry =>
      Function.update watched entry.source (some (entry.token, entry.interest)))
    fun _ => none

/-- What the kernel watches, as a map from sources. -/
def watchedAs (p : Poller) : RawFd → Option (Nat × Interest) := watchedIn p.registry

/-- The kernel watches a source of a descriptor number. -/
def Watching (p : Poller) (fd : RawFd) : Prop := ∃ entry ∈ p.registry, entry.source = fd

/--
The kernel watches a source of a descriptor number once an operation has returned.

The source was accepted now or is an old one, and there is a descriptor of its file left.
-/
def WatchesAfter (p : Poller) (op : Operation) (os : OsReply) (fd : RawFd) : Prop :=
  (op.Watches ∧ op.Accepted os ∧ op.rawFd = fd ∧ p.StaysOpen op os (op.file os)) ∨
    ∃ entry ∈ p.registry, entry.source = fd ∧ p.StaysOpen op os entry.file

instance (p : Poller) (op : Operation) (os : OsReply) (fd : RawFd) :
    Decidable (p.WatchesAfter op os fd) :=
  inferInstanceAs (Decidable (_ ∨ ∃ entry ∈ p.registry, _))

/-- The table sends the operation's descriptor to a slot that is vacant, where indexing panics. -/
def IndexesVacant (p : Poller) (op : Operation) : Prop :=
  ∃ entry ∈ p.eventSrcIds op.rawFd, p.tokens.get entry.1 = none

instance (p : Poller) (op : Operation) : Decidable (p.IndexesVacant op) :=
  inferInstanceAs (Decidable (∃ entry ∈ p.eventSrcIds op.rawFd, p.tokens.get entry.1 = none))

/-- The kernel watches every source under the token of its table entry, with one interest. -/
def Mirrored (p : Poller) : Prop :=
  ∀ entry ∈ p.registry, entry.interest = rwInterests ∧
    ∃ recorded, p.eventSrcIds entry.source = some (entry.token, recorded)

/-- What an operation that did not panic leaves in the table and in the kernel. -/
structure Recorded (p : Poller) (op : Operation) (os : OsReply) (after : Poller) : Prop where
  elsewhere : ∀ fd, fd ≠ op.rawFd → after.eventSrcIds fd = p.eventSrcIds fd
  kept : ∀ fd id recorded, p.eventSrcIds fd = some (id, recorded) →
    ∃ recorded', after.eventSrcIds fd = some (id, recorded')
  watching : ∀ fd, after.Watching fd ↔ p.WatchesAfter op os fd
  entries : ∀ entry ∈ after.registry, entry ∈ p.registry ∨ entry.interest = rwInterests ∧
    ∃ recorded, after.eventSrcIds entry.source = some (entry.token, recorded)

variable {policy : KeyPolicy} {p after : Poller} {op : Operation} {os : OsReply}
  {result : PollResult Unit}

/-- A new poller watches nothing. -/
theorem new_watchedAs (fd : RawFd) : Poller.new.watchedAs fd = none := rfl

/-- What is at the end of a registry counts for its source. -/
theorem watchedIn_concat (registry : List Registered) (entry : Registered) :
    watchedIn (registry ++ [entry]) =
      Function.update (watchedIn registry) entry.source (some (entry.token, entry.interest)) :=
  List.foldl_concat ..

/-- What a source is watched as is in the registry. -/
theorem watchedIn_mem {registry : List Registered} {fd token : Nat} {interest : Interest}
    (watched : watchedIn registry fd = some (token, interest)) :
    ∃ entry ∈ registry, entry.source = fd ∧ entry.token = token ∧ entry.interest = interest := by
  -- The last entry counts if it is about the source.
  induction registry using List.reverseRecOn with
  | nil => simp [watchedIn] at watched
  | append_singleton registry last ih =>
    rw [watchedIn_concat, Function.update_apply] at watched
    split at watched
    · rename_i same
      obtain ⟨rfl, rfl⟩ := Prod.mk.inj (Option.some.inj watched)
      exact ⟨last, List.mem_append_right _ (List.mem_singleton_self _), same.symm, rfl, rfl⟩
    · obtain ⟨entry, member, found⟩ := ih watched
      exact ⟨entry, List.mem_append_left _ member, found⟩

/-- A source that has an entry in the registry is in the map. -/
theorem watchedIn_ne_none {registry : List Registered} {entry : Registered}
    (member : entry ∈ registry) : watchedIn registry entry.source ≠ none := by
  -- By induction from the end of the registry, which is where the map looks first.
  induction registry using List.reverseRecOn with
  | nil => simp at member
  | append_singleton registry last ih =>
    rw [watchedIn_concat, Function.update_apply]
    split
    · simp
    · rename_i apart
      rcases List.mem_append.mp member with old | new
      · exact ih old
      · exact absurd (congrArg _ (List.mem_singleton.mp new)) apart

/-- Where the table mirrors the kernel, a watched source is watched as the table has it. -/
theorem Mirrored.watchedAs_iff (mirrored : p.Mirrored) {fd token : Nat} {interest : Interest} :
    p.watchedAs fd = some (token, interest) ↔
      p.Watching fd ∧ interest = rwInterests ∧
        ∃ recorded, p.eventSrcIds fd = some (token, recorded) := by
  -- The last entry of a source says what it is watched as, and all its entries say the same.
  have listed : ∀ {token : Nat} {interest : Interest}, p.watchedAs fd = some (token, interest) →
      p.Watching fd ∧ interest = rwInterests ∧
        ∃ recorded, p.eventSrcIds fd = some (token, recorded) := by
    intro token interest watched
    obtain ⟨entry, member, rfl, rfl, rfl⟩ := watchedIn_mem watched
    exact ⟨⟨entry, member, rfl⟩, mirrored entry member⟩
  refine ⟨listed, ?_⟩
  rintro ⟨⟨entry, member, rfl⟩, rfl, recorded, known⟩
  -- Whatever it is watched as, the table has the one token for it.
  obtain ⟨⟨token', interest'⟩, watched⟩ :=
    Option.ne_none_iff_exists'.mp (watchedIn_ne_none member)
  obtain ⟨-, rfl, recorded', known'⟩ := listed watched
  obtain ⟨rfl, -⟩ := Prod.mk.inj (Option.some.inj (known.symm.trans known'))
  exact watched

/-- A source that is not watched is not in the map. -/
theorem watchedAs_eq_none_iff {fd : RawFd} : p.watchedAs fd = none ↔ ¬ p.Watching fd := by
  -- The map is built from the registry, entry by entry.
  constructor
  · rintro unwatched ⟨entry, member, rfl⟩
    exact watchedIn_ne_none member unwatched
  · intro unwatched
    by_contra watched
    obtain ⟨⟨token, interest⟩, there⟩ := Option.ne_none_iff_exists'.mp watched
    obtain ⟨entry, member, source, -⟩ := watchedIn_mem there
    exact unwatched ⟨entry, member, source⟩

/-- An operation that asks for no events has the kernel accept nothing. -/
theorem pushTokenEntry_silent (pushed : p.pushTokenEntry policy op os = some (after, result))
    (silent : ¬ op.Watches) : after.accepted = p.accepted := by
  -- Of the operations considered, only a modification asks for nothing.
  obtain ⟨mid, arm, rfl⟩ := pushed_arm pushed
  cases op with
  | registrationFdAdd => exact absurd trivial silent
  | registrationTcpAdd => exact absurd trivial silent
  | deleteRegistration fd => simp [pushArm] at arm
  | modifyRegistration fd interest notify =>
    -- The slot is written, and then the recorded notifier is replaced or not.
    obtain ⟨⟨id, written⟩, slot, done⟩ := Option.map_eq_some_iff.mp arm
    rw [← (writeSlot_registry slot).2]
    cases notify with
    | none => exact (congrArg (fun outcome => outcome.1.accepted) done).symm
    | some notify => exact (congrArg (fun outcome => outcome.1.accepted) done).symm

/-- The kernel accepts the operation's own source, under the token that the table has for it. -/
theorem pushTokenEntry_accepted (pushed : p.pushTokenEntry policy op os = some (after, result)) :
    (after.accepted = p.accepted ∧ (op.Accepted os → ¬ op.Watches)) ∨
      ∃ id recorded, after.eventSrcIds op.rawFd = some (id, recorded) ∧ op.Watches ∧
        op.Accepted os ∧
        after.accepted = p.accepted ++ [⟨op.rawFd, op.file os, id, rwInterests⟩] := by
  -- Where nothing is asked nothing is accepted, and else the effects are gone through.
  have accepts := pushTokenEntry_ok_iff pushed
  by_cases watching : op.Watches
  · -- The answer of the kernel decides, whether the descriptor was known or not.
    have asked : ∀ {id : Nat} {recorded : Option ChannelId},
        after.eventSrcIds op.rawFd = some (id, recorded) →
        p.Asked op.rawFd (op.file os) id os after result →
          (after.accepted = p.accepted ∧ (op.Accepted os → ¬ op.Watches)) ∨
            ∃ id recorded, after.eventSrcIds op.rawFd = some (id, recorded) ∧ op.Watches ∧
              op.Accepted os ∧
              after.accepted = p.accepted ++ [⟨op.rawFd, op.file os, id, rwInterests⟩] := by
      rintro id recorded known (⟨-, ok, grown⟩ | ⟨-, error, same⟩)
      · exact .inr ⟨id, recorded, known, watching, accepts.mp ok, grown⟩
      · exact .inl ⟨same, fun accepted => by simp [accepts.mpr accepted] at error⟩
    cases pushed_effect pushed with
    | refused known occupied failed ids slots same =>
      exact .inl ⟨same, fun accepted => absurd failed accepted.1⟩
    | leaked unknown failed ids slots same =>
      exact .inl ⟨same, fun accepted => absurd failed accepted.1⟩
    | rewritten known occupied cloned ids slots subject notify watches =>
      exact asked (by rw [ids, if_pos rfl]) (watches watching).2
    | added unknown cloned ids slots subject notify watches =>
      exact asked (by rw [ids, if_pos rfl]) (watches watching).2
  · exact .inl ⟨pushTokenEntry_silent pushed watching, fun _ => watching⟩

/-- The entry that an operation writes is the only one that changes, and no token changes. -/
theorem pushTokenEntry_ids (pushed : p.pushTokenEntry policy op os = some (after, result)) :
    (∀ fd, fd ≠ op.rawFd → after.eventSrcIds fd = p.eventSrcIds fd) ∧
      ∀ fd id recorded, p.eventSrcIds fd = some (id, recorded) →
        ∃ recorded', after.eventSrcIds fd = some (id, recorded') := by
  -- Every effect leaves the map of descriptors alone or writes one entry of it.
  have wrote : ∀ {id : Nat} {noted : Option ChannelId},
      (∀ key recorded, p.eventSrcIds op.rawFd = some (key, recorded) → key = id) →
      (∀ fd, after.eventSrcIds fd =
        if fd = op.rawFd then some (id, noted) else p.eventSrcIds fd) →
      (∀ fd, fd ≠ op.rawFd → after.eventSrcIds fd = p.eventSrcIds fd) ∧
        ∀ fd key recorded, p.eventSrcIds fd = some (key, recorded) →
          ∃ recorded', after.eventSrcIds fd = some (key, recorded') := by
    intro id noted same ids
    refine ⟨fun fd apart => by rw [ids, if_neg apart], fun fd key recorded known => ?_⟩
    -- The entry that is written keeps its token, if there was one.
    rw [ids]
    split
    · rename_i own
      subst own
      obtain rfl : key = id := same _ _ known
      exact ⟨noted, rfl⟩
    · exact ⟨recorded, known⟩
  cases pushed_effect pushed with
  | refused known occupied failed ids =>
    rw [ids]
    exact ⟨fun _ _ => rfl, fun _ _ recorded known => ⟨recorded, known⟩⟩
  | leaked unknown failed ids => exact wrote (fun _ _ found => by simp [unknown] at found) ids
  | rewritten known occupied cloned ids =>
    exact wrote
      (fun _ _ found => (Prod.mk.inj (Option.some.inj (known.symm.trans found))).1.symm) ids
  | added unknown cloned ids => exact wrote (fun _ _ found => by simp [unknown] at found) ids

/-- A descriptor whose slot is in use is indexed safely. -/
theorem occupied_indexes {id : Nat} {recorded : Option ChannelId}
    (known : p.eventSrcIds op.rawFd = some (id, recorded)) (occupied : p.tokens.get id ≠ none) :
    ¬ p.IndexesVacant op := by
  -- The entry of a descriptor is the one that is known.
  rintro ⟨entry, found, vacant⟩
  obtain rfl := Option.some.inj (known.symm.trans found)
  exact occupied vacant

/-- A descriptor that is not in the table is not indexed at all. -/
theorem unknown_indexes (unknown : p.eventSrcIds op.rawFd = none) : ¬ p.IndexesVacant op := by
  rintro ⟨entry, found, -⟩
  simp [unknown] at found

/-- What the kernel accepts during an operation is the operation's own source. -/
theorem pushTokenEntry_new (pushed : p.pushTokenEntry policy op os = some (after, result))
    {new : List Registered} (grown : after.accepted = p.accepted ++ new) (entry : Registered) :
    entry ∈ new ↔ op.Watches ∧ op.Accepted os ∧ ∃ id recorded,
      after.eventSrcIds op.rawFd = some (id, recorded) ∧
        entry = ⟨op.rawFd, op.file os, id, rwInterests⟩ := by
  -- Nothing new was accepted, or one source was.
  rcases pushTokenEntry_accepted pushed with
    ⟨same, silent⟩ | ⟨id, recorded, known, watching, accepted, one⟩
  · obtain rfl : new = [] := List.append_right_eq_self.mp (grown.symm.trans same)
    refine iff_of_false List.not_mem_nil ?_
    rintro ⟨watching, accepted, -⟩
    exact silent accepted watching
  · obtain rfl := List.append_cancel_left (grown.symm.trans one)
    rw [List.mem_singleton]
    constructor
    · exact fun own => ⟨watching, accepted, id, recorded, known, own⟩
    · rintro ⟨-, -, id', recorded', known', own⟩
      obtain ⟨rfl, -⟩ := Prod.mk.inj (Option.some.inj (known.symm.trans known'))
      exact own

/-- What the kernel watches after an operation was watched before or is accepted now. -/
theorem pushTokenEntry_mem (pushed : p.pushTokenEntry policy op os = some (after, result))
    (entry : Registered) : entry ∈ after.registry ↔ p.StaysOpen op os entry.file ∧
      (entry ∈ p.registry ∨ op.Watches ∧ op.Accepted os ∧ ∃ id recorded,
        after.eventSrcIds op.rawFd = some (id, recorded) ∧
          entry = ⟨op.rawFd, op.file os, id, rwInterests⟩) := by
  -- The registry is what was there and what is new, without the closed sources.
  obtain ⟨new, grown, registry⟩ := pushTokenEntry_registry pushed
  rw [registry, List.mem_filter, List.mem_append, decide_eq_true_eq, and_comm,
    pushTokenEntry_new pushed grown]

/-- An operation that is accepted has an entry in the table. -/
theorem accepted_known (pushed : p.pushTokenEntry policy op os = some (after, result))
    (watching : op.Watches) (accepted : op.Accepted os) :
    ∃ id recorded, after.eventSrcIds op.rawFd = some (id, recorded) := by
  -- Nothing is accepted without an entry.
  rcases pushTokenEntry_accepted pushed with ⟨-, silent⟩ | ⟨id, recorded, known, -⟩
  · exact absurd watching (silent accepted)
  · exact ⟨id, recorded, known⟩

/-- Every operation that does not panic is recorded. -/
theorem pushTokenEntry_recorded
    (pushed : p.pushTokenEntry policy op os = some (after, result)) :
    p.Recorded op os after := by
  -- The first half is known of the map; the rest is read off what is registered afterwards.
  obtain ⟨elsewhere, kept⟩ := pushTokenEntry_ids pushed
  have member := pushTokenEntry_mem pushed
  refine ⟨elsewhere, kept, fun fd => ?_, fun entry there => ?_⟩
  · constructor
    · rintro ⟨entry, there, source⟩
      rcases (member entry).mp there with
        ⟨remains, old | ⟨watching, accepted, id, recorded, -, rfl⟩⟩
      · exact .inr ⟨entry, old, source, remains⟩
      · exact .inl ⟨watching, accepted, source, remains⟩
    · rintro (⟨watching, accepted, own, remains⟩ | ⟨entry, old, source, remains⟩)
      · obtain ⟨id, recorded, known⟩ := accepted_known pushed watching accepted
        exact ⟨_, (member ⟨op.rawFd, op.file os, id, rwInterests⟩).mpr
          ⟨remains, .inr ⟨watching, accepted, id, recorded, known, rfl⟩⟩, own⟩
      · exact ⟨entry, (member entry).mpr ⟨remains, .inl old⟩, source⟩
  · rcases ((member entry).mp there).2 with old | ⟨-, -, id, recorded, known, rfl⟩
    · exact .inl old
    · exact .inr ⟨rfl, recorded, known⟩

/-- The kernel and the table keep agreeing on tokens. -/
theorem Mirrored.push (mirrored : p.Mirrored)
    (pushed : p.pushTokenEntry policy op os = some (after, result)) : after.Mirrored := by
  -- What is registered was so before, or it is what the operation has recorded.
  have recorded := pushTokenEntry_recorded pushed
  intro entry there
  rcases recorded.entries entry there with old | new
  · -- The tokens of the other sources do not change.
    obtain ⟨same, noted, known⟩ := mirrored entry old
    exact ⟨same, recorded.kept _ _ _ known⟩
  · exact new

/-- An operation panics exactly when it indexes a vacant slot. -/
theorem pushTokenEntry_panics_iff (kept : ∀ fd, op ≠ .deleteRegistration fd) :
    p.pushTokenEntry policy op os = none ↔ p.IndexesVacant op := by
  -- Every effect but the first returns, and it writes a slot in use or a new one.
  have effect := p.pushTokenEntry_effect policy op os kept
  generalize p.pushTokenEntry policy op os = outcome at effect
  cases effect with
  | panicked known vacant => exact iff_of_true rfl ⟨_, known, vacant⟩
  | refused known occupied => exact iff_of_false (by simp) (occupied_indexes known occupied)
  | rewritten known occupied => exact iff_of_false (by simp) (occupied_indexes known occupied)
  | added unknown => exact iff_of_false (by simp) (unknown_indexes unknown)
  | leaked unknown => exact iff_of_false (by simp) (unknown_indexes unknown)

/-- Nothing is watched at first. -/
theorem new_mirrored : Poller.new.Mirrored := by
  intro entry member
  simp [new] at member

end Poller

/-- The poller of one thread, with the latest operation on each descriptor and what it returned. -/
structure PollerHistory where
  poller : Option Poller
  latest : RawFd → Option (Operation × PollResult Unit)

namespace PollerHistory

open Poller

/-- Nothing has been pushed yet. -/
def new : PollerHistory := ⟨some .new, fun _ => none⟩

/-- The poller thread pushes an operation; a panic leaves no poller. -/
def push (policy : KeyPolicy) (s : PollerHistory) (act : PollerAction) : Option PollerHistory :=
  match s.poller, act.op with
  | none, _ => some s
  -- Deletions are not among the operations considered here.
  | some _, .deleteRegistration _ => none
  | some p, op =>
    match p.pushTokenEntry policy op act.os with
    | none => some { s with poller := none }
    | some (after, result) =>
      some ⟨some after, Function.update s.latest op.rawFd (some (op, result))⟩

/-- The kernel watches a descriptor under its recorded token, with the interest asked for last. -/
def WatchedAsAsked (s : PollerHistory) (p : Poller) (fd : RawFd) : Prop :=
  ∀ op, s.latest fd = some (op, .ok ()) →
    ∃ token recorded interest, p.eventSrcIds fd = some (token, recorded) ∧
      op.interest = some interest ∧ p.watchedAs fd = some (token, interest)

/-- So it is for every descriptor whose latest operation returned `Ok`. -/
def RegistryAgrees (s : PollerHistory) : Prop :=
  ∀ p, s.poller = some p → ∀ fd, s.WatchedAsAsked p fd

/-- The poller keeps its table and the kernel's registry aligned. -/
def Aligned (s : PollerHistory) : Prop :=
  ∀ p, s.poller = some p → p.Mirrored

/-- The one interest that the kernel is ever asked for, on a source that it watches afterwards. -/
def AsksForAll (p : Poller) (op : Operation) (os : OsReply) : Prop :=
  op.interest = some rwInterests ∧ p.WatchesAfter op os op.rawFd

instance (p : Poller) (op : Operation) (os : OsReply) : Decidable (AsksForAll p op os) :=
  inferInstanceAs (Decidable (_ = _ ∧ _))

/-- No other source whose latest operation returned `Ok` has its last descriptor closed. -/
def SparesOthers (s : PollerHistory) (p : Poller) (op : Operation) (os : OsReply) : Prop :=
  ∀ entry ∈ p.registry, entry.source ≠ op.rawFd →
    (s.latest entry.source).map Prod.snd = some (.ok ()) → p.WatchesAfter op os entry.source

instance (s : PollerHistory) (p : Poller) (op : Operation) (os : OsReply) :
    Decidable (s.SparesOthers p op os) :=
  inferInstanceAs (Decidable (∀ entry ∈ p.registry, _ → _ → _))

/--
An operation asks for what the kernel is asked for, or it does not return `Ok`, and it closes no
source that others rely on.
-/
def AsksAsWatched (s : PollerHistory) (act : PollerAction) : Prop :=
  ∀ p ∈ s.poller, ¬ p.IndexesVacant act.op →
    (act.op.Accepted act.os → AsksForAll p act.op act.os) ∧ s.SparesOthers p act.op act.os

instance (s : PollerHistory) (act : PollerAction) : Decidable (s.AsksAsWatched act) :=
  inferInstanceAs (Decidable (∀ p ∈ s.poller, _ → _ ∧ _))

variable {policy : KeyPolicy} {s t : PollerHistory} {act : PollerAction}

/-- A step finds no poller, or it ends the poller, or it pushes its operation. -/
theorem push_cases (step : Steps (push policy) s act t) :
    (s.poller = none ∧ t = s) ∨
      ∃ p, s.poller = some p ∧ (∀ fd, act.op ≠ .deleteRegistration fd) ∧
        ((p.pushTokenEntry policy act.op act.os = none ∧ t.poller = none) ∨
          ∃ after result, p.pushTokenEntry policy act.op act.os = some (after, result) ∧
            t = ⟨some after, Function.update s.latest act.op.rawFd (some (act.op, result))⟩) := by
  -- Without a poller the step does nothing, and a deletion is not an operation of a step.
  obtain ⟨poller, latest⟩ := s
  obtain ⟨op, os⟩ := act
  cases poller with
  | none => exact .inl ⟨rfl, (Option.some.inj step).symm⟩
  | some p =>
    have kept : ∀ fd, op ≠ .deleteRegistration fd := by
      rintro fd rfl
      simp [Steps, push] at step
    -- Behind the two tests a step is one call.
    have taken : t = match p.pushTokenEntry policy op os with
        | none => ⟨none, latest⟩
        | some (after, result) =>
          ⟨some after, Function.update latest op.rawFd (some (op, result))⟩ := by
      cases op <;> simp only [Steps, push] at step <;> grind
    refine .inr ⟨p, rfl, kept, ?_⟩
    cases pushed : p.pushTokenEntry policy op os with
    | none => exact .inl ⟨rfl, by rw [taken, pushed]⟩
    | some outcome => exact .inr ⟨outcome.1, outcome.2, rfl, by rw [taken, pushed]⟩

/-- The poller's own thread sees the same steps. -/
theorem push_submits (step : Steps (push policy) s act t) :
    Steps (submitNext policy) s.poller act t.poller := by
  -- The thread ignores the result that the history keeps.
  obtain ⟨op, os⟩ := act
  rcases push_cases step with ⟨dead, rfl⟩ | ⟨p, alive, kept, pushed⟩
  · rw [dead]
    rfl
  · have next : submitNext policy (some p) ⟨op, os⟩ =
        some ((p.pushTokenEntry policy op os).map Prod.fst) := by
      cases op with
      | deleteRegistration fd => exact absurd rfl (kept fd)
      | _ => rfl
    rw [alive, Steps, next]
    rcases pushed with ⟨panics, gone⟩ | ⟨after, result, returned, rfl⟩
    · rw [panics, gone]
      rfl
    · rw [returned]
      rfl

/-- The latest results are history: they change nothing about the poller. -/
theorem run_submits {acts : List PollerAction} (run : Run (Steps (push policy)) s acts t) :
    Run (Steps (submitNext policy)) s.poller acts t.poller := by
  -- A map of the states carries every step.
  have carried : Run (Steps (submitNext policy)) s.poller (acts.map id) t.poller :=
    run.map fun _ _ _ step => push_submits step
  rwa [List.map_id] at carried

/-- The kernel's registry and the table are never out of step. -/
theorem Aligned.step (aligned : s.Aligned) (step : Steps (push policy) s act t) : t.Aligned := by
  -- A poller that is gone has nothing to keep in step.
  rcases push_cases step with ⟨-, rfl⟩ | ⟨p, alive, kept, ⟨-, gone⟩ | ⟨after, result, pushed, rfl⟩⟩
  · exact aligned
  · intro p alive'
    simp [gone] at alive'
  · intro p same
    obtain rfl := Option.some.inj same
    exact (aligned p alive).push pushed

/-- A descriptor is watched as asked exactly if it is watched and was asked for everything. -/
theorem watchedAsAsked_iff {p : Poller} (mirrored : p.Mirrored) {fd : RawFd} :
    s.WatchedAsAsked p fd ↔ ∀ op, s.latest fd = some (op, .ok ()) →
      op.interest = some rwInterests ∧ p.Watching fd := by
  -- The token that a source is watched under is the one of the table, so it need not be said.
  constructor
  · intro asked op latest
    obtain ⟨token, recorded, interest, -, asks, watched⟩ := asked op latest
    -- What the kernel watches, it watches with the one interest.
    obtain ⟨watching, rfl, -⟩ := mirrored.watchedAs_iff.mp watched
    exact ⟨asks, watching⟩
  · intro all op latest
    obtain ⟨asks, watching⟩ := all op latest
    obtain ⟨entry, member, rfl⟩ := watching
    obtain ⟨-, recorded, known⟩ := mirrored entry member
    exact ⟨_, recorded, _, known, asks,
      mirrored.watchedAs_iff.mpr ⟨⟨entry, member, rfl⟩, rfl, recorded, known⟩⟩

/-- The operation's own descriptor is watched as asked exactly if it asks for everything. -/
theorem watchedAsAsked_own {p after : Poller} {op : Operation} {os : OsReply}
    {result : PollResult Unit} (mirrored : p.Mirrored)
    (pushed : p.pushTokenEntry policy op os = some (after, result)) :
    WatchedAsAsked ⟨some after, Function.update s.latest op.rawFd (some (op, result))⟩ after
        op.rawFd ↔ (op.Accepted os → AsksForAll p op os) := by
  -- The latest operation of the descriptor is the one that is pushed.
  have recorded := pushTokenEntry_recorded pushed
  rw [watchedAsAsked_iff (mirrored.push pushed), ← pushTokenEntry_ok_iff pushed]
  simp only [Function.update_self, recorded.watching]
  constructor
  · exact fun all ok => all op (by rw [ok])
  · intro asks op' latest
    obtain ⟨rfl, ok⟩ := Prod.mk.inj (Option.some.inj latest)
    exact asks ok

/-- Another descriptor stays watched as asked exactly if the kernel does not forget it. -/
theorem watchedAsAsked_other {p after : Poller} {op : Operation} {os : OsReply}
    {result : PollResult Unit} {fd : RawFd} (mirrored : p.Mirrored)
    (pushed : p.pushTokenEntry policy op os = some (after, result)) (apart : fd ≠ op.rawFd)
    (asked : s.WatchedAsAsked p fd) :
    WatchedAsAsked ⟨some after, Function.update s.latest op.rawFd (some (op, result))⟩ after fd ↔
      ((s.latest fd).map Prod.snd = some (.ok ()) → p.WatchesAfter op os fd) := by
  -- The latest operation of another descriptor is the one it had before.
  have recorded := pushTokenEntry_recorded pushed
  rw [watchedAsAsked_iff mirrored] at asked
  rw [watchedAsAsked_iff (mirrored.push pushed)]
  simp only [Function.update_of_ne apart, recorded.watching]
  constructor
  · intro all ok
    obtain ⟨⟨op', _⟩, latest, rfl⟩ := Option.map_eq_some_iff.mp ok
    exact (all op' latest).2
  · exact fun stays op' latest => ⟨(asked op' latest).1, stays (by rw [latest]; rfl)⟩

/-- A step keeps the agreement exactly when its operation asks for what the kernel is asked for. -/
theorem registryAgrees_step_iff (aligned : s.Aligned) (agrees : s.RegistryAgrees)
    (step : Steps (push policy) s act t) : t.RegistryAgrees ↔ s.AsksAsWatched act := by
  -- The descriptor of the operation and the others are looked at apart from each other.
  rcases push_cases step with ⟨dead, rfl⟩ | ⟨p, alive, kept, ended | ⟨after, result, pushed, rfl⟩⟩
  · -- Without a poller there is nothing to agree with.
    refine iff_of_true agrees fun p alive => ?_
    simp [dead] at alive
  · -- A panic ends the history of the poller.
    obtain ⟨panics, gone⟩ := ended
    refine iff_of_true (fun p alive' => by simp [gone] at alive') fun p' alive' safe => ?_
    obtain rfl : p' = p := Option.some.inj (alive'.symm.trans alive)
    exact absurd ((pushTokenEntry_panics_iff kept).mp panics) safe
  · have mirrored := aligned p alive
    have safe : ¬ p.IndexesVacant act.op := by
      intro vacant
      simp [(pushTokenEntry_panics_iff kept).mpr vacant] at pushed
    have own := watchedAsAsked_own (s := s) mirrored pushed
    have other := fun fd (apart : fd ≠ act.op.rawFd) =>
      watchedAsAsked_other mirrored pushed apart (agrees p alive fd)
    have condition : s.AsksAsWatched act ↔ (act.op.Accepted act.os → AsksForAll p act.op act.os) ∧
        s.SparesOthers p act.op act.os := by
      simp only [AsksAsWatched, alive, Option.mem_some_iff, forall_eq', safe, not_false_eq_true,
        forall_const]
    rw [condition, ← own]
    constructor
    · intro holds
      exact ⟨holds after rfl act.op.rawFd, fun entry _ apart =>
        (other entry.source apart).mp (holds after rfl entry.source)⟩
    · rintro ⟨holds, spares⟩ p' same fd
      obtain rfl := Option.some.inj same
      by_cases self : fd = act.op.rawFd
      · rw [self]
        exact holds
      · -- A descriptor whose latest operation returned `Ok` was watched before.
        refine (other fd self).mpr fun ok => ?_
        obtain ⟨⟨op, _⟩, latest, rfl⟩ := Option.map_eq_some_iff.mp ok
        obtain ⟨entry, member, rfl⟩ :=
          ((watchedAsAsked_iff mirrored).mp (agrees p alive fd) op latest).2
        exact spares entry member self ok

/-- At first the kernel and the table agree that nothing is watched. -/
theorem new_aligned : new.Aligned := by
  -- The one poller at first is the new one.
  intro p same
  obtain rfl := Option.some.inj same
  exact new_mirrored

/-- No descriptor has a latest operation at first. -/
theorem new_registryAgrees : new.RegistryAgrees := by
  intro p _ fd op latest
  simp [new] at latest

end PollerHistory

open PollerHistory

/--
Throughout a history, the kernel watches every descriptor whose latest operation returned `Ok`
under its recorded token and with the requested interest exactly when all operations that return
`Ok` ask for the one interest that is ever registered, on a source that is watched from then on, and
no operation closes the last descriptor of another such source.
-/
theorem registry_interest_agrees {policy : KeyPolicy} {acts : List PollerAction}
    {s : PollerHistory} (run : Run (Steps (push policy)) .new acts s) :
    Throughout (Steps (push policy)) .new RegistryAgrees acts ↔
      Run (Guarded AsksAsWatched (Steps (push policy))) .new acts s :=
  -- Whether the registry agrees is decided step by step.
  run.throughout_iff_guarded steps_functional new_aligned
    (fun _ _ _ aligned step => aligned.step step) new_registryAgrees
    fun _ _ _ aligned agrees step => registryAgrees_step_iff aligned agrees step

/-- A listener whose owner cares about connections only. -/
def readableOnly : List PollerAction :=
  [⟨.registrationTcpAdd ⟨5, 5, 1⟩ .readable (some 0), ⟨some 6, true, 1, []⟩⟩]

/-- The kernel watches a listener for more than its owner has asked for. -/
theorem readable_registered_as_rw :
    ∃ s, Run (Steps (push .inOrder)) .new readableOnly s ∧
      s.latest 5 = some (.registrationTcpAdd ⟨5, 5, 1⟩ .readable (some 0), .ok ()) ∧
      (∃ p, s.poller = some p ∧ p.watchedAs 5 = some (0, rwInterests)) ∧
      ¬ Throughout (Steps (push .inOrder)) .new RegistryAgrees readableOnly := by
  -- The operation is accepted, but it does not ask for all interests.
  have replayed : (replay (push .inOrder) .new readableOnly).map (fun s =>
      decide (s.latest 5 = some (.registrationTcpAdd ⟨5, 5, 1⟩ .readable (some 0), .ok ()) ∧
        ∃ p ∈ s.poller, p.watchedAs 5 = some (0, rwInterests))) = some true := by
    decide
  obtain ⟨s, run, reached⟩ := Run.of_replay_test replayed
  obtain ⟨latest, p, alive, watched⟩ := of_decide_eq_true reached
  refine ⟨s, run, latest, ⟨p, alive, watched⟩, fun through => ?_⟩
  obtain ⟨token, recorded, interest, -, asks, watched'⟩ :=
    through readableOnly s List.prefix_rfl run p alive 5 _ latest
  obtain rfl : interest = .readable := (Option.some.inj asks).symm
  have same : (0, rwInterests) = (token, Interest.readable) :=
    Option.some.inj (watched.symm.trans watched')
  exact absurd (Prod.mk.inj same).2 (by decide)

/--
A listener and a raw descriptor ask for every interest, with a failure in between.

The process keeps a duplicate of the listener, so that its slot can be overwritten.
-/
def fullInterests : List PollerAction :=
  [⟨.registrationTcpAdd ⟨5, 5, 1⟩ rwInterests (some 0), ⟨some 6, true, 1, [1, 2]⟩⟩,
    ⟨.registrationFdAdd 7 .readable (some 1), ⟨none, false, 2, [1, 2]⟩⟩,
    ⟨.modifyRegistration 5 rwInterests (some 2), ⟨none, true, 1, [1, 2]⟩⟩,
    ⟨.registrationFdAdd 7 rwInterests none, ⟨none, true, 2, [1, 2]⟩⟩,
    ⟨.modifyRegistration 7 rwInterests none, ⟨none, true, 2, [1, 2]⟩⟩]

/-- The registry agrees with operations that ask for every interest or fail. -/
theorem registry_interest_agrees_full :
    ∃ s, Run (Steps (push .inOrder)) .new fullInterests s ∧
      Throughout (Steps (push .inOrder)) .new RegistryAgrees fullInterests := by
  -- Every step of the replay is tested against the condition.
  have replayed : (replay (checked AsksAsWatched (push .inOrder)) .new
      fullInterests).isSome = true := by
    decide
  obtain ⟨s, guarded⟩ := Run.of_checked replayed
  exact ⟨s, guarded.unguard, (registry_interest_agrees guarded.unguard).mpr guarded⟩

/-- Without a duplicate, modifying a listener closes it, and the kernel watches nothing. -/
example :
    (replay (push .inOrder) .new
      [⟨.registrationTcpAdd ⟨5, 5, 1⟩ rwInterests (some 0), ⟨some 6, true, 1, []⟩⟩,
        ⟨.modifyRegistration 5 rwInterests none, ⟨none, true, 1, []⟩⟩]).any (fun s =>
      (s.latest 5).map Prod.snd == some (.ok ()) && s.poller.any fun p => p.registry == []) =
    true := by
  decide

end Imputio
