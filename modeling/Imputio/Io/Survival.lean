import Imputio.Io.Bookkeeping

/-! Which accepted operations leave the poller able to process the events it asked for. -/

namespace Imputio

open Transition

/-- Push an operation that is accepted, which means that it returns `Ok`. -/
def acceptNext (policy : KeyPolicy) (p : Poller) (act : PollerAction) : Option Poller :=
  match p.pushTokenEntry policy act.op act.os with
  | some (after, .ok ()) => some after
  | _ => none

namespace Poller

/-- A token that the kernel reports the events of some source with. -/
def WatchesUnder (p : Poller) (token : Nat) : Prop :=
  ∃ source interest, p.watchedAs source = some (token, interest)

/-- Every batch of events of registered sources is processed to its end. -/
def Survives (p : Poller) : Prop :=
  ∀ events : List Event, (∀ event ∈ events, p.WatchesUnder event.token) →
    (p.poll (.ok events)).result = some (.ok ())

/-- No slot that the token of a registered source points to holds what `poll` cannot handle. -/
def HandlesWatched (p : Poller) : Prop :=
  ∀ token, p.WatchesUnder token → ∀ op, p.tokens.get token = some op → op.Watches

/--
An operation that asks for no events concerns a descriptor number of which no source is registered,
or it closes the last descriptor of every such source.
-/
def SparesWatched (p : Poller) (act : PollerAction) : Prop :=
  ¬ act.op.Watches → ¬ p.WatchesAfter act.op act.os act.op.rawFd

instance (p : Poller) (act : PollerAction) : Decidable (p.SparesWatched act) :=
  inferInstanceAs (Decidable (¬ _ → ¬ _))

/-- The two tables agree with each other, and the kernel agrees with them. -/
structure Consistent (p : Poller) : Prop where
  table : p.TableInv
  mirrored : p.Mirrored

variable {policy : KeyPolicy} {p after : Poller} {op : Operation} {os : OsReply}
  {result : PollResult Unit} {act : PollerAction}

/-- The arms that panic are those of operations that ask for no events. -/
theorem dispatch_eq_unfinished_iff {event : Event} :
    p.dispatch event = .unfinished ↔
      ∃ op, p.tokens.get event.token = some op ∧ ¬ op.Watches := by
  -- One case for each arm of the match.
  unfold Poller.dispatch
  cases stored : p.tokens.get event.token with
  | none => simp
  | some op =>
    cases op with
    | registrationFdAdd fd interest notify => cases notify <;> simp [Operation.Watches]
    | registrationTcpAdd fd interest notify => cases notify <;> simp [Operation.Watches]
    | modifyRegistration => simp [Operation.Watches]
    | deleteRegistration => simp [Operation.Watches]

/-- A batch is processed to its end exactly when none of its events reaches such an arm. -/
theorem dispatchAll_ok_iff (events : List Event) :
    (p.dispatchAll events).result = some (.ok ()) ↔
      ∀ event ∈ events, p.dispatch event ≠ .unfinished := by
  -- The induction follows the loop, which goes on after every arm that returns.
  induction events with
  | nil => simp [dispatchAll]
  | cons event events ih =>
    rw [dispatchAll, List.forall_mem_cons, ← ih]
    cases p.dispatch event <;> simp

/-- Surviving every batch is a matter of what is in the slots. -/
theorem survives_iff : p.Survives ↔ p.HandlesWatched := by
  -- Survival is asked of all batches, and one event of a token is enough to look at its slot.
  constructor
  · -- One event with the token in question is a batch.
    intro survives token watched op stored
    by_contra unhandled
    have processed := survives [⟨token, 0⟩] (by simpa using watched)
    rw [poll, dispatchAll_ok_iff] at processed
    exact processed ⟨token, 0⟩ (List.mem_singleton_self _)
      (dispatch_eq_unfinished_iff.mpr ⟨op, stored, unhandled⟩)
  · intro handles events watched
    rw [poll, dispatchAll_ok_iff]
    intro event among unfinished
    obtain ⟨op, stored, unhandled⟩ := dispatch_eq_unfinished_iff.mp unfinished
    exact unhandled (handles _ (watched event among) op stored)

/-- Only operations that return `Ok` are accepted. -/
theorem acceptNext_iff :
    Steps (acceptNext policy) p act after ↔
      p.pushTokenEntry policy act.op act.os = some (after, .ok ()) := by
  -- An error and a panic are both rejections.
  unfold Steps acceptNext
  split
  · rename_i pushed
    simp [pushed]
  · rename_i rejected
    simp only [reduceCtorEq, false_iff]
    exact fun pushed => rejected after pushed

/-- Modifying a registration leaves the modification in the slot of the descriptor. -/
theorem modifyRegistration_stores {fd : RawFd} {interest : Interest} {notify : Option ChannelId}
    (pushed : p.pushTokenEntry policy (.modifyRegistration fd interest notify) os =
      some (after, result)) :
    ∃ id noted recorded, after.eventSrcIds fd = some (id, noted) ∧
      after.tokens.get id = some (.modifyRegistration fd interest recorded) := by
  -- The slot is written first, and a notifier that is given changes the record only.
  obtain ⟨mid, arm, rfl⟩ := pushed_arm pushed
  obtain ⟨⟨id, written⟩, slot, done⟩ := Option.map_eq_some_iff.mp arm
  -- The slot is the recorded one or a new one, and the entry of the descriptor points to it.
  have wrote : ∃ noted recorded, written.eventSrcIds fd = some (id, noted) ∧
      written.tokens.get id = some (.modifyRegistration fd interest recorded) := by
    rcases p.writeSlot_cases policy fd notify (.modifyRegistration fd interest) with
      ⟨_, _, -, -, panics⟩ | ⟨_, recorded, tokens, known, -, set, done⟩ | ⟨-, done⟩
    · simp [panics] at slot
    · rw [done] at slot
      obtain ⟨rfl, rfl⟩ := Prod.mk.inj (Option.some.inj slot)
      exact ⟨recorded, recorded, known, by rw [Slab.get_set set, if_pos rfl]⟩
    · rw [done] at slot
      obtain ⟨rfl, rfl⟩ := Prod.mk.inj (Option.some.inj slot)
      exact ⟨none, notify, Function.update_self .., by rw [Slab.get_insert, if_pos rfl]⟩
  obtain ⟨noted, recorded, known, stored⟩ := wrote
  cases notify with
  | none =>
    obtain rfl : written = mid := congrArg Prod.fst done
    exact ⟨id, noted, recorded, known, stored⟩
  | some notify =>
    obtain rfl := congrArg Prod.fst done
    exact ⟨id, some notify, recorded, Function.update_self .., stored⟩

/-- What is in the slot of a descriptor asks for events if the latest operation on it does. -/
theorem pushTokenEntry_stores (pushed : p.pushTokenEntry policy op os = some (after, .ok ())) :
    ∃ id noted stored, after.eventSrcIds op.rawFd = some (id, noted) ∧
      after.tokens.get id = some stored ∧ (stored.Watches ↔ op.Watches) := by
  -- For both kinds of registration the effect says it, and for the rest the arm does.
  by_cases watching : op.Watches
  · -- Both kinds of registrations store an operation of their own kind.
    cases pushed_effect pushed with
    | rewritten known occupied cloned ids slots subject notify watches =>
      exact ⟨_, _, _, by rw [ids, if_pos rfl], by rw [slots, if_pos rfl],
        iff_of_true (watches watching).1 watching⟩
    | added unknown cloned ids slots subject notify watches =>
      exact ⟨_, _, _, by rw [ids, if_pos rfl], by rw [slots, if_pos rfl],
        iff_of_true (watches watching).1 watching⟩
  · cases op with
    | registrationFdAdd => exact absurd trivial watching
    | registrationTcpAdd => exact absurd trivial watching
    | deleteRegistration fd => exact absurd rfl (pushed_kept pushed fd)
    | modifyRegistration fd interest notify =>
      obtain ⟨id, noted, recorded, known, stored⟩ := modifyRegistration_stores pushed
      exact ⟨id, noted, _, known, stored, Iff.rfl⟩

/-- Nothing is known to a new poller. -/
theorem new_consistent : Poller.new.Consistent where
  table fd id recorded known := by simp [Poller.new] at known
  mirrored := new_mirrored

/-- An accepted operation keeps the tables and the kernel consistent. -/
theorem Consistent.step (consistent : p.Consistent)
    (step : Steps (acceptNext policy) p act after) : after.Consistent := by
  -- What is accepted was cloned if it had to be.
  have pushed := acceptNext_iff.mp step
  obtain ⟨after', result, pushed', -, agree⟩ :=
    consistent.table.push policy act.os (pushed_kept pushed)
  obtain ⟨rfl, rfl⟩ := Prod.mk.inj (Option.some.inj (pushed.symm.trans pushed'))
  exact ⟨agree rfl, consistent.mirrored.push pushed⟩

/-- The slots of the other descriptors are left alone by an accepted operation. -/
theorem Consistent.slot_other (consistent : p.Consistent)
    (pushed : p.pushTokenEntry policy op os = some (after, result)) {fd : RawFd} {id : Nat}
    {recorded : Option ChannelId} (apart : fd ≠ op.rawFd)
    (known : p.eventSrcIds fd = some (id, recorded)) :
    after.tokens.get id = p.tokens.get id := by
  -- Direct indexing writes the slot of the own descriptor only.
  obtain ⟨after', result', pushed', slots⟩ :=
    consistent.table.indexesSafely op os (pushed_kept pushed)
  obtain ⟨rfl, rfl⟩ := Prod.mk.inj (Option.some.inj (pushed.symm.trans pushed'))
  exact slots fd id recorded apart known

/-- A token reports events exactly if it is that of a descriptor number with a source. -/
theorem Mirrored.watchesUnder_iff (mirrored : p.Mirrored) {token : Nat} :
    p.WatchesUnder token ↔ ∃ source recorded, p.Watching source ∧
      p.eventSrcIds source = some (token, recorded) := by
  -- What the kernel reports a source under is the token that the table has for it.
  constructor
  · rintro ⟨source, interest, watched⟩
    obtain ⟨watching, -, recorded, known⟩ := mirrored.watchedAs_iff.mp watched
    exact ⟨source, recorded, watching, known⟩
  · rintro ⟨source, recorded, watching, known⟩
    exact ⟨source, _, mirrored.watchedAs_iff.mpr ⟨watching, rfl, recorded, known⟩⟩

/-- A step keeps the slots of registered sources manageable exactly if it spares them. -/
theorem handlesWatched_step_iff (consistent : p.Consistent) (handles : p.HandlesWatched)
    (step : Steps (acceptNext policy) p act after) :
    after.HandlesWatched ↔ p.SparesWatched act := by
  -- The source of the operation has its slot written, and every other one keeps its slot.
  have pushed := acceptNext_iff.mp step
  have recorded := pushTokenEntry_recorded pushed
  have mirrored := (consistent.step step).mirrored
  obtain ⟨id, noted, stored, known, slot, watches_iff⟩ := pushTokenEntry_stores pushed
  constructor
  · -- A source that is still registered has a slot, and it holds the operation.
    intro handles' silent watched
    have watching := (recorded.watching _).mpr watched
    have under := mirrored.watchesUnder_iff.mpr ⟨_, noted, watching, known⟩
    exact silent (watches_iff.mp (handles' id under stored slot))
  · intro spares token under op found
    obtain ⟨source, noted', watching, known'⟩ := mirrored.watchesUnder_iff.mp under
    by_cases own : source = act.op.rawFd
    · subst own
      obtain ⟨rfl, -⟩ := Prod.mk.inj (Option.some.inj (known.symm.trans known'))
      obtain rfl := Option.some.inj (slot.symm.trans found)
      -- The source is registered now, so the operation has asked for its events.
      by_contra unhandled
      have silent : ¬ act.op.Watches := fun watching => unhandled (watches_iff.mpr watching)
      exact spares silent ((recorded.watching _).mp watching)
    · -- Another source was registered before, and its slot is as it was.
      have before : p.Watching source := by
        rcases (recorded.watching source).mp watching with ⟨-, -, same, -⟩ | ⟨entry, old, same, -⟩
        · exact absurd same.symm own
        · exact ⟨entry, old, same⟩
      have knew : p.eventSrcIds source = some (token, noted') :=
        (recorded.elsewhere source own).symm.trans known'
      rw [consistent.slot_other pushed own knew] at found
      exact handles token (consistent.mirrored.watchesUnder_iff.mpr ⟨_, _, before, knew⟩) op found

/-- A new poller has nothing to handle. -/
theorem new_handlesWatched : Poller.new.HandlesWatched := by
  rintro token ⟨source, interest, watched⟩
  simp [new_watchedAs] at watched

end Poller

open Poller

/--
Throughout a history of accepted operations the poller processes every batch of events of
registered sources exactly when no operation modifies a source that stays registered, and this is so
because exactly then no slot of a registered source holds an operation that cannot be handled.
-/
theorem dispatch_survives {policy : KeyPolicy} {acts : List PollerAction} {p : Poller}
    (run : Run (Steps (acceptNext policy)) .new acts p) :
    (Throughout (Steps (acceptNext policy)) .new Survives acts ↔
      Run (Guarded SparesWatched (Steps (acceptNext policy))) .new acts p) ∧
    (Throughout (Steps (acceptNext policy)) .new HandlesWatched acts ↔
      Run (Guarded SparesWatched (Steps (acceptNext policy))) .new acts p) := by
  -- Surviving is a matter of what the slots hold, and that is decided step by step.
  have handled := run.throughout_iff_guarded steps_functional new_consistent
    (fun _ _ _ consistent step => consistent.step step) new_handlesWatched
    fun _ _ _ consistent handles step => handlesWatched_step_iff consistent handles step
  have same : Survives = HandlesWatched := funext fun _ => propext survives_iff
  exact ⟨same ▸ handled, handled⟩

/-- A raw descriptor is registered, and then its interest is modified. -/
def modifiedWhileWatched : List PollerAction :=
  [⟨.registrationFdAdd 7 .readable (some 0), ⟨none, true, 2, [2]⟩⟩,
    ⟨.modifyRegistration 7 .writable (some 0), ⟨none, true, 2, [2]⟩⟩]

/-- After an accepted modification, the next event of the descriptor ends the poller thread. -/
theorem modified_source_panics :
    ∃ p, Run (Steps (acceptNext .inOrder)) .new modifiedWhileWatched p ∧ p.WatchesUnder 0 ∧
      (p.poll (.ok [⟨0, 1⟩])).result = none ∧
      ¬ Throughout (Steps (acceptNext .inOrder)) .new Survives modifiedWhileWatched := by
  -- The kernel still reports the events of the descriptor, and its slot holds the modification.
  have replayed : (replay (acceptNext .inOrder) .new modifiedWhileWatched).map (fun p =>
      decide (p.watchedAs 7 = some (0, rwInterests) ∧
        (p.poll (.ok [⟨0, 1⟩])).result = none)) = some true := by
    decide
  obtain ⟨p, run, reached⟩ := Run.of_replay_test replayed
  obtain ⟨watched, panics⟩ := of_decide_eq_true reached
  have under : p.WatchesUnder 0 := ⟨7, rwInterests, watched⟩
  refine ⟨p, run, under, panics, fun through => ?_⟩
  have survives := through modifiedWhileWatched p List.prefix_rfl run
  have processed := survives [⟨0, 1⟩] (by simpa using under)
  exact absurd (panics.symm.trans processed) (by simp)

/--
A raw descriptor is modified before it is registered, and a listener afterwards.

The process has no duplicate of the listener, which is closed when its slot is overwritten.
-/
def modifiedUnwatched : List PollerAction :=
  [⟨.modifyRegistration 7 .writable (some 1), ⟨none, true, 2, [2]⟩⟩,
    ⟨.registrationTcpAdd ⟨5, 5, 1⟩ .readable (some 0), ⟨some 6, true, 1, [2]⟩⟩,
    ⟨.modifyRegistration 7 .readable none, ⟨none, true, 2, [2]⟩⟩,
    ⟨.registrationFdAdd 7 .readable none, ⟨none, true, 2, [2]⟩⟩,
    ⟨.modifyRegistration 5 .writable none, ⟨none, true, 1, [2]⟩⟩]

/-- Modifications of sources that are not registered, or not any more, do no harm. -/
theorem dispatch_survives_modified :
    ∃ p, Run (Steps (acceptNext .inOrder)) .new modifiedUnwatched p ∧
      Throughout (Steps (acceptNext .inOrder)) .new Survives modifiedUnwatched := by
  -- Every step of the replay is tested against the condition.
  have replayed : (replay (checked SparesWatched (acceptNext .inOrder)) .new
      modifiedUnwatched).isSome = true := by
    decide
  obtain ⟨p, guarded⟩ := Run.of_checked replayed
  exact ⟨p, guarded.unguard, (dispatch_survives guarded.unguard).1.mpr guarded⟩

end Imputio
