import Imputio.Io.Poller

/-! The tables of a poller over every history of operations: one occupied slot per descriptor. -/

namespace Imputio

open Transition

/-- An operation that reaches the poller, with what the system answers while it is pushed. -/
structure PollerAction where
  op : Operation
  os : OsReply
  deriving DecidableEq, Repr

/-- The poller thread pushes an operation and ignores the result; a panic leaves no poller. -/
def submitNext (policy : KeyPolicy) (s : Option Poller) (act : PollerAction) :
    Option (Option Poller) :=
  match s, act.op with
  | none, _ => some none
  -- Deletions are not among the operations considered here: the code has no arm for them yet.
  | some _, .deleteRegistration _ => none
  | some p, op => some ((p.pushTokenEntry policy op act.os).map Prod.fst)

namespace Poller

/-- Every known descriptor has an occupied slot that holds an operation for that descriptor. -/
def TableInv (p : Poller) : Prop :=
  ∀ fd id recorded, p.eventSrcIds fd = some (id, recorded) →
    ∃ op, p.tokens.get id = some op ∧ op.subject = fd

/-- No two descriptors share a slot. -/
def IdsDistinct (p : Poller) : Prop :=
  ∀ fd other id recorded recorded', p.eventSrcIds fd = some (id, recorded) →
    p.eventSrcIds other = some (id, recorded') → fd = other

/-- Whatever operation comes next, it does not panic and writes no slot of another descriptor. -/
def IndexesSafely (policy : KeyPolicy) (p : Poller) : Prop :=
  ∀ op os, (∀ fd, op ≠ .deleteRegistration fd) →
    ∃ after result, p.pushTokenEntry policy op os = some (after, result) ∧
      ∀ fd id recorded, fd ≠ op.rawFd → p.eventSrcIds fd = some (id, recorded) →
        after.tokens.get id = p.tokens.get id

variable {policy : KeyPolicy} {p : Poller}

/-- The operation in a slot names the only descriptor that the slot can belong to. -/
theorem TableInv.distinct (table : p.TableInv) : p.IdsDistinct := by
  -- Both descriptors are the subject of the one operation in the slot.
  intro fd other id recorded recorded' known known'
  obtain ⟨op, stored, rfl⟩ := table fd id recorded known
  obtain ⟨op', stored', rfl⟩ := table other id recorded' known'
  obtain rfl : op = op' := Option.some.inj (stored.symm.trans stored')
  rfl

/-- The slot of a known descriptor is in use. -/
theorem TableInv.occupied {fd : RawFd} {id : Nat} {recorded : Option ChannelId}
    (table : p.TableInv) (known : p.eventSrcIds fd = some (id, recorded)) :
    p.tokens.get id ≠ none := by
  obtain ⟨op, stored, -⟩ := table fd id recorded known
  simp [stored]

/-- The slot of a known descriptor is not the one that the next descriptor is given. -/
theorem TableInv.not_vacant {fd : RawFd} {id : Nat} {recorded : Option ChannelId}
    (table : p.TableInv) (known : p.eventSrcIds fd = some (id, recorded)) :
    id ≠ p.tokens.vacantKey policy := by
  rintro rfl
  exact table.occupied known (Slab.get_vacantKey ..)

/-- Under the invariant the direct index is in use and belongs to the operation's descriptor. -/
theorem TableInv.indexesSafely (table : p.TableInv) : p.IndexesSafely policy := by
  -- Each kind of effect writes at most the slot of the operation's own descriptor.
  intro op os kept
  have effect := p.pushTokenEntry_effect policy op os kept
  generalize pushed : p.pushTokenEntry policy op os = outcome at effect
  cases effect with
  | panicked known vacant => exact absurd vacant (table.occupied known)
  | refused known occupied failed ids slots =>
    exact ⟨_, _, rfl, fun fd other recorded _ _ => by rw [slots]⟩
  | @rewritten id _ _ _ _ _ known occupied cloned ids slots =>
    refine ⟨_, _, rfl, fun fd other recorded apart known' => ?_⟩
    have elsewhere : other ≠ id := by
      rintro rfl
      exact apart (table.distinct _ _ _ _ _ known' known)
    rw [slots, if_neg elsewhere]
  | added unknown cloned ids slots =>
    refine ⟨_, _, rfl, fun fd other recorded apart known => ?_⟩
    rw [slots, if_neg (table.not_vacant known)]
  | leaked unknown failed ids slots =>
    exact ⟨_, _, rfl, fun fd other recorded _ _ => by rw [slots]⟩

end Poller

open Poller

/-- The poller is alive, its tables agree, and direct indexing is safe whatever comes next. -/
def Sound (policy : KeyPolicy) (s : Option Poller) : Prop :=
  ∃ p, s = some p ∧ p.TableInv ∧ p.IdsDistinct ∧ p.IndexesSafely policy

/-- A listener with a number that is not in the table can be cloned. -/
def ClonesUnknown : Option Poller → PollerAction → Prop
  | none, _ => True
  | some p, act => p.eventSrcIds act.op.rawFd = none → ¬ act.op.CloneFails act.os

instance (s : Option Poller) (act : PollerAction) : Decidable (ClonesUnknown s act) := by
  cases s <;> unfold ClonesUnknown <;> infer_instance

variable {policy : KeyPolicy} {s t : Option Poller} {act : PollerAction}

/-- The agreement of the tables is all there is to soundness. -/
theorem sound_iff {p : Poller} : Sound policy (some p) ↔ p.TableInv := by
  -- The other parts of soundness follow from the agreement.
  constructor
  · rintro ⟨_, same, table, -⟩
    obtain rfl := Option.some.inj same
    exact table
  · intro table
    exact ⟨p, rfl, table, table.distinct, table.indexesSafely⟩

/-- A step keeps the tables sound exactly when it clones what it has to clone. -/
theorem sound_step_iff (sound : Sound policy s) (step : Steps (submitNext policy) s act t) :
    Sound policy t ↔ ClonesUnknown s act := by
  -- The agreement breaks in one kind of effect only, where the condition fails.
  obtain ⟨p, rfl, table, distinct, safely⟩ := sound
  obtain ⟨op, os⟩ := act
  have kept : ∀ fd, op ≠ .deleteRegistration fd := by
    rintro fd rfl
    simp [Steps, submitNext] at step
  have pushed : t = (p.pushTokenEntry policy op os).map Prod.fst := by
    cases op <;> simp_all [Steps, submitNext]
  rw [pushed]
  show _ ↔ (p.eventSrcIds op.rawFd = none → ¬ op.CloneFails os)
  have effect := p.pushTokenEntry_effect policy op os kept
  generalize p.pushTokenEntry policy op os = outcome at effect
  cases effect with
  | panicked known vacant => exact absurd vacant (table.occupied known)
  | refused known occupied failed ids slots =>
    simp only [Option.map_some, sound_iff, known, reduceCtorEq, false_implies, iff_true]
    unfold TableInv
    rw [ids, slots]
    exact table
  | @rewritten id recorded noted after result stored known occupied cloned ids slots subject =>
    simp only [Option.map_some, sound_iff, known, reduceCtorEq, false_implies, iff_true]
    intro fd key recorded' known'
    rw [ids] at known'
    split at known'
    · rename_i same
      obtain ⟨rfl, -⟩ := Prod.mk.inj (Option.some.inj known')
      exact ⟨stored, by rw [slots, if_pos rfl], subject.trans same.symm⟩
    · rename_i apart
      have elsewhere : key ≠ id := by
        rintro rfl
        exact apart (distinct _ _ _ _ _ known' known)
      rw [slots, if_neg elsewhere]
      exact table fd key recorded' known'
  | @added noted after result stored unknown cloned ids slots subject =>
    simp only [Option.map_some, sound_iff, unknown, cloned, not_false_eq_true, imp_true_iff,
      iff_true]
    intro fd key recorded known
    rw [ids] at known
    split at known
    · rename_i same
      obtain ⟨rfl, -⟩ := Prod.mk.inj (Option.some.inj known)
      exact ⟨stored, by rw [slots, if_pos rfl], subject.trans same.symm⟩
    · rw [slots, if_neg (table.not_vacant known)]
      exact table fd key recorded known
  | @leaked noted after unknown failed ids slots =>
    -- The new entry points to a slot that nothing was stored in.
    simp only [Option.map_some, sound_iff, unknown, failed, not_true_eq_false, imp_false]
    constructor
    · intro broken
      have entry : after.eventSrcIds op.rawFd = some (p.tokens.vacantKey policy, noted) := by
        rw [ids, if_pos rfl]
      obtain ⟨stored, occupied, -⟩ := broken _ _ _ entry
      rw [slots] at occupied
      simp at occupied
    · exact fun impossible => impossible.elim

/-- With tables that agree, an operation succeeds exactly if the system does what it needs. -/
theorem Poller.TableInv.push {p : Poller} {op : Operation} (table : p.TableInv)
    (policy : KeyPolicy) (os : OsReply) (kept : ∀ fd, op ≠ .deleteRegistration fd) :
    ∃ after result, p.pushTokenEntry policy op os = some (after, result) ∧
      (result = .ok () ↔ op.Accepted os) ∧ (result = .ok () → after.TableInv) := by
  -- Indexing is safe, so the operation returns.
  obtain ⟨after, result, pushed, -⟩ := table.indexesSafely op os kept
  have succeeds := pushTokenEntry_ok_iff pushed
  refine ⟨after, result, pushed, succeeds, fun ok => ?_⟩
  -- The tables still agree, because nothing that is cloned fails.
  have step : Steps (submitNext policy) (some p) ⟨op, os⟩ (some after) := by
    cases op with
    | deleteRegistration fd => exact absurd rfl (kept fd)
    | _ => exact congrArg (fun outcome => some (outcome.map Prod.fst)) pushed
  exact sound_iff.mp ((sound_step_iff (sound_iff.mpr table) step).mpr fun _ =>
    (succeeds.mp ok).1)

/--
The tables stay sound throughout a history exactly when no listener with an unknown number fails
to be cloned in it.
-/
theorem poller_tables_sound {acts : List PollerAction} {s : Option Poller}
    (run : Run (Steps (submitNext policy)) (some .new) acts s) :
    Throughout (Steps (submitNext policy)) (some .new) (Sound policy) acts ↔
      Run (Guarded ClonesUnknown (Steps (submitNext policy))) (some .new) acts s := by
  -- Nothing is known to a new poller, so its tables agree.
  have init : Sound policy (some .new) := by
    rw [sound_iff]
    intro fd id recorded known
    simp [Poller.new] at known
  exact run.throughout_iff_guarded steps_functional trivial (fun _ _ _ _ _ => trivial) init
    fun _ _ _ _ sound step => sound_step_iff sound step

/-- A listener that could not be cloned is registered again. -/
def retriedListener : List PollerAction :=
  [⟨.registrationTcpAdd ⟨5, 5, 1⟩ .readable none, ⟨none, true, 1, [1]⟩⟩,
    ⟨.registrationTcpAdd ⟨5, 5, 1⟩ .readable none, ⟨some 6, true, 1, [1]⟩⟩]

/-- After one failed clone the tables disagree, and the next try ends the poller thread. -/
theorem failed_clone_panics :
    ∃ s, Run (Steps (submitNext .inOrder)) (some .new) retriedListener s ∧ s = none ∧
      ¬ Throughout (Steps (submitNext .inOrder)) (some .new) (Sound .inOrder) retriedListener := by
  -- The second operation indexes the slot that the first one has left vacant.
  have replayed : (replay (submitNext .inOrder) (some .new) retriedListener).map
      (fun s => s.isNone) = some true := by
    decide
  obtain ⟨s, run, dead⟩ := Run.of_replay_test replayed
  obtain rfl : s = none := Option.isNone_iff_eq_none.mp dead
  refine ⟨none, run, rfl, fun through => ?_⟩
  obtain ⟨p, alive, -⟩ := through retriedListener none List.prefix_rfl run
  simp at alive

/-- A listener and a raw descriptor that are registered twice each, with one failed clone. -/
def repeatedRegistrations : List PollerAction :=
  [⟨.registrationTcpAdd ⟨5, 5, 1⟩ .readable (some 0), ⟨some 6, true, 1, [1, 2]⟩⟩,
    ⟨.registrationFdAdd 7 .readable (some 1), ⟨none, true, 2, [1, 2]⟩⟩,
    ⟨.registrationTcpAdd ⟨5, 5, 1⟩ .writable none, ⟨none, true, 1, [2]⟩⟩,
    ⟨.modifyRegistration 7 .writable (some 2), ⟨none, true, 2, [2]⟩⟩,
    ⟨.registrationFdAdd 7 .readable none, ⟨none, false, 2, [2]⟩⟩]

/-- The tables stay sound through failures that concern known descriptors only. -/
theorem poller_tables_sound_repeated :
    ∃ s, Run (Steps (submitNext .inOrder)) (some .new) repeatedRegistrations s ∧
      Throughout (Steps (submitNext .inOrder)) (some .new) (Sound .inOrder)
        repeatedRegistrations := by
  -- Every step of the replay is tested against the condition.
  have replayed : (replay (checked ClonesUnknown (submitNext .inOrder)) (some .new)
      repeatedRegistrations).isSome = true := by
    decide
  obtain ⟨s, guarded⟩ := Run.of_checked replayed
  exact ⟨s, guarded.unguard, (poller_tables_sound guarded.unguard).mpr guarded⟩

end Imputio
