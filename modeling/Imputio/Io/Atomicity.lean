import Imputio.Io.Table

/-! What a registration that fails leaves behind in the tables of its poller. -/

namespace Imputio

open Transition

/-- What a registration writes into the slot of a known descriptor, if it comes to writing. -/
def Operation.rewritten (op : Operation) (recorded : Option ChannelId) (os : OsReply) :
    Option Operation :=
  match op with
  | .registrationFdAdd fd interest _ => some (.registrationFdAdd fd interest recorded)
  | .registrationTcpAdd fd interest _ =>
    (fd.tryClone os).map fun clone => .registrationTcpAdd clone interest recorded
  | _ => none

namespace Poller

variable {policy : KeyPolicy} {p q : Poller} {op : Operation} {os : OsReply} {fd : RawFd}
  {interest : Interest} {notify : Option ChannelId}

/-- Both tables are those of another poller. -/
def SameTables (p other : Poller) : Prop :=
  p.eventSrcIds = other.eventSrcIds ∧ p.tokens = other.tokens

/-- If an attempt returns an error, it leaves both tables as they were. -/
def FailsAtomically (p : Poller) (attempt : Option (Poller × PollResult Unit)) : Prop :=
  ∀ after error, attempt = some (after, .error error) → after.SameTables p

/-- The condition, by what the first table has for the descriptor. -/
def EntryHarmless (p : Poller) (op : Operation) (os : OsReply) :
    Option (Nat × Option ChannelId) → Prop
  | none => ¬ op.CloneFails os ∧ os.register = true
  -- Where the slot of a known descriptor is vacant, the code panics and returns no error.
  | some (id, recorded) =>
    p.tokens.get id = none ∨ op.CloneFails os ∨ os.register = true ∨
      p.tokens.get id = op.rewritten recorded os

instance (p : Poller) (op : Operation) (os : OsReply) :
    (entry : Option (Nat × Option ChannelId)) → Decidable (p.EntryHarmless op os entry)
  | none => inferInstanceAs (Decidable (_ ∧ _))
  | some _ => inferInstanceAs (Decidable (_ ∨ _ ∨ _ ∨ _))

/-- A registration cannot fail, fails before anything is written, or writes what is there. -/
def RegistersHarmlessly (p : Poller) (op : Operation) (os : OsReply) : Prop :=
  p.EntryHarmless op os (p.eventSrcIds op.rawFd)

instance (p : Poller) (op : Operation) (os : OsReply) : Decidable (p.RegistersHarmlessly op os) :=
  inferInstanceAs (Decidable (p.EntryHarmless op os _))

/-- What does not return fails atomically. -/
theorem failsAtomically_none : p.FailsAtomically none := by
  intro after error returned
  simp at returned

/-- An attempt that gives up at once changes nothing. -/
theorem failsAtomically_unchanged {error : PollError} :
    p.FailsAtomically (some (p, .error error)) := by
  -- What is returned is what was there.
  intro after error returned
  obtain ⟨rfl, -⟩ := Prod.mk.inj (Option.some.inj returned)
  exact ⟨rfl, rfl⟩

/-- A step that is left with an error after a change is not atomic. -/
theorem failsAtomically_error_iff {error : PollError} :
    p.FailsAtomically (some (q, .error error)) ↔ q.SameTables p := by
  -- There is one error that can have been returned.
  constructor
  · intro atomic
    exact atomic q error rfl
  · intro same after error returned
    obtain ⟨rfl, -⟩ := Prod.mk.inj (Option.some.inj returned)
    exact same

/-- The kernel's answer decides whether what was written before it matters. -/
theorem failsAtomically_register_iff {source : RawFd} {file : FileId} {token : Nat} :
    p.FailsAtomically (some (q.register source file token os)) ↔
      os.register = true ∨ q.SameTables p := by
  -- A registration that the kernel accepts returns no error.
  unfold register
  cases os.register with
  | true =>
    simp only [if_true, true_or, iff_true]
    intro after error returned
    simp at returned
  | false => simpa using failsAtomically_error_iff

/-- What the kernel forgets afterwards is in neither table. -/
theorem failsAtomically_forget_iff {attempt : Option (Poller × PollResult Unit)} :
    p.FailsAtomically (attempt.map fun (after, result) => (after.forgetClosed os.held, result)) ↔
      p.FailsAtomically attempt := by
  -- The tables are the same before and after it, and so is what is returned.
  constructor
  · intro atomic after error returned
    exact atomic (after.forgetClosed os.held) error (by rw [returned]; rfl)
  · intro atomic after error returned
    obtain ⟨⟨mid, result⟩, arm, done⟩ := Option.map_eq_some_iff.mp returned
    obtain ⟨rfl, rfl⟩ := Prod.mk.inj done
    exact atomic mid error arm

/-- A new entry changes the first table. -/
theorem not_sameTables_of_entry {entry : Nat × Option ChannelId}
    (unknown : p.eventSrcIds fd = none)
    (added : q.eventSrcIds = Function.update p.eventSrcIds fd (some entry)) :
    ¬ q.SameTables p := by
  -- The entries of the new descriptor are compared.
  rintro ⟨same, -⟩
  rw [added] at same
  have found := congrFun same fd
  rw [Function.update_self, unknown] at found
  simp at found

/-- A raw descriptor is registered atomically exactly under the condition. -/
theorem registrationFdAdd_atomic_iff :
    p.FailsAtomically (p.registrationFdAdd policy fd interest notify os) ↔
      p.RegistersHarmlessly (.registrationFdAdd fd interest notify) os := by
  -- A new number, a vacant slot and an occupied one are the three ways it can go.
  unfold registrationFdAdd writeSlot RegistersHarmlessly EntryHarmless
  simp only [Operation.rawFd, Operation.rewritten, Operation.CloneFails]
  cases known : p.eventSrcIds fd with
  | none =>
    -- The new entry stays in the tables, whatever the kernel says.
    simp only [Option.map_some, not_false_eq_true, true_and]
    rw [failsAtomically_register_iff]
    exact or_iff_left (not_sameTables_of_entry known rfl)
  | some entry =>
    obtain ⟨id, recorded⟩ := entry
    simp only [false_or]
    cases written : p.tokens.set id (.registrationFdAdd fd interest recorded) with
    | none =>
      have vacant := Slab.set_eq_none_iff.mp written
      simp only [Option.map_none, vacant, true_or, iff_true]
      exact failsAtomically_none
    | some tokens =>
      have occupied : p.tokens.get id ≠ none := by
        intro vacant
        rw [Slab.set_eq_none_iff.mpr vacant] at written
        simp at written
      simp only [Option.map_some, occupied, false_or]
      rw [failsAtomically_register_iff, ← Slab.set_eq_self_iff written]
      -- Only the slot is written.
      exact or_congr_right ⟨fun same => same.2, fun same => ⟨rfl, same⟩⟩

/-- A listening socket is registered atomically exactly under the condition. -/
theorem registrationTcpAdd_atomic_iff {listener : StdTcpListener} :
    p.FailsAtomically (p.registrationTcpAdd policy listener interest notify os) ↔
      p.RegistersHarmlessly (.registrationTcpAdd listener interest notify) os := by
  -- The same three ways, in each of which the clone may fail as well.
  unfold registrationTcpAdd RegistersHarmlessly EntryHarmless
  simp only [Operation.rawFd, Operation.rewritten, Operation.CloneFails,
    StdTcpListener.tryClone]
  cases known : p.eventSrcIds listener.rawFd with
  | none =>
    -- The entry is made before the listener is cloned, and it stays.
    cases cloned : os.tryClone with
    | none =>
      simp only [Option.map_none, not_true_eq_false, false_and, iff_false]
      rw [failsAtomically_error_iff]
      exact not_sameTables_of_entry known rfl
    | some number =>
      simp only [Option.map_some, reduceCtorEq, not_false_eq_true, true_and]
      rw [failsAtomically_register_iff]
      exact or_iff_left (not_sameTables_of_entry known rfl)
  | some entry =>
    obtain ⟨id, recorded⟩ := entry
    by_cases vacant : p.tokens.get id = none
    · simp only [vacant, if_true, true_or, iff_true]
      exact failsAtomically_none
    · simp only [vacant, if_false, false_or]
      cases cloned : os.tryClone with
      | none =>
        simp only [Option.map_none, true_or, iff_true]
        exact failsAtomically_unchanged
      | some number =>
        simp only [Option.map_some, reduceCtorEq, false_or]
        cases written : p.tokens.set id
            (.registrationTcpAdd ⟨number, listener.rawFd, listener.file⟩ interest recorded) with
        | none => exact absurd (Slab.set_eq_none_iff.mp written) vacant
        | some tokens =>
          simp only [Option.map_some]
          rw [failsAtomically_register_iff, ← Slab.set_eq_self_iff written]
          exact or_congr_right ⟨fun same => same.2, fun same => ⟨rfl, same⟩⟩

/-- Either kind of registration is atomic exactly under the condition. -/
theorem pushTokenEntry_atomic_iff (watches : op.Watches) :
    p.FailsAtomically (p.pushTokenEntry policy op os) ↔ p.RegistersHarmlessly op os := by
  -- Forgetting is no part of it, and the operations that ask for no events are excluded.
  refine failsAtomically_forget_iff.trans ?_
  cases op with
  | registrationFdAdd fd interest notify => exact registrationFdAdd_atomic_iff
  | registrationTcpAdd fd interest notify => exact registrationTcpAdd_atomic_iff
  | modifyRegistration fd interest notify => exact watches.elim
  | deleteRegistration fd => exact watches.elim

end Poller

open Poller

/-- A registration that fails in a step leaves both tables as they were. -/
def RegistersAtomically (policy : KeyPolicy) :
    Option Poller → PollerAction → Option Poller → Prop
  | none, _, _ => True
  | some p, act, _ =>
    act.op.Watches → p.FailsAtomically (p.pushTokenEntry policy act.op act.os)

/-- A registration in a step meets the condition. -/
def RegistersCarefully : Option Poller → PollerAction → Prop
  | none, _ => True
  | some p, act => act.op.Watches → p.RegistersHarmlessly act.op act.os

instance : (s : Option Poller) → (act : PollerAction) → Decidable (RegistersCarefully s act)
  | none, _ => .isTrue trivial
  | some _, _ => inferInstanceAs (Decidable (_ → _))

/--
A failed registration is atomic exactly if it comes to nothing before a table is written, or if
the slot already holds what is written.

This is so for every registration in every reachable state, and a history has only atomic failures
exactly if each of its registrations meets the condition.
-/
theorem failed_registrations_atomic_iff {policy : KeyPolicy} {acts : List PollerAction}
    {s : Option Poller} (run : Run (Steps (submitNext policy)) (some .new) acts s) :
    (∀ p op os, s = some p → op.Watches →
      (p.FailsAtomically (p.pushTokenEntry policy op os) ↔ p.RegistersHarmlessly op os)) ∧
    (EveryStep (Steps (submitNext policy)) (some .new) (RegistersAtomically policy) acts ↔
      Run (Guarded RegistersCarefully (Steps (submitNext policy))) (some .new) acts s) := by
  -- The second part asks the first one of every step, and without a poller nothing is asked.
  refine ⟨fun p op os _ watches => pushTokenEntry_atomic_iff watches, ?_⟩
  refine run.everyStep_iff_guarded steps_functional fun s act t _ => ?_
  cases s with
  | none => exact Iff.rfl
  | some p => exact forall_congr' fun watches => pushTokenEntry_atomic_iff watches

/-- A raw descriptor is registered, with a notifier of its own. -/
def registeredOnce (fd : RawFd) (notify : ChannelId) : List PollerAction :=
  [⟨.registrationFdAdd fd .readable (some notify), ⟨none, true, 2, [2]⟩⟩]

/-- A second registration that the kernel rejects replaces the first one's interest and notifier. -/
theorem rejected_registration_overwrites :
    ∃ p after : Poller,
      Run (Steps (submitNext .inOrder)) (some .new) (registeredOnce 7 1) (some p) ∧
      p.pushTokenEntry .inOrder (.registrationFdAdd 7 .writable (some 1)) ⟨none, false, 2, [2]⟩ =
        some (after, .error .ioError) ∧
      p.tokens.get 0 = some (.registrationFdAdd 7 .readable (some 1)) ∧
      after.tokens.get 0 = some (.registrationFdAdd 7 .writable none) ∧
      ¬ p.FailsAtomically (p.pushTokenEntry .inOrder
        (.registrationFdAdd 7 .writable (some 1)) ⟨none, false, 2, [2]⟩) := by
  -- The state after the first registration and the one after the second are tested.
  have replayed : ((replay (submitNext .inOrder) (some .new) (registeredOnce 7 1)).any fun s =>
      s.any fun p => p.tokens.get 0 == some (.registrationFdAdd 7 .readable (some 1)) &&
        (p.pushTokenEntry .inOrder
          (.registrationFdAdd 7 .writable (some 1)) ⟨none, false, 2, [2]⟩).any fun pushed =>
            pushed.2 == .error .ioError &&
              pushed.1.tokens.get 0 == some (.registrationFdAdd 7 .writable none)) = true := by
    decide
  simp only [Option.any_eq_true, Bool.and_eq_true, beq_iff_eq] at replayed
  obtain ⟨s, reached, p, rfl, stored, ⟨after, result⟩, pushed, rfl, overwritten⟩ := replayed
  refine ⟨p, after, .of_replay reached, pushed, stored, overwritten, fun atomic => ?_⟩
  obtain ⟨-, same⟩ := atomic after .ioError pushed
  rw [same, stored] at overwritten
  exact absurd overwritten (by decide)

/-- Registrations that succeed, that cannot be cloned in time, or that repeat what is there. -/
def harmlessRegistrations : List PollerAction :=
  [⟨.registrationFdAdd 7 .readable none, ⟨none, true, 2, [2]⟩⟩,
    ⟨.registrationTcpAdd ⟨5, 5, 1⟩ .readable (some 0), ⟨some 6, true, 1, [2]⟩⟩,
    ⟨.registrationFdAdd 7 .readable (some 1), ⟨none, false, 2, [2]⟩⟩,
    ⟨.registrationTcpAdd ⟨5, 5, 1⟩ .writable none, ⟨none, true, 1, [2]⟩⟩]

/-- None of these failures leaves a trace. -/
theorem failed_registrations_atomic_iff_harmless :
    ∃ s, Run (Steps (submitNext .inOrder)) (some .new) harmlessRegistrations s ∧
      EveryStep (Steps (submitNext .inOrder)) (some .new) (RegistersAtomically .inOrder)
        harmlessRegistrations := by
  -- Every step of the replay is tested against the condition.
  have replayed : (replay (checked RegistersCarefully (submitNext .inOrder)) (some .new)
      harmlessRegistrations).isSome = true := by
    decide
  obtain ⟨s, guarded⟩ := Run.of_checked replayed
  exact ⟨s, guarded.unguard, (failed_registrations_atomic_iff guarded.unguard).2.mpr guarded⟩

end Imputio
