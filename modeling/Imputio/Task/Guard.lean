import Mathlib.Data.List.Basic

/-! The guard against blocking twice: a flag of the thread that is set and cleared by hand. -/

namespace Imputio

/-- What code on one thread does, as far as the guard is concerned. -/
inductive Code where
  | finish
  | panic
  -- A call of `spawn_blocking`, and what comes after it if it returns.
  | spawnBlocking (future next : Code)
  -- A call of `catch_unwind`, and what comes after it in either case.
  | catchUnwind (body returned caught : Code)
  deriving DecidableEq, Repr

/-- How a piece of code ends. -/
inductive Ending where
  | returned
  | unwound
  deriving DecidableEq, Repr

/-- What became of one call of `spawn_blocking`. -/
structure BlockingCall where
  -- How many other calls were active on the stack of the thread.
  active : Nat
  -- The call has panicked because it would block twice.
  refused : Bool
  -- The flag before the call, and after it has returned or unwound.
  before : Bool
  after : Bool
  deriving DecidableEq, Repr

/-- How a piece of code has ended, the flag that it leaves, and the calls that it has made. -/
structure Executed where
  ending : Ending
  flag : Bool
  calls : List BlockingCall
  deriving DecidableEq, Repr

/-- What was executed comes after some calls. -/
def Executed.after (rest : Executed) (calls : List BlockingCall) : Executed :=
  { rest with calls := calls ++ rest.calls }

/-- `imputio_spawn_blocking`: run a future behind the guard, among other active calls. -/
def imputioSpawnBlocking (future : Bool → Executed) (active : Nat) (flag : Bool) : Executed :=
  -- The swap sets the flag, and it yields what the flag was.
  if !flag then
    let res := future true
    match res.ending with
    | .returned => ⟨.returned, false, ⟨active, false, flag, false⟩ :: res.calls⟩
    -- Unwinding passes over the line that clears the flag.
    | .unwound => ⟨.unwound, res.flag, ⟨active, false, flag, res.flag⟩ :: res.calls⟩
  else ⟨.unwound, true, [⟨active, true, flag, true⟩]⟩

namespace Code

/-- Execute code with a number of calls active on the stack. -/
def execute : Code → Nat → Bool → Executed
  | .finish, _, flag => ⟨.returned, flag, []⟩
  | .panic, _, flag => ⟨.unwound, flag, []⟩
  | .spawnBlocking future next, active, flag =>
    let call := imputioSpawnBlocking (future.execute (active + 1)) active flag
    match call.ending with
    | .returned => (next.execute active call.flag).after call.calls
    | .unwound => call
  | .catchUnwind body returned caught, active, flag =>
    let inner := body.execute active flag
    match inner.ending with
    | .returned => (returned.execute active inner.flag).after inner.calls
    | .unwound => (caught.execute active inner.flag).after inner.calls

/-- Code inside a future ends in a panic: any further call is refused there. -/
def panicsInside : Code → Bool
  | .finish => false
  | .panic => true
  | .spawnBlocking _ _ => true
  | .catchUnwind body returned caught =>
    if body.panicsInside then caught.panicsInside else returned.panicsInside

/-- Code outside of all futures ends in a panic, its own or one of a future that it calls. -/
def panicsOutside : Code → Bool
  | .finish => false
  | .panic => true
  | .spawnBlocking future next => future.panicsInside || next.panicsOutside
  | .catchUnwind body returned caught =>
    if body.panicsOutside then caught.panicsOutside else returned.panicsOutside

/-- No call outside of all futures is left by a panic of its future. -/
def Contained : Code → Prop
  | .finish => True
  | .panic => True
  | .spawnBlocking future next => future.panicsInside = false ∧ next.Contained
  | .catchUnwind body returned caught => body.Contained ∧
      if body.panicsOutside then caught.Contained else returned.Contained

end Code

/-- The guard refuses a call exactly if another one is active, and the flag is as it was before. -/
def BlockingCall.Exact (call : BlockingCall) : Prop :=
  (call.refused = true ↔ 0 < call.active) ∧ call.after = call.before

instance (call : BlockingCall) : Decidable call.Exact := inferInstanceAs (Decidable (_ ∧ _))

/-- How code ends, by whether it ends in a panic. -/
def Ending.ofPanic (panics : Bool) : Ending := if panics then .unwound else .returned

namespace Executed

/-- Code has ended in a panic or not, it has left the flag, and the guard was exact in it. -/
structure Calm (panics flag : Bool) (executed : Executed) : Prop where
  ending : executed.ending = .ofPanic panics
  flag : executed.flag = flag
  exact : ∀ call ∈ executed.calls, call.Exact

variable {panics flag : Bool} {executed : Executed}

/-- Calls that went well before do no harm. -/
theorem Calm.after {calls : List BlockingCall} (calm : executed.Calm panics flag)
    (earlier : ∀ call ∈ calls, call.Exact) : (executed.after calls).Calm panics flag := by
  -- The calls are those of before and those that were executed here.
  refine ⟨calm.ending, calm.flag, fun call member => ?_⟩
  rcases List.mem_append.mp member with first | second
  · exact earlier call first
  · exact calm.exact call second

end Executed

namespace Code

/-- Inside a future the flag is set and stays so, and the guard is exact. -/
theorem execute_inside (code : Code) (active : Nat) :
    (code.execute (active + 1) true).Calm code.panicsInside true := by
  -- The induction follows the code, in which every call finds the flag set and is refused.
  induction code with
  | finish => exact ⟨rfl, rfl, by simp [execute]⟩
  | panic => exact ⟨rfl, rfl, by simp [execute]⟩
  | spawnBlocking future next =>
    -- The guard refuses the call, which has no other effect.
    refine ⟨rfl, rfl, fun call member => ?_⟩
    obtain rfl : call = ⟨active + 1, true, true, true⟩ := by
      simpa [execute, imputioSpawnBlocking] using member
    exact ⟨iff_of_true rfl (Nat.succ_pos _), rfl⟩
  | catchUnwind body returned caught ihBody ihReturned ihCaught =>
    -- A panic of the body is caught, and the flag is still set for what comes next.
    rw [execute, panicsInside]
    simp only [ihBody.ending, ihBody.flag]
    cases body.panicsInside with
    | true => exact ihCaught.after ihBody.exact
    | false => exact ihReturned.after ihBody.exact

/-- Outside of all futures, code that contains its panics ends with the flag as it was. -/
theorem execute_outside {code : Code} (contained : code.Contained) :
    (code.execute 0 false).Calm code.panicsOutside false := by
  -- The induction follows the code; what is contained is said of each part of it.
  induction code with
  | finish => exact ⟨rfl, rfl, by simp [execute]⟩
  | panic => exact ⟨rfl, rfl, by simp [execute]⟩
  | spawnBlocking future next _ ihNext =>
    obtain ⟨quiet, contained⟩ := contained
    have inner := execute_inside future 0
    rw [execute, panicsOutside, imputioSpawnBlocking]
    simp only [Bool.not_false, if_true, inner.ending, quiet, Ending.ofPanic, Bool.false_or]
    -- The future returns, so the flag is cleared again.
    refine (ihNext contained).after fun call member => ?_
    rcases List.mem_cons.mp member with rfl | nested
    · exact ⟨iff_of_false Bool.false_ne_true (Nat.lt_irrefl 0), rfl⟩
    · exact inner.exact call nested
  | catchUnwind body returned caught ihBody ihReturned ihCaught =>
    obtain ⟨first, second⟩ := contained
    have inner := ihBody first
    rw [execute, panicsOutside]
    simp only [inner.ending, inner.flag]
    cases panics : body.panicsOutside with
    | true =>
      rw [panics] at second
      exact (ihCaught second).after inner.exact
    | false =>
      rw [panics] at second
      exact (ihReturned second).after inner.exact

/-- Some call is not exact if a call outside of all futures is left by a panic. -/
theorem exists_not_exact {code : Code} (uncontained : ¬ code.Contained) :
    ∃ call ∈ (code.execute 0 false).calls, ¬ call.Exact := by
  -- The induction follows the code to the first place where a panic is not contained.
  induction code with
  | finish => exact absurd trivial uncontained
  | panic => exact absurd trivial uncontained
  | spawnBlocking future next _ ihNext =>
    have inner := execute_inside future 0
    rw [execute, imputioSpawnBlocking]
    simp only [Bool.not_false, if_true, inner.ending]
    cases panics : future.panicsInside with
    | true =>
      -- The future unwinds with the flag set, which nobody clears any more.
      refine ⟨_, List.mem_cons_self .., fun exact => ?_⟩
      have kept := exact.2
      simp [inner.flag] at kept
    | false =>
      have later : ¬ next.Contained := fun contained => uncontained ⟨panics, contained⟩
      obtain ⟨call, member, inexact⟩ := ihNext later
      exact ⟨call, List.mem_append_right _ member, inexact⟩
  | catchUnwind body returned caught ihBody ihReturned ihCaught =>
    rw [execute]
    by_cases first : body.Contained
    · -- The body has left the flag as it was, so what comes next is to blame.
      have inner := execute_outside first
      simp only [inner.ending, inner.flag]
      cases panics : body.panicsOutside with
      | true =>
        have later : ¬ caught.Contained := fun contained =>
          uncontained ⟨first, by rw [panics]; exact contained⟩
        obtain ⟨call, member, inexact⟩ := ihCaught later
        exact ⟨call, List.mem_append_right _ member, inexact⟩
      | false =>
        have later : ¬ returned.Contained := fun contained =>
          uncontained ⟨first, by rw [panics]; exact contained⟩
        obtain ⟨call, member, inexact⟩ := ihReturned later
        exact ⟨call, List.mem_append_right _ member, inexact⟩
    · obtain ⟨call, member, inexact⟩ := ihBody first
      cases (body.execute 0 false).ending with
      | returned => exact ⟨call, List.mem_append_left _ member, inexact⟩
      | unwound => exact ⟨call, List.mem_append_left _ member, inexact⟩

end Code

/--
On a thread that has not called `spawn_blocking` yet, the guard is exact in all calls that some
code makes, exactly if no call outside of all futures is left by a panic of its future.
-/
theorem blocking_guard_exact_iff (code : Code) :
    (∀ call ∈ (code.execute 0 false).calls, call.Exact) ↔ code.Contained := by
  -- An uncontained panic leaves the flag set, and some later call finds it.
  constructor
  · intro exact
    by_contra uncontained
    obtain ⟨call, member, inexact⟩ := Code.exists_not_exact uncontained
    exact inexact (exact call member)
  · intro contained
    exact (Code.execute_outside contained).exact

/-- A future that panics, whose panic is caught, and then a call that is on its own. -/
def callAfterPanic : Code :=
  .catchUnwind (.spawnBlocking .panic .finish) .finish (.spawnBlocking .finish .finish)

/-- A call is refused although no other one is active: the flag was never cleared. -/
theorem guard_refuses_after_panic :
    (⟨0, true, true, true⟩ : BlockingCall) ∈ (callAfterPanic.execute 0 false).calls ∧
      ¬ ∀ call ∈ (callAfterPanic.execute 0 false).calls, call.Exact := by
  decide

end Imputio
