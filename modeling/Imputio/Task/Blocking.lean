import Mathlib.Data.List.Basic
import Mathlib.Logic.Function.Iterate
import Imputio.Task.Task

/-! Futures as state machines, and the loop that runs one to its end on the calling thread. -/

namespace Imputio

/-- What polling a future does, when all that it depends on is the future's own state. -/
abbrev PollFn (σ V : Type*) := σ → FutureStep V × σ

namespace InnerTask

variable {σ V : Type*}

/--
`InnerTask::run`: poll the future again and again until it is ready.

The loop is given up after a number of turns, and it has no value if the future panics.
-/
def run (poll : PollFn σ V) : Nat → σ → Option V
  | 0, _ => none
  | turns + 1, future =>
    match poll future with
    | (.ready val, _) => some val
    | (.pending, future) => run poll turns future
    | (.panicked, _) => none

end InnerTask

/-- `spawn_blocking` returns a value: the loop gets to it in some number of turns. -/
def SpawnBlocking {σ V : Type*} (poll : PollFn σ V) (future : σ) (val : V) : Prop :=
  ∃ turns, InnerTask.run poll turns future = some val

namespace PollFn

variable {σ V : Type*} (poll : PollFn σ V)

/-- The future after a number of polls. -/
def after (polls : Nat) (future : σ) : σ := (fun future => (poll future).2)^[polls] future

/-- The result of one poll, counted from zero. -/
def outcome (turn : Nat) (future : σ) : FutureStep V := (poll (poll.after turn future)).1

/-- The future is pending a number of times first, and then it is ready with a value. -/
def ReadyAfter (pendings : Nat) (future : σ) (val : V) : Prop :=
  (∀ turn < pendings, poll.outcome turn future = .pending) ∧
    poll.outcome pendings future = .ready val

variable {poll} {future : σ} {val other : V} {pendings : Nat}

/-- One more poll is made of the future as the polls before have left it. -/
theorem after_succ (polls : Nat) (future : σ) :
    poll.after (polls + 1) future = (poll (poll.after polls future)).2 :=
  -- The last of the polls is taken off the iteration.
  Function.iterate_succ_apply' ..

/-- The polls after the first one are those of the future that the first one leaves. -/
theorem outcome_succ (turn : Nat) (future : σ) :
    poll.outcome (turn + 1) future = poll.outcome turn (poll future).2 := by
  -- The first of the polls is taken off the iteration.
  rw [outcome, outcome, after, Function.iterate_succ_apply, after]

/-- A future that is pending at first needs one turn less after that. -/
theorem readyAfter_succ :
    poll.ReadyAfter (pendings + 1) future val ↔
      (poll future).1 = .pending ∧ poll.ReadyAfter pendings (poll future).2 val := by
  -- The first turn is looked at by itself, and the others are shifted by one.
  constructor
  · intro ready
    refine ⟨ready.1 0 (Nat.succ_pos _), fun turn below => ?_, ?_⟩
    · rw [← outcome_succ]
      exact ready.1 (turn + 1) (Nat.succ_lt_succ below)
    · rw [← outcome_succ]
      exact ready.2
  · intro ready
    obtain ⟨first, pending, last⟩ := ready
    refine ⟨fun turn below => ?_, ?_⟩
    · cases turn with
      | zero => exact first
      | succ turn =>
        rw [outcome_succ]
        exact pending turn (Nat.lt_of_succ_lt_succ below)
    · rw [outcome_succ]
      exact last

/-- A future becomes ready once only. -/
theorem ReadyAfter.unique {pendings' : Nat} (ready : poll.ReadyAfter pendings future val)
    (ready' : poll.ReadyAfter pendings' future other) : pendings' = pendings ∧ other = val := by
  -- The one that is ready later would be pending when the other one is ready.
  have same : pendings' = pendings := by
    rcases Nat.lt_trichotomy pendings' pendings with less | same | more
    · have pending := ready.1 pendings' less
      simp [ready'.2] at pending
    · exact same
    · have pending := ready'.1 pendings more
      simp [ready.2] at pending
  subst same
  exact ⟨rfl, FutureStep.ready.inj (ready'.2.symm.trans ready.2)⟩

/-- The loop returns exactly the value that the future is ready with in one of its turns. -/
theorem run_eq_some_iff {turns : Nat} :
    InnerTask.run poll turns future = some val ↔
      ∃ pendings < turns, poll.ReadyAfter pendings future val := by
  -- The induction follows the turns of the loop.
  induction turns generalizing future with
  | zero => simp [InnerTask.run]
  | succ turns ih =>
    obtain ⟨step, next⟩ : ∃ step, (poll future).1 = step := ⟨_, rfl⟩
    have split : poll future = (step, (poll future).2) := Prod.ext next rfl
    rw [InnerTask.run, split]
    cases step with
    | ready found =>
      -- A future that is ready at once has no pending turn before.
      have now : poll.ReadyAfter 0 future found := ⟨by simp, next⟩
      constructor
      · intro same
        obtain rfl := Option.some.inj same
        exact ⟨0, Nat.succ_pos _, now⟩
      · rintro ⟨pendings, -, ready⟩
        exact congrArg some (ready.unique now).2
    | pending =>
      simp only [ih]
      constructor
      · rintro ⟨pendings, below, ready⟩
        exact ⟨pendings + 1, Nat.succ_lt_succ below, readyAfter_succ.mpr ⟨next, ready⟩⟩
      · rintro ⟨pendings, below, ready⟩
        cases pendings with
        | zero => simp [ReadyAfter, outcome, after, next] at ready
        | succ pendings =>
          exact ⟨pendings, Nat.lt_of_succ_lt_succ below, (readyAfter_succ.mp ready).2⟩
    | panicked =>
      -- A panic is neither pending nor ready.
      simp only [reduceCtorEq, false_iff, not_exists, not_and]
      intro pendings _ ready
      cases pendings with
      | zero => simp [ReadyAfter, outcome, after, next] at ready
      | succ pendings => simp [readyAfter_succ, next] at ready

/-- Running a future on the calling thread returns what the future is ready with in the end. -/
theorem spawnBlocking_iff :
    SpawnBlocking poll future val ↔ ∃ pendings, poll.ReadyAfter pendings future val := by
  -- One turn more than the pending ones is enough.
  constructor
  · rintro ⟨turns, returned⟩
    obtain ⟨pendings, -, ready⟩ := run_eq_some_iff.mp returned
    exact ⟨pendings, ready⟩
  · rintro ⟨pendings, ready⟩
    exact ⟨pendings + 1, run_eq_some_iff.mpr ⟨pendings, Nat.lt_succ_self _, ready⟩⟩

end PollFn

end Imputio
