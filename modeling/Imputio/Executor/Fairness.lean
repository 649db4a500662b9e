import Imputio.Executor.Pool

/-! The executor with fairness: when a poll finds a task among those that are queued. -/

namespace Imputio

open Transition

namespace Executor

/-- There is no task in any queue, or the front of one queue is taken and nothing else changes. -/
def TakesFront (features : Features) (coin : Bool) (exec : Executor) : Prop :=
  match exec.getTask features coin with
  | none => ∀ level, exec.tasks level = []
  | some (task, after) => ∃ level rest, exec.tasks level = task :: rest ∧
      after = { exec with tasks := Function.update exec.tasks level rest }

/-- The coin lets the scan begin at the first level, or it makes no difference that it does not. -/
def CoinHarmless (coin : Bool) (exec : Executor) : Prop :=
  coin = true →
    (∃ level : Fin 5, 2 ≤ level.val ∧ exec.tasks level ≠ []) ∨ ∀ level, exec.tasks level = []

instance (coin : Bool) (exec : Executor) : Decidable (exec.CoinHarmless coin) :=
  inferInstanceAs (Decidable (_ → _ ∨ _))

variable {io coin : Bool} {exec : Executor}

/-- The levels that are left when the coin skips the first two. -/
theorem mem_levels_coin {level : Fin 5} : level ∈ levels ⟨true, io⟩ true ↔ 2 ≤ level.val := by
  revert level
  cases io <;> decide

/-- Nothing is taken exactly when all levels that are searched are empty. -/
theorem getTask_eq_none_iff {features : Features} :
    exec.getTask features coin = none ↔ ∀ level ∈ levels features coin, exec.tasks level = [] := by
  rw [getTask, Option.map_eq_none_iff, popFront_eq_none_iff]

/-- A task is taken whenever there is one, exactly if the coin does no harm. -/
theorem takesFront_iff : exec.TakesFront ⟨true, io⟩ coin ↔ exec.CoinHarmless coin := by
  -- If a task is found it is a front, and if none is found only the coin can be to blame.
  unfold TakesFront
  cases taken : exec.getTask ⟨true, io⟩ coin with
  | some found =>
    obtain ⟨task, after⟩ := found
    obtain ⟨level, rest, front, rfl⟩ := getTask_eq_some taken
    refine iff_of_true ⟨level, rest, front, rfl⟩ fun heads => .inl ?_
    -- With the coin, what is found is found at one of the later levels.
    subst heads
    have some_level : ¬ ∀ level ∈ levels ⟨true, io⟩ true, exec.tasks level = [] := by
      rw [← getTask_eq_none_iff, taken]
      simp
    obtain ⟨level, searched, occupied⟩ := by simpa using some_level
    exact ⟨level, mem_levels_coin.mp searched, occupied⟩
  | none =>
    rw [getTask_eq_none_iff] at taken
    cases coin with
    | false =>
      refine iff_of_true (fun level => taken level (List.mem_finRange level)) ?_
      simp [CoinHarmless]
    | true =>
      constructor
      · exact fun empty _ => .inr empty
      · intro harmless
        rcases harmless rfl with ⟨level, late, occupied⟩ | empty
        · exact absurd (taken level (mem_levels_coin.mpr late)) occupied
        · exact empty

end Executor

namespace Pool

variable {n : Nat} {V : Type*}

/-- The step is the receipt of a `Poll` transaction by an executor that has tasks in its queues. -/
def PollsQueued (s : Pool n V) (act : PoolAction n V) (worker : Fin n) (coin : Bool) : Prop :=
  match act with
  | .recv receiver flipped _ => receiver = worker ∧ flipped = coin ∧
      (s.executors worker).state = .receiving ∧
      (s.executors worker).rx.queue.head? = some .poll ∧
      ¬ ∀ level, (s.executors worker).tasks level = []
  | _ => False

instance (s : Pool n V) (act : PoolAction n V) (worker : Fin n) (coin : Bool) :
    Decidable (s.PollsQueued act worker coin) := by
  cases act <;> unfold PollsQueued <;> infer_instance

/-- Every `Poll` transaction that is received while tasks are queued polls one of them. -/
def PollServes (features : Features) (s : Pool n V) (act : PoolAction n V) : Prop :=
  ∀ worker coin, s.PollsQueued act worker coin → (s.polledTask features act).isSome

/-- No `Poll` transaction is received with a coin that does harm. -/
def HarmlessPoll (s : Pool n V) (act : PoolAction n V) : Prop :=
  ∀ worker coin, s.PollsQueued act worker coin → (s.executors worker).CoinHarmless coin

instance (s : Pool n V) (act : PoolAction n V) : Decidable (s.HarmlessPoll act) :=
  inferInstanceAs (Decidable (∀ _ _, _ → _))

variable {io : Bool} {s : Pool n V} {act : PoolAction n V}

/-- A transaction polls a task exactly when its coin does no harm. -/
theorem pollServes_iff : s.PollServes ⟨true, io⟩ act ↔ s.HarmlessPoll act := by
  -- Only a poll of the loop is asked for anything, and it takes the front that its coin lets it.
  refine forall₂_congr fun worker coin => forall_congr' fun polls => ?_
  cases act with
  | recv receiver flipped outcome =>
    obtain ⟨rfl, rfl, receiving, front, occupied⟩ := polls
    have polled : s.polledTask ⟨true, io⟩ (.recv receiver flipped outcome) =
        ((s.executors receiver).getTask ⟨true, io⟩ flipped).map Prod.fst := by
      rw [polledTask, if_pos ⟨receiving, front⟩, Executor.nextTask, Executor.getTask,
        Option.map_map]
      rfl
    have fair : (s.executors receiver).TakesFront ⟨true, io⟩ flipped ↔ _ :=
      Executor.takesFront_iff
    rw [polled, Option.isSome_map, ← fair, Executor.TakesFront]
    -- Since there are tasks, taking none of them is what the code should not do.
    cases taken : (s.executors receiver).getTask ⟨true, io⟩ flipped with
    | none => simpa using occupied
    | some found =>
      obtain ⟨level, rest, front, after⟩ := Executor.getTask_eq_some taken
      exact iff_of_true rfl ⟨level, rest, front, after⟩
  | _ => exact polls.elim

end Pool

section Conserving

variable {n : Nat} {V : Type*} {io : Bool} {start last : Pool n V} {acts : List (PoolAction n V)}

/--
With fairness a task is taken whenever there is one, for exactly those queues and coins where the
coin is false, or some queue from the third on is not empty, or all are empty. Every `Poll` that an
executor with queued tasks receives in a run polls a task exactly if all of them are like this.
-/
theorem fair_poll_serves_iff (run : Run (Steps (Pool.next ⟨true, io⟩)) start acts last) :
    (∀ (exec : Executor) coin, exec.TakesFront ⟨true, io⟩ coin ↔ exec.CoinHarmless coin) ∧
      (EveryStep (Steps (Pool.next ⟨true, io⟩)) start
          (fun s act _ => s.PollServes ⟨true, io⟩ act) acts ↔
        Run (Guarded Pool.HarmlessPoll (Steps (Pool.next ⟨true, io⟩))) start acts last) :=
  -- The two parts are about the same condition, for one call and for all steps of a run.
  ⟨fun _ _ => Executor.takesFront_iff,
    run.everyStep_iff_guarded steps_functional fun _ _ _ _ => Pool.pollServes_iff⟩

/-- A task is spawned with some priority, and after it is enqueued an executor is asked to poll. -/
def spawnThenPoll {n : Nat} (worker : Fin n) (priority : Priority) : List (PoolAction n Nat) :=
  [.call (.spawn priority), .store 0, .send 0, .recv worker false .pending, .check worker,
    .call .poll, .store 1, .send 1]

/-- An urgent task is not polled if the coin skips its level, although it is the only one. -/
theorem fair_poll_skips_urgent :
    ∃ s : Pool 1 Nat, Run (Steps (Pool.next ⟨true, false⟩)) (Pool.initialized ⟨true, false⟩)
        (spawnThenPoll 0 .high) s ∧
      (s.executors 0).queued = [⟨0, .high⟩] ∧
      ¬ (s.executors 0).TakesFront ⟨true, false⟩ true ∧
      ¬ s.PollServes ⟨true, false⟩ (.recv 0 true .pending) := by
  -- The last state of the run is tested against the condition.
  have replayed : (replay (Pool.next ⟨true, false⟩) (Pool.initialized ⟨true, false⟩ : Pool 1 Nat)
      (spawnThenPoll 0 .high)).map (fun s =>
        decide ((s.executors 0).queued = [⟨0, .high⟩] ∧ ¬ (s.executors 0).CoinHarmless true ∧
          ¬ s.HarmlessPoll (.recv 0 true .pending))) = some true := by
    decide
  obtain ⟨s, run, passed⟩ := Run.of_replay_test replayed
  obtain ⟨queued, harmful, skipped⟩ := of_decide_eq_true passed
  exact ⟨s, run, queued, fun takes => harmful (Executor.takesFront_iff.mp takes),
    fun serves => skipped (Pool.pollServes_iff.mp serves)⟩

/-- A task that is not urgent is polled in the same run, whatever the coin says. -/
theorem fair_poll_serves_iff_low :
    ∃ s : Pool 1 Nat, Run (Steps (Pool.next ⟨true, false⟩)) (Pool.initialized ⟨true, false⟩)
        (spawnThenPoll 0 .low ++ [.recv 0 true .pending]) s ∧
      EveryStep (Steps (Pool.next ⟨true, false⟩)) (Pool.initialized ⟨true, false⟩)
        (fun s act _ => s.PollServes ⟨true, false⟩ act)
        (spawnThenPoll 0 .low ++ [.recv 0 true .pending] : List (PoolAction 1 Nat)) := by
  -- Every step of the replay is tested against the condition.
  have replayed : (replay (checked Pool.HarmlessPoll (Pool.next ⟨true, false⟩))
      (Pool.initialized ⟨true, false⟩ : Pool 1 Nat)
      (spawnThenPoll 0 .low ++ [.recv 0 true .pending])).isSome = true := by
    decide
  obtain ⟨s, guarded⟩ := Run.of_checked replayed
  exact ⟨s, guarded.unguard, (fair_poll_serves_iff guarded.unguard).2.mpr guarded⟩

end Conserving

end Imputio
