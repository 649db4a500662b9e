import Imputio.Executor.Sequential
import Imputio.Runtime.Coherence

/-! What becomes of a coordinator that nobody is going to use: its executors are left alone. -/

namespace Imputio

open Transition

/-- A step of the threads of a pool, or the end of its coordinator; nobody calls it. -/
def PoolAction.Uncalled {n : Nat} {V : Type*} : PoolAction n V → Prop
  | .recv _ _ _ => True
  | .check _ => True
  | .pollerRecv _ => True
  | .pollerExit _ => True
  | .dropCoordinator => True
  | _ => False

namespace Pool

variable {n : Nat} {V : Type*} {features : Features} {s t : Pool n V} {act : PoolAction n V}

/-- No executor that is in its loop is going to be asked to poll. -/
def Unasked (s : Pool n V) : Prop :=
  ∀ worker, (s.executors worker).state ≠ .exited → .poll ∉ (s.executors worker).rx.queue

instance (s : Pool n V) : Decidable s.Unasked := inferInstanceAs (Decidable (∀ _, _ → _))

/-- Where nobody calls, the flag stays as it is, no task is made, and no message is sent. -/
theorem uncalled_step (uncalled : act.Uncalled) (step : Steps (next features) s act t) :
    t.shutdown = s.shutdown ∧ t.nextTask = s.nextTask ∧ ∀ worker, s.puts worker act = none := by
  -- Flag and tasks change with a call, and the steps of the workers make none.
  refine ⟨?_, ?_, fun worker => ?_⟩
  · have other : act ≠ .shutdown := by
      rintro rfl
      exact uncalled
    rw [Bool.eq_iff_iff, flag_of_step step, or_iff_left other]
  · cases step_effect step with
    | quiet same => exact same.nextTask
    | spawned => exact uncalled.elim
    | refused => exact uncalled.elim
    | @polled worker coin outcome => cases outcome <;> rfl
    | _ => rfl
  · -- Only a call sends.
    cases act with
    | send => exact uncalled.elim
    | _ => rfl

/-- A task that has panicked stays in the history, and with it an executor that it took along. -/
theorem crashed_of_step (step : Steps (next features) s act t) :
    ∃ more, t.crashed = s.crashed ++ more ∧
      ∀ worker, s.Leaves features act worker → act = .check worker ∨ more ≠ [] := by
  -- The history grows with a task that panics, and an executor that leaves otherwise checks.
  cases step_effect step with
  | quiet same _ stays =>
    exact ⟨[], by rw [same.crashed, List.append_nil], fun worker leaves =>
      absurd leaves (stays worker)⟩
  | @polled worker coin outcome task level later rest exec =>
    cases outcome with
    | panicked => exact ⟨[task], rfl, fun _ _ => .inr (by simp)⟩
    | _ => exact ⟨[], (List.append_nil _).symm, fun other leaves => by simp [Leaves] at leaves⟩
  | @left worker =>
    refine ⟨[], (List.append_nil _).symm, fun other leaves => .inl ?_⟩
    rw [leaves.1]
  | _ =>
    exact ⟨[], (List.append_nil _).symm, fun other leaves =>
      absurd leaves (by simp [Leaves, polledTask, *])⟩

/-- An executor that is not asked to poll polls no task. -/
theorem Unasked.unpolled (unasked : s.Unasked) (features : Features) (act : PoolAction n V) :
    s.polledTask features act = none := by
  -- A poll needs a request at the front of a channel.
  cases act with
  | recv worker coin outcome =>
    refine if_neg fun both => unasked worker (by simp [both.1]) ?_
    exact List.mem_of_mem_head? both.2
  | _ => rfl

/-- Where nobody calls, nobody asks either. -/
theorem Unasked.step (unasked : s.Unasked) (uncalled : act.Uncalled)
    (step : Steps (next features) s act t) : t.Unasked := by
  -- The channel of an executor in its loop only gets shorter, as nothing is put into it.
  intro worker loops
  have before := unasked worker (InLoop.before step loops)
  cases local_of_step worker step with
  | kept _ _ queue => exact queue ▸ before
  | put put => simp [(uncalled_step uncalled step).2.2 worker] at put
  | took _ _ front queue =>
    intro asked
    rw [queue] at asked
    exact before (front ▸ List.mem_cons_of_mem _ asked)
  | left _ exited => exact absurd exited loops

/-- A step in which no task is polled ends none, and it resolves no handle. -/
theorem Unasked.keeps (unasked : s.Unasked) (uncalled : act.Uncalled)
    (step : Steps (next features) s act t) :
    t.finished = s.finished ∧ t.crashed = s.crashed ∧
      ∀ id < s.nextTask, (t.cells id).Resolved ↔ (s.cells id).Resolved := by
  -- What ends or resolves anything is a poll.
  have effect := step_effect step
  have unpolled := unasked.unpolled features act
  refine ⟨?_, ?_, fun id old => ?_⟩
  · cases effect with
    | quiet same => exact same.finished
    | polled _ _ picked => simp [picked] at unpolled
    | _ => rfl
  · cases effect with
    | quiet same => exact same.crashed
    | polled _ _ picked => simp [picked] at unpolled
    | _ => rfl
  · rw [effect.resolves old, or_iff_left]
    rintro ⟨task, -, ends⟩
    exact not_ends unpolled ends

/-- The steps of a pool that nobody calls. -/
def alone (features : Features) : Pool n V → PoolAction n V → Pool n V → Prop :=
  Guarded (fun _ => PoolAction.Uncalled) (Steps (next features))

section Alone

variable {start last : Pool n V} {acts : List (PoolAction n V)}

/-- As long as nobody calls, nothing is put into the channel of an executor. -/
theorem unsent_alone (run : Run (alone features) start acts last) (worker : Fin n) :
    observed (next features) (fun s => s.puts worker) start acts = [] := by
  -- By induction on the run, none of whose steps is a call.
  induction run with
  | nil => rfl
  | @snoc acts s t act earlier step ih =>
    rw [earlier.unguard.observed_snoc, ih, (uncalled_step step.1 step.2).2.2 worker]
    rfl

/-- As long as nobody calls, an executor takes the messages that are left in its channel. -/
theorem taken_alone (run : Run (alone features) start acts last) (worker : Fin n) :
    observed (next features) (fun s => s.takes worker) start acts <+:
      (start.executors worker).rx.queue := by
  -- What comes out of a channel was in it or was put into it on the way.
  have offers : ∀ (s : Pool n V) act, (s.takes worker act).toList <+:
      (s.executors worker).rx.queue := by
    intro s act
    cases act with
    | recv receiver coin outcome =>
      simp only [takes]
      split
      · cases (s.executors worker).rx.queue <;> simp
      · simp
    | _ => exact List.nil_prefix
  have closed : ∀ (s : Pool n V) act, ¬ ¬ s.Gone worker → s.takes worker act = none := by
    intro s act gone
    have exited := (not_not.mp gone).1
    cases act with
    | recv receiver coin outcome => exact if_neg fun both => by simp [exited] at both
    | _ => rfl
  have relays := channel_relays (V := V) features worker
  have taken := relays.run_prefix offers closed run.unguard
  -- Nothing is put into the channel, so what comes out was there before.
  rwa [unsent_alone run worker, List.append_nil] at taken

/-- As long as nobody calls, the flag is as it was, and no task is made. -/
theorem flag_alone (run : Run (alone features) start acts last) :
    last.shutdown = start.shutdown ∧ last.nextTask = start.nextTask := by
  -- By induction on the run, none of whose steps is a call.
  induction run with
  | nil => exact ⟨rfl, rfl⟩
  | snoc _ step ih =>
    obtain ⟨flag, nextTask, -⟩ := uncalled_step step.1 step.2
    exact ⟨flag.trans ih.1, nextTask.trans ih.2⟩

/-- As long as nobody calls, an executor that sees no flag leaves only with a task that panics. -/
theorem loops_alone (unset : start.shutdown = false) (run : Run (alone features) start acts last) :
    start.crashed.length ≤ last.crashed.length ∧
      (last.crashed.length = start.crashed.length → ∀ worker,
        (last.executors worker).state = .exited ↔ (start.executors worker).state = .exited) := by
  -- The induction carries that the list of panicked tasks never gets shorter.
  induction run with
  | nil => exact ⟨Nat.le_refl _, fun _ _ => Iff.rfl⟩
  | @snoc acts s t act earlier step ih =>
    obtain ⟨grown, loops⟩ := ih
    have flag : s.shutdown = false := (flag_alone earlier).1.trans unset
    -- The flag is not set, so whoever leaves adds to the tasks that have panicked.
    obtain ⟨more, crashed, panicked⟩ := crashed_of_step step.2
    rw [crashed, List.length_append]
    refine ⟨grown.trans (Nat.le_add_right _ _), fun same worker => ?_⟩
    have none : more = [] := List.eq_nil_of_length_eq_zero (by omega)
    rw [((step_effect step.2).loops worker).1, ← loops (by omega) worker, or_iff_left]
    intro leaves
    rcases panicked worker leaves with checks | some
    · subst checks
      simp [Leaves, flag] at leaves
    · exact some none

/-- Where nobody is going to be asked to poll, nothing becomes of the tasks. -/
theorem unasked_alone (unasked : start.Unasked) (run : Run (alone features) start acts last) :
    last.Unasked ∧ last.finished = start.finished ∧ last.crashed = start.crashed ∧
      ∀ id < start.nextTask, (last.cells id).Resolved ↔ (start.cells id).Resolved := by
  -- As long as no poll waits in a channel, none is taken, and a step sends no new one.
  induction run with
  | nil => exact ⟨unasked, rfl, rfl, fun _ _ => Iff.rfl⟩
  | @snoc acts s t act earlier step ih =>
    obtain ⟨unasked', finished, crashed, resolved⟩ := ih
    obtain ⟨finished', crashed', resolved'⟩ := unasked'.keeps step.1 step.2
    refine ⟨unasked'.step step.1 step.2, finished'.trans finished, crashed'.trans crashed,
      fun id old => ?_⟩
    exact (resolved' id ((flag_alone earlier).2.symm ▸ old)).trans (resolved id old)

end Alone

end Pool

namespace PooledProcess

variable {V : Type*} {features : Features} {s t : PooledProcess V} {act : PooledAction V}
  {exec : CoordinatorId}

/-- Whatever a step does to the pool of a coordinator that nobody uses, it is no call. -/
theorem Cause.uncalled {act' : PoolAction (s.pools exec).execs V}
    (cause : s.Cause act t exec act') (coherent : s.Coherent features)
    (retired : s.Retired exec) : act'.Uncalled := by
  -- Whoever calls it or sets its flag would have it.
  cases cause with
  | called holds => exact absurd holds (coherent.not_holds retired _)
  | continued calls => exact absurd (by rw [calls]; rfl) (coherent.not_holds retired _)
  | flagged there flags => exact absurd flags (coherent.not_flags retired there)
  | @worked worker step => cases step <;> trivial
  | dropped => trivial

/-- The pool of a coordinator that nobody uses goes on by itself. -/
theorem Coherent.left_alone (coherent : s.Coherent features) (retired : s.Retired exec)
    (step : Steps (next features) s act t) : t.Retired exec ∧
      ∃ (acts : List (PoolAction (s.pools exec).execs V)) (pool : Pool (s.pools exec).execs V),
        t.pools exec = ⟨_, pool⟩ ∧ Run (Pool.alone features) (s.pools exec).pool acts pool := by
  -- The step may have nothing to do with this pool.
  have effect := step_effect step
  obtain ⟨acts, run⟩ := coherent.process
  refine ⟨effect.retired (Process.sound_of_run run.unguard) retired, ?_⟩
  cases effect.onPool coherent.drivers exec with
  | same _ pool => exact ⟨[], _, pool, .nil⟩
  | made new => exact absurd retired.1 (by simp [new])
  | stepped taken _ now cause =>
    exact ⟨_, _, now, .single ⟨cause.uncalled coherent retired, taken⟩⟩

/-- Along a run it stays so. -/
theorem Coherent.left_alone_run {mid last : PooledProcess V} {acts : List (PooledAction V)}
    (coherent : mid.Coherent features) (retired : mid.Retired exec)
    (run : Run (Steps (next features)) mid acts last) :
    last.Coherent features ∧ last.Retired exec ∧
      ∃ (acts' : List (PoolAction (mid.pools exec).execs V))
        (pool : Pool (mid.pools exec).execs V), last.pools exec = ⟨_, pool⟩ ∧
          Run (Pool.alone features) (mid.pools exec).pool acts' pool := by
  -- The steps of the pool are put together along the run of the process.
  induction run with
  | nil => exact ⟨coherent, retired, [], _, rfl, .nil⟩
  | @snoc acts s t act _ step ih =>
    obtain ⟨coherent', retired', acts', pool, pooled, earlier⟩ := ih
    obtain ⟨retired'', later⟩ := coherent'.left_alone retired' step
    -- The pool has as many executors as ever.
    rw [pooled] at later
    obtain ⟨more, pool', pooled', rest⟩ := later
    exact ⟨coherent'.step step, retired'', _, pool', pooled', earlier.append rest⟩

/-- The executors that a panic of `run` leaves behind are nobody's from the start. -/
theorem Coherent.abandoned {r : RuntimeId} {rt : Runtime} {execs : Nat} {poller blocking : Bool}
    (coherent : s.Coherent features) (there : s.process.runtimes r = some rt)
    (initializing : rt.call = .initializing blocking) (some : 0 < execs ∨ poller = true)
    (step : Steps (next features) s (.process (.step r (.failRun execs poller))) t) :
    t.Retired s.process.shared.nextCoordinator := by
  -- The panic has made the coordinator under the next name and told nobody.
  obtain ⟨acts, run⟩ := coherent.process
  have sound := Process.sound_of_run run.unguard
  cases step_effect step with
  | built _ building => rcases building with ⟨_, other⟩ | ⟨_, other⟩ <;> simp at other
  | stepped _ taken =>
    obtain ⟨-, unreachable, -⟩ := sound.abandoned there initializing some taken
    refine ⟨unreachable.1, unreachable.2.1, fun other _ rt' there' =>
      unreachable.2.2 other rt' there', fun id _ holds => ?_⟩
    -- No thread has a name that was not given.
    exact Nat.lt_irrefl _ (coherent.named id _ holds)

/-- A coordinator that nobody uses can be dropped. -/
theorem Coherent.drop_enabled (coherent : s.Coherent features) (retired : s.Retired exec)
    (held : (s.pools exec).pool.held = true) :
    ∃ t, Steps (next features) s (.dropCoordinator exec) t := by
  -- Dropping waits for the calls only, and a call that is made has a thread.
  have calm : ∀ call, ((s.pools exec).pool.calls call).active = false := by
    intro call
    by_contra active
    -- A call that is in progress has a thread.
    obtain ⟨caller, calls⟩ := coherent.attended exec call (by simpa using active)
    exact coherent.not_holds retired caller (by rw [calls]; rfl)
  have drops : Steps (Pool.next features) (s.pools exec).pool .dropCoordinator _ :=
    if_pos ⟨held, fun call _ => calm call⟩
  exact ⟨_, (if_pos retired).trans (onPool_eq_some.mpr ⟨_, drops, rfl⟩)⟩

end PooledProcess

section Retired

variable {V : Type*} {features : Features} {mid last : PooledProcess V}
  {before acts : List (PooledAction V)} {exec : CoordinatorId}

/--
Once nobody is going to use a coordinator, nobody ever does, and its executors are left alone.

In every run of a process with its pools, a coordinator that has left the slot and that no thread
has loaded stays so. Nobody calls it: its flag stays as it is, no task is spawned on it, no message
is put into its channels, and an executor takes what is left in its channel at most. If the flag was
not set, no executor ever leaves its loop but with a task that panics. If no poll is left in the
channels, no task is finished any more, none panics, and no handle is resolved. The coordinator
itself can be dropped.
-/
theorem retired_pool_left_alone
    (first : Run (Steps (PooledProcess.next features)) .new before mid)
    (retired : mid.Retired exec) (later : Run (Steps (PooledProcess.next features)) mid acts last) :
    last.Retired exec ∧
      ∃ (acts' : List (PoolAction (mid.pools exec).execs V))
        (pool : Pool (mid.pools exec).execs V), last.pools exec = ⟨_, pool⟩ ∧
        Run (Pool.alone features) (mid.pools exec).pool acts' pool ∧
        pool.shutdown = (mid.pools exec).pool.shutdown ∧
        pool.nextTask = (mid.pools exec).pool.nextTask ∧
        (∀ worker, observed (Pool.next features) (fun s => s.puts worker)
          (mid.pools exec).pool acts' = []) ∧
        (∀ worker, observed (Pool.next features) (fun s => s.takes worker)
          (mid.pools exec).pool acts' <+: ((mid.pools exec).pool.executors worker).rx.queue) ∧
        ((mid.pools exec).pool.shutdown = false →
          pool.crashed.length = (mid.pools exec).pool.crashed.length → ∀ worker,
            (pool.executors worker).state = .exited ↔
              ((mid.pools exec).pool.executors worker).state = .exited) ∧
        ((mid.pools exec).pool.Unasked →
          pool.finished = (mid.pools exec).pool.finished ∧
          pool.crashed = (mid.pools exec).pool.crashed ∧
          ∀ id < (mid.pools exec).pool.nextTask,
            (pool.cells id).Resolved ↔ ((mid.pools exec).pool.cells id).Resolved) ∧
        (pool.held = true →
          ∃ t, Steps (PooledProcess.next features) last (.dropCoordinator exec) t) := by
  -- The pool makes a run of its own, and what holds of such runs gives each part.
  have coherent : mid.Coherent features :=
    first.invariant PooledProcess.new_coherent fun _ _ _ before step => before.step step
  obtain ⟨coherent', retired', acts', pool, pooled, run⟩ := coherent.left_alone_run retired later
  obtain ⟨flag, nextTask⟩ := Pool.flag_alone run
  refine ⟨retired', acts', pool, pooled, run, flag, nextTask,
    fun worker => Pool.unsent_alone run worker, fun worker => Pool.taken_alone run worker,
    fun unset same => (Pool.loops_alone unset run).2 same,
    fun unasked => (Pool.unasked_alone unasked run).2, fun held => ?_⟩
  exact coherent'.drop_enabled retired' (by rw [pooled]; exact held)

/-- A task is spawned on the first runtime and is in a queue when a second runtime is run. -/
def leftBehind : List (PooledAction Nat) :=
  (.build 1 (some 1) :: callOfRun 0).map .process ++ [.load (.spawn .low)] ++
    List.replicate 4 (.move (.user 0)) ++ [.work 1 0 (.recv false .pending), .work 1 0 .check] ++
    (.build 1 (some 1) :: callOfRun 1).map .process

/-- The executor of the first runtime goes on for a turn, and its coordinator is dropped. -/
def lastTurn : List (PooledAction Nat) :=
  [.work 1 0 (.recv false .pending), .work 1 0 .check, .dropCoordinator 1]

/-- The executor that was left behind never leaves its loop, and the handle is never resolved. -/
theorem retired_pool_left_alone_behind :
    ∃ mid last : PooledProcess Nat,
      Run (Steps (PooledProcess.next ⟨false, false⟩)) .new leftBehind mid ∧ mid.Retired 1 ∧
      Run (Steps (PooledProcess.next ⟨false, false⟩)) mid lastTurn last ∧
      ¬ ((last.pools 1).pool.cells 0).Resolved ∧
      ∀ worker, ((last.pools 1).pool.executors worker).state ≠ .exited := by
  -- One replay tests all that the theorem asks for, and what it is to say something about.
  have replayed : (replay (PooledProcess.next ⟨false, false⟩) .new leftBehind).map (fun mid =>
      decide (mid.Retired 1) && decide (mid.pools 1).pool.Unasked &&
        decide (0 < (mid.pools 1).pool.nextTask) && !(mid.pools 1).pool.shutdown &&
        !decide ((mid.pools 1).pool.cells 0).Resolved &&
        decide (∀ worker, ((mid.pools 1).pool.executors worker).state ≠ .exited) &&
        (replay (PooledProcess.next ⟨false, false⟩) mid lastTurn).isSome) = some true := by
    decide
  obtain ⟨mid, first, tested⟩ := Run.of_replay_test replayed
  simp only [Bool.and_eq_true, decide_eq_true_eq, Bool.not_eq_true', decide_eq_false_iff_not,
    Option.isSome_iff_exists] at tested
  obtain ⟨⟨⟨⟨⟨⟨retired, unasked⟩, made⟩, unset⟩, unresolved⟩, loops⟩, last, reached⟩ := tested
  have later := Run.of_replay reached
  obtain ⟨-, acts, pool, pooled, -, -, -, -, -, stays, kept, -⟩ :=
    retired_pool_left_alone first retired later
  obtain ⟨-, crashed, resolved⟩ := kept unasked
  refine ⟨mid, last, first, retired, later, ?_, ?_⟩
  · rw [pooled]
    exact fun done => unresolved ((resolved 0 made).mp done)
  · rw [pooled]
    exact fun worker exited => loops worker ((stays unset (by rw [crashed]) worker).mp exited)

end Retired

end Imputio
