import Imputio.Executor.Handover

/-! Each poller thread does what its poller would do alone with the operations it is sent. -/

namespace Imputio

open Transition

/-- A message that a poller thread processes, with what the system answers meanwhile. -/
structure PollerTurn where
  message : IoOp
  os : OsReply
  ready : PollResult (List Event)
  deriving DecidableEq

namespace Poller

/-- A poller by itself processes a message; there is no result when the thread panics. -/
def turn (policy : KeyPolicy) (p : Poller) (turn : PollerTurn) : Option Poller :=
  match turn.message with
  | .submit op => (p.pushTokenEntry policy op turn.os).map Prod.fst
  | .poll => if (p.poll turn.ready).result.isNone then none else some p

/-- The events that a poller sends to the notifiers when it is asked to poll. -/
def notifies (p : Poller) (turn : PollerTurn) : Option (List (ChannelId × Event)) :=
  match turn.message with
  | .submit _ => none
  | .poll => some (p.poll turn.ready).sends

end Poller

namespace PollingPool

variable {n : Nat} {V : Type*} {features : Features} {policy : KeyPolicy} {s t : PollingPool n V}
  {act : PollingAction n V} {worker : Fin n}

/-- What a poller thread processes in a step. -/
def turnTo (s : PollingPool n V) (worker : Fin n) (act : PollingAction n V) : Option PollerTurn :=
  (s.pool.draws worker act.act).map fun message => ⟨message, act.os, act.ready⟩

/-- The events that a poller thread sends to the notifiers in a step. -/
def notifies (s : PollingPool n V) (worker : Fin n) (act : PollingAction n V) :
    Option (List (ChannelId × Event)) :=
  (s.turnTo worker act).bind fun turn => (s.pollers worker).bind (·.notifies turn)

/-- The poller thread of an executor is there, and this is its poller. -/
def HasPoller (worker : Fin n) (s : PollingPool n V) (p : Poller) : Prop :=
  s.pollers worker = some p

/-- The poller thread of an executor is there. -/
def Alive (worker : Fin n) (s : PollingPool n V) : Prop := ∃ p, HasPoller worker s p

/-- A poller that is alive after a step was alive before, and has processed what it was sent. -/
theorem poller_of_step {q : Poller} (step : Steps (next features policy) s act t)
    (alive : HasPoller worker t q) :
    (s.turnTo worker act = none ∧ HasPoller worker s q) ∨
      ∃ turn p, s.turnTo worker act = some turn ∧ HasPoller worker s p ∧
        p.turn policy turn = some q := by
  -- Only two steps touch a poller thread: it takes a message, or it ends.
  unfold HasPoller at *
  obtain ⟨pool, taken, done⟩ := Option.bind_eq_some_iff.mp step
  obtain ⟨act, os, ready⟩ := act
  cases act with
  | pollerRecv other =>
    simp only at done
    split at done
    · rename_i p message rest there front
      obtain rfl := Option.some.inj done
      by_cases here : other = worker
      · -- The thread processes the oldest message.
        subst here
        refine .inr ⟨⟨message, os, ready⟩, p, by simp [turnTo, Pool.draws, front], there, ?_⟩
        cases message <;> simpa [process, submit, Poller.turn] using alive
      · refine .inl ⟨by simp [turnTo, Pool.draws, here], ?_⟩
        cases message <;> simpa [process, submit, Ne.symm here] using alive
    · simp at done
  | pollerExit other =>
    -- A thread that ends is not there afterwards.
    obtain rfl := Option.some.inj done
    by_cases here : worker = other
    · simp [here] at alive
    · exact .inl ⟨rfl, by simpa [here] using alive⟩
  -- No other step concerns the poller threads.
  | _ =>
    obtain rfl := Option.some.inj done
    exact .inl ⟨rfl, alive⟩

/-- A poller thread is there with the feature only, and the channel to it is open. -/
def Listens (features : Features) (worker : Fin n) (s : PollingPool n V) : Prop :=
  Alive worker s → features.io = true ∧ s.pool.HandleOpen worker

/-- A poller thread that is there after a step was there before. -/
theorem Alive.before (step : Steps (next features policy) s act t) (alive : Alive worker t) :
    Alive worker s := by
  -- No step starts a poller thread.
  obtain ⟨q, there⟩ := alive
  rcases poller_of_step step there with ⟨-, same⟩ | ⟨_, p, -, before, -⟩
  · exact ⟨q, same⟩
  · exact ⟨p, before⟩

/-- A poller thread that goes on listens to the channel. -/
theorem Listens.step (listens : s.Listens features worker)
    (step : Steps (next features policy) s act t) : t.Listens features worker := by
  -- What may have been done to the channel is put, drawn or closed.
  intro alive
  obtain ⟨on, connected, capacity⟩ := listens (alive.before step)
  have inner := next_pool step
  refine ⟨on, ?_, (Pool.pollHandle_of_step worker inner).1.trans capacity⟩
  cases Pool.handover_of_step worker inner with
  | handed undrawn handle =>
    -- The executor only sends, which does not close its end.
    rw [handle]
    cases s.pool.takes worker act.act with
    | none => exact connected
    | some message => exact ((s.pool.executors worker).handedOn_rest features message).2 ▸ connected
  | drew untaken drawn front handle => rw [handle, connected]
  | closed exit untaken undrawn handle =>
    -- The channel is closed with the end of the thread only.
    obtain ⟨act, os, ready⟩ := act
    obtain rfl : act = .pollerExit worker := exit
    obtain ⟨pool, -, done⟩ := Option.bind_eq_some_iff.mp step
    obtain rfl := Option.some.inj done
    obtain ⟨q, there⟩ := alive
    simp [HasPoller] at there

/-- The poller threads of executors that have just been started listen. -/
theorem listens_started (features : Features) (worker : Fin n) :
    (started features (.initialized features) : PollingPool n V).Listens features worker := by
  -- Without the feature no poller thread is started.
  rintro ⟨p, alive⟩
  have on : features.io = true := by
    by_contra off
    simp [HasPoller, started, off] at alive
  refine ⟨on, ?_, ?_⟩ <;>
    simp [started, Pool.initialized, Pool.withExecutors, Executor.initialized, on,
      Channel.unbounded]

end PollingPool

section PollerThreads

variable {n : Nat} {V : Type*} {features : Features} {policy : KeyPolicy}
  {start last : PollingPool n V} {acts : List (PollingAction n V)}

namespace PollingPool

/-- What a poller thread processes along a run, in order. -/
def turnsTo (features : Features) (policy : KeyPolicy) (start : PollingPool n V)
    (acts : List (PollingAction n V)) (worker : Fin n) : List PollerTurn :=
  observed (next features policy) (fun s => s.turnTo worker) start acts

/-- What is sent to an executor along a run for its poller thread, in order. -/
def ioSentTo (features : Features) (policy : KeyPolicy) (start : PollingPool n V)
    (acts : List (PollingAction n V)) (worker : Fin n) : List IoOp :=
  (observed (next features policy) (fun s act => s.pool.puts worker act.act) start acts).filterMap
    Transaction.ioOp

/-- What a poller thread processes is what it takes out of its channel. -/
theorem turnsTo_message (features : Features) (policy : KeyPolicy) (start : PollingPool n V)
    (acts : List (PollingAction n V)) (worker : Fin n) :
    (start.turnsTo features policy acts worker).map PollerTurn.message =
      observed (next features policy) (fun s act => s.pool.draws worker act.act) start acts := by
  -- A turn is what was drawn, with what the system answers.
  have reads : ∀ (s : PollingPool n V) (act : PollingAction n V), s.pool.draws worker act.act =
      (s.turnTo worker act).bind fun turn => some turn.message := by
    intro s act
    unfold turnTo
    cases s.pool.draws worker act.act <;> rfl
  rw [observed_filterMap reads, turnsTo, List.filterMap_eq_map']

/-- A poller thread that is there at the end has done what its poller does alone. -/
theorem poller_projects {p : Poller} (begun : HasPoller worker start p)
    (run : Run (Steps (next features policy)) start acts last) (alive : Alive worker last) :
    ∃ q, Run (Steps (Poller.turn policy)) p (start.turnsTo features policy acts worker) q ∧
      HasPoller worker last q ∧
      observed (next features policy) (fun s => s.notifies worker) start acts =
        observed (Poller.turn policy) Poller.notifies p
          (start.turnsTo features policy acts worker) := by
  -- The poller is a part of the pool, and its turns are the labels of the steps.
  refine run.project (fun _ _ _ step still => still.before step)
    (fun s act t p still has step => ?_) begun alive
  obtain ⟨q, there⟩ := still
  rcases poller_of_step step there with ⟨untold, same⟩ | ⟨turn, p', told, before, processed⟩
  · obtain rfl := Option.some.inj (has.symm.trans same)
    exact .inl ⟨untold, by rw [notifies, untold, Option.bind_none], there⟩
  · obtain rfl := Option.some.inj (has.symm.trans before)
    refine .inr ⟨turn, q, told, processed, ?_, there⟩
    rw [notifies, told, Option.bind_some, before, Option.bind_some]

end PollingPool

/--
Each poller thread works through what is sent to its executor, in order, as a poller alone would.

Whatever the callers and the other threads do, a poller thread that is still there has processed
the operations and the requests to poll that were sent to its executor, oldest first, but for those
that are still on their way. Its tables, and all that it has sent to the notifiers, are those of a
poller by itself that processes the same messages one after the other.
-/
theorem poller_threads_sequential (fresh : start = .started features (.initialized features))
    (run : Run (Steps (PollingPool.next features policy)) start acts last) (worker : Fin n)
    {p : Poller} (alive : last.pollers worker = some p) :
    (start.turnsTo features policy acts worker).map PollerTurn.message ++
        (last.pool.executors worker).pollHandle.queue <+:
          start.ioSentTo features policy acts worker ∧
      ((last.pool.executors worker).state ≠ .exited →
        (start.turnsTo features policy acts worker).map PollerTurn.message ++
            (last.pool.executors worker).pollHandle.queue ++
            (last.pool.executors worker).rx.queue.filterMap Transaction.ioOp =
          start.ioSentTo features policy acts worker) ∧
      Run (Steps (Poller.turn policy)) .new (start.turnsTo features policy acts worker) p ∧
      observed (PollingPool.next features policy) (fun s => s.notifies worker) start acts =
        observed (Poller.turn policy) Poller.notifies .new
          (start.turnsTo features policy acts worker) := by
  -- The channel is open, as the thread is there.
  have listens : last.Listens features worker := by
    subst fresh
    exact run.invariant (PollingPool.listens_started features worker) fun _ _ _ before step =>
      before.step step
  obtain ⟨on, opened⟩ := listens ⟨p, alive⟩
  -- At first the poller knows nothing, and both channels are empty.
  have begun : PollingPool.HasPoller worker start .new := by
    simp [fresh, PollingPool.HasPoller, PollingPool.started, on]
  have noMessage : (start.pool.executors worker).rx.queue = [] := by
    rw [fresh]
    rfl
  have noRequest : (start.pool.executors worker).pollHandle.queue = [] := by
    simp [fresh, PollingPool.started, Pool.initialized, Pool.withExecutors, Executor.initialized,
      on, Channel.unbounded]
  obtain ⟨q, turns, there, notified⟩ := PollingPool.poller_projects begun run ⟨p, alive⟩
  obtain rfl : p = q := Option.some.inj (alive.symm.trans there)
  -- The channel of the executor and the one to its poller thread are in series.
  have follows : ∀ (s : PollingPool n V) act t, PollingPool.next features policy s act = some t →
      Pool.next features s.pool act.act = some t.pool := fun _ _ _ => PollingPool.next_pool
  have first := (Pool.channel_relays features worker).pull follows
  have second := (Pool.pollHandle_relays on worker).pull follows
  have passes : ∀ (s : PollingPool n V) (act : PollingAction n V), s.pool.hands worker act.act =
      (s.pool.takes worker act.act).bind Transaction.ioOp := fun _ _ => rfl
  rw [PollingPool.turnsTo_message]
  refine ⟨?_, fun loops => ?_, turns, notified⟩
  -- An executor that is gone has taken a part of its messages only.
  · have part := first.series_prefix second passes
      (fun s act => s.pool.takes_prefix worker act.act)
      (fun s act gone => Pool.takes_of_exited (not_not.mp gone).1) run opened
    simpa [noMessage, noRequest, PollingPool.ioSentTo] using part
  -- The messages that it has not taken yet are still in its channel.
  · have whole := first.series second passes run (fun gone => loops gone.1) opened
    simpa [noMessage, noRequest, PollingPool.ioSentTo] using whole.symm

/-- A descriptor is registered with a notifier, and its first event is polled for. -/
def registersAndPolls {n : Nat} (worker : Fin n) : List (PollingAction n Nat) :=
  [.call (.submitIoOp (Registration.rawFd 7 none (some 1)).operation), .store 0, .send 0,
    .call .poll, .store 1, .send 1, .recv worker false .pending, .check worker,
    .recv worker false .pending, .pollerRecv worker, .pollerRecv worker].map fun act =>
      ⟨act, ⟨none, true, 2, [2]⟩, .ok [⟨0, 1⟩]⟩

/-- One executor with its poller thread. -/
def oneExecutor : PollingPool 1 Nat := .started ⟨false, true⟩ (.initialized ⟨false, true⟩)

/-- The event goes to the notifier, as it does when the poller is alone. -/
theorem poller_threads_sequential_notified :
    ∃ s p, Run (Steps (PollingPool.next ⟨false, true⟩ .inOrder)) oneExecutor
        (registersAndPolls 0) s ∧ s.pollers 0 = some p ∧
      p.registry = [⟨7, 2, 0, rwInterests⟩] ∧
      Run (Steps (Poller.turn .inOrder)) .new
        (oneExecutor.turnsTo ⟨false, true⟩ .inOrder (registersAndPolls 0) 0) p ∧
      observed (Poller.turn .inOrder) Poller.notifies .new
        (oneExecutor.turnsTo ⟨false, true⟩ .inOrder (registersAndPolls 0) 0) =
          [[(1, ⟨0, 1⟩)]] := by
  -- The replay gives the registry and the sends, and the theorem that the poller alone has them.
  have replayed : (replay (PollingPool.next ⟨false, true⟩ .inOrder) oneExecutor
      (registersAndPolls 0)).map (fun s => (s.pollers 0).map Poller.registry ==
        some [⟨7, 2, 0, rwInterests⟩]) = some true := by decide
  have sends : observed (PollingPool.next ⟨false, true⟩ .inOrder) (fun s => s.notifies 0)
      oneExecutor (registersAndPolls 0) = [[(1, ⟨0, 1⟩)]] := by decide
  obtain ⟨s, run, final⟩ := Run.of_replay_test replayed
  obtain ⟨p, alive, registry⟩ := Option.map_eq_some_iff.mp (beq_iff_eq.mp final)
  obtain ⟨-, -, alone, notified⟩ := poller_threads_sequential rfl run 0 alive
  exact ⟨s, p, run, alive, registry, alone, notified.symm.trans sends⟩

end PollerThreads

end Imputio
