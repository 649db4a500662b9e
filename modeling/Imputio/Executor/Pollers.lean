import Imputio.Executor.Dispatch
import Imputio.Io.Table

/-! A coordinator together with the poller threads of its executors. -/

namespace Imputio

open Transition

/-- An operation that a poller thread has pushed to its end, and the call that submitted it. -/
structure PushedOperation (n : Nat) where
  worker : Fin n
  call : CallId
  op : Operation
  -- The descriptor was in the table of the poller before.
  known : Bool
  result : PollResult Unit
  deriving DecidableEq

/-- A coordinator with its executors, and the poller in the second thread of each. -/
structure PollingPool (n : Nat) (V : Type*) where
  pool : Pool n V
  -- There is no poller once its thread has ended or panicked.
  pollers : Fin n → Option Poller
  -- History: what is in the channel to each poller thread, and all that has been pushed.
  handed : Fin n → List (CallId × Operation)
  processed : List (PushedOperation n)

/-- A step, with what the system answers if a poller thread pushes an operation or polls in it. -/
structure PollingAction (n : Nat) (V : Type*) where
  act : PoolAction n V
  os : OsReply
  ready : PollResult (List Event)

namespace PollingPool

variable {n : Nat} {V : Type*}

/-- The poller threads of a coordinator that has just been made. -/
def started (features : Features) (pool : Pool n V) : PollingPool n V where
  pool := pool
  -- Without the feature there is no poller thread.
  pollers := fun _ => if features.io then some .new else none
  handed := fun _ => []
  processed := []

/-- A coordinator that nobody has used yet, with its poller threads. -/
def Fresh (features : Features) (s : PollingPool n V) : Prop :=
  ∃ pool : Pool n V, pool.Fresh features ∧ s = started features pool

/-- The operation that an executor hands to its poller thread when it takes its next message. -/
def handsOver (s : PollingPool n V) (worker : Fin n) : Option (CallId × Operation) :=
  match (s.pool.executors worker).rx.queue with
  | .submitIoOp op call :: _ =>
    match (submitOp (s.pool.executors worker).pollHandle op).1 with
    | .ok () => some (call, op)
    | .error _ => none
  | _ => none

/-- `PollerActor::submit`: the poller thread pushes an operation, and drops the result. -/
def submit (policy : KeyPolicy) (s : PollingPool n V) (worker : Fin n) (p : Poller)
    (op : Operation) (os : OsReply) : PollingPool n V where
  pool := s.pool
  pollers := Function.update s.pollers worker ((p.pushTokenEntry policy op os).map Prod.fst)
  handed := Function.update s.handed worker (s.handed worker).tail
  processed := s.processed ++
    match p.pushTokenEntry policy op os, s.handed worker with
    | some (_, result), (call, _) :: _ =>
      [⟨worker, call, op, (p.eventSrcIds op.rawFd).isSome, result⟩]
    | _, _ => []

/-- `PollerActor::run`: the poller thread processes a message. -/
def process (policy : KeyPolicy) (s : PollingPool n V) (worker : Fin n) (p : Poller)
    (message : IoOp) (os : OsReply) (ready : PollResult (List Event)) : PollingPool n V :=
  match message with
  | .submit op => s.submit policy worker p op os
  -- An error is ignored as well, and only a panic ends the thread.
  | .poll =>
    { s with
      pollers := Function.update s.pollers worker
        (if (p.poll ready).result.isNone then none else some p) }

/-- The operation that a poller thread pushes in a step. -/
def pushes (s : PollingPool n V) (act : PollingAction n V) : Option Operation :=
  match act.act with
  | .pollerRecv worker =>
    match (s.pool.executors worker).pollHandle.queue with
    | .submit op :: _ => some op
    | _ => none
  | _ => none

/-- What each action does, where it is possible. -/
def next (features : Features) (policy : KeyPolicy) (s : PollingPool n V)
    (act : PollingAction n V) : Option (PollingPool n V) :=
  (s.pool.next features act.act).bind fun pool =>
    match act.act with
    | .recv worker _ _ =>
      some { s with
        pool := pool
        handed := Function.update s.handed worker
          (s.handed worker ++ (s.handsOver worker).toList) }
    | .pollerRecv worker =>
      match s.pollers worker, (s.pool.executors worker).pollHandle.queue with
      | some p, message :: _ =>
        some ({ s with pool := pool }.process policy worker p message act.os act.ready)
      | _, _ => none
    | .pollerExit worker =>
      some { s with pool := pool, pollers := Function.update s.pollers worker none }
    | _ => some { s with pool := pool }

variable {features : Features} {policy : KeyPolicy} {s t : PollingPool n V}
  {act : PollingAction n V}

/-- Whatever the poller threads do, the coordinator and its executors take a step of their own. -/
theorem next_pool (step : Steps (next features policy) s act t) :
    Steps (Pool.next features) s.pool act.act t.pool := by
  -- The threads act after the step of the pool, and none of their actions touches it.
  obtain ⟨pool, taken, done⟩ := Option.bind_eq_some_iff.mp step
  -- Processing a message leaves the pool as it is.
  have processed : ∀ worker p message,
      (({ s with pool := pool } : PollingPool n V).process policy worker p message act.os
        act.ready).pool = pool := by
    intro worker p message
    cases message <;> rfl
  suffices same : t.pool = pool from same ▸ taken
  split at done
  · obtain rfl := Option.some.inj done
    rfl
  · split at done
    · obtain rfl := Option.some.inj done
      exact processed _ _ _
    · simp at done
  · obtain rfl := Option.some.inj done
    rfl
  · obtain rfl := Option.some.inj done
    rfl

/-- What a step does to the operations on their way to the poller threads and to the pollers. -/
inductive Handled (policy : KeyPolicy) (s : PollingPool n V) :
    PollingAction n V → PollingPool n V → Prop
  | kept {act : PollingAction n V} {t : PollingPool n V}
      (pollers : ∀ worker p, t.pollers worker = some p → s.pollers worker = some p)
      (handed : t.handed = s.handed) (processed : t.processed = s.processed)
      (submitted : ∀ worker,
        (t.pool.executors worker).submitted = (s.pool.executors worker).submitted)
      (unpushed : s.pushes act = none) :
      Handled policy s act t
  | handed {worker : Fin n} {coin : Bool} {outcome : FutureStep V} {call : CallId}
      {op : Operation} {rest : List Transaction} {exec : Executor} {os : OsReply}
      {ready : PollResult (List Event)}
      (front : (s.pool.executors worker).rx.queue = .submitIoOp op call :: rest)
      (submitted : exec.submitted = (s.pool.executors worker).submitted ++ [op]) :
      Handled policy s ⟨.recv worker coin outcome, os, ready⟩
        { s with
          pool := (s.pool.setExecutor worker exec).answer call (.ok ())
          handed := Function.update s.handed worker (s.handed worker ++ [(call, op)]) }
  | pushed {worker : Fin n} {p : Poller} {op : Operation} {rest : List IoOp} {os : OsReply}
      {ready : PollResult (List Event)} (alive : s.pollers worker = some p)
      (front : (s.pool.executors worker).pollHandle.queue = .submit op :: rest) :
      Handled policy s ⟨.pollerRecv worker, os, ready⟩
        { s.submit policy worker p op os with
          pool := s.pool.setExecutor worker
            { s.pool.executors worker with
              pollHandle := { (s.pool.executors worker).pollHandle with queue := rest } } }

/-- An answer changes no executor. -/
theorem answer_executors (pool : Pool n V) (call : CallId) (result : ExecResult Unit) :
    (pool.answer call result).executors = pool.executors := by
  unfold Pool.answer
  split <;> rfl

/-- What an executor hands over for a request is the operation, if the channel takes it. -/
theorem handsOver_of_front {worker : Fin n} {call : CallId} {op : Operation}
    {rest : List Transaction} {result : ExecResult Unit}
    (front : (s.pool.executors worker).rx.queue = .submitIoOp op call :: rest)
    (pushed : result = (submitOp (s.pool.executors worker).pollHandle op).1.mapError .ioPoller) :
    s.handsOver worker = if result = .ok () then some (call, op) else none := by
  -- The operation is handed over if its channel takes it, which is the answer as well.
  subst pushed
  unfold handsOver
  rw [front]
  simp only
  cases (submitOp (s.pool.executors worker).pollHandle op).1 <;> simp [Except.mapError]

/-- After a push, one poller is as the push has left it, and the others are as they were. -/
theorem submit_pollers {worker other : Fin n} {p q : Poller} {op : Operation} {os : OsReply}
    (now : (s.submit policy worker p op os).pollers other = some q) :
    (other = worker ∧ ∃ result, p.pushTokenEntry policy op os = some (q, result)) ∨
      other ≠ worker ∧ s.pollers other = some q := by
  -- The poller of the executor itself is compared with all others.
  simp only [submit, Function.update_apply] at now
  split at now
  · rename_i here
    obtain ⟨⟨_, result⟩, pushed, rfl⟩ := Option.map_eq_some_iff.mp now
    exact .inl ⟨here, result, pushed⟩
  · rename_i apart
    exact .inr ⟨apart, now⟩

/-- A poller thread that has just been started knows nothing. -/
theorem started_pollers {pool : Pool n V} {worker : Fin n} {p : Poller}
    (alive : (started features pool).pollers worker = some p) : p = .new := by
  -- Only the build with the feature starts pollers, and they are new.
  simp only [started] at alive
  split at alive
  · exact (Option.some.inj alive).symm
  · simp at alive

/-- Every step has one of these effects. -/
theorem step_handled (step : Steps (next features policy) s act t) : Handled policy s act t := by
  -- The traffic of the step says which thread acts, and then the thread is followed.
  obtain ⟨pool, taken, done⟩ := Option.bind_eq_some_iff.mp step
  obtain ⟨act, os, ready⟩ := act
  have traffic : s.pool.Traffic act pool := Pool.step_traffic taken
  cases traffic with
  | @quiet act pool unasked unsent unserved untaken calls index same =>
    cases act with
    | pollerRecv worker => exact absurd rfl (untaken worker)
    | recv worker coin outcome =>
      obtain rfl := Option.some.inj done
      have nothing : s.handsOver worker = none := by
        unfold handsOver
        split
        · rename_i op call rest front
          simp [Pool.served, front] at unserved
        · rfl
      refine .kept (fun _ _ => id) ?_ rfl same.submitted rfl
      rw [nothing]
      simp
    | pollerExit worker =>
      obtain rfl := Option.some.inj done
      refine .kept (fun other p alive => ?_) rfl rfl same.submitted rfl
      -- The poller that goes is not there any more.
      simp only [Function.update_apply] at alive
      split at alive
      · simp at alive
      · exact alive
    | _ =>
      obtain rfl := Option.some.inj done
      exact .kept (fun _ _ => id) rfl rfl same.submitted rfl
  | asked calls index same =>
    obtain rfl := Option.some.inj done
    exact .kept (fun _ _ => id) rfl rfl same.submitted rfl
  | stored loaded calls moved same =>
    obtain rfl := Option.some.inj done
    exact .kept (fun _ _ => id) rfl rfl same.submitted rfl
  | sent asked calls done' unmoved requested submitted =>
    obtain rfl := Option.some.inj done
    exact .kept (fun _ _ => id) rfl rfl submitted rfl
  | received answered calls index same =>
    obtain rfl := Option.some.inj done
    exact .kept (fun _ _ => id) rfl rfl same.submitted rfl
  | @served worker coin outcome call op rest result exec front queue pushed handed =>
    obtain rfl := Option.some.inj done
    rw [handsOver_of_front front pushed]
    rcases handed with ⟨rfl, submitted⟩ | ⟨rfl, submitted⟩
    · exact .handed front submitted
    · refine .kept (fun _ _ => id) ?_ rfl (fun other => ?_) rfl
      · simp
      · rw [answer_executors, Pool.setExecutor_apply]
        split
        · rename_i here
          rw [submitted, here]
        · rfl
  | @taken worker message rest front =>
    simp only at done
    split at done
    · rename_i p message' rest' alive front'
      obtain ⟨rfl, rfl⟩ := List.cons.inj (front.symm.trans front')
      obtain rfl := Option.some.inj done
      cases message with
      | submit op => exact .pushed alive front
      | poll =>
        -- A request to poll carries no operation, and may end the thread.
        refine .kept (fun other q there => ?_) rfl rfl (fun other => ?_) (by simp [pushes, front])
        · unfold process at there
          simp only [Function.update_apply] at there
          split at there
          · rename_i here
            rw [here, alive]
            split at there
            · simp at there
            · exact there
          · exact there
        · show ((s.pool.setExecutor worker _).executors other).submitted = _
          rw [Pool.setExecutor_apply]
          split
          · rename_i here
            rw [here, Executor.submitted, Executor.submitted, front]
            rfl
          · rfl
    · simp at done

end PollingPool

end Imputio
