import Imputio.Executor.Pollers

/-! Registrations from end to end: what the caller is told and what the poller has done. -/

namespace Imputio

open Transition

/-- The errors of the runtime. -/
inductive RuntimeError where
  | executorError (error : ExecError)
  | stdIo
  | ioPoller (error : PollError)
  | internal (message : String)
  deriving DecidableEq, Repr

/-- Whether the build has a poller at all. -/
def checkIo (features : Features) : Except RuntimeError Unit :=
  if !features.io then .error (.internal "IO feature is not currently enabled") else .ok ()

/-- Submit an operation; the argument is what `submit_io_op` does on the current coordinator. -/
def addOperationToIoPoller (features : Features) (submitIoOp : Operation → ExecResult Unit)
    (op : Operation) : Except RuntimeError Unit := do
  checkIo features
  (submitIoOp op).mapError .executorError

/-- Register a listening socket. -/
def registerTcpSocket (features : Features) (submitIoOp : Operation → ExecResult Unit)
    (listener : StdTcpListener) (interest : Option Interest) (notifier : Option ChannelId) :
    Except RuntimeError Unit := do
  checkIo features
  let interest := interest.getD ((Interest.readable.add .writable).add .priority)
  addOperationToIoPoller features submitIoOp (.registrationTcpAdd listener interest notifier)

/-- Register a raw descriptor. -/
def registerFd (features : Features) (submitIoOp : Operation → ExecResult Unit) (fd : RawFd)
    (interest : Option Interest) (notifier : Option ChannelId) : Except RuntimeError Unit := do
  checkIo features
  let interest := interest.getD ((Interest.readable.add .writable).add .priority)
  addOperationToIoPoller features submitIoOp (.registrationFdAdd fd interest notifier)

/-- A call of one of the two functions that register a source. -/
inductive Registration where
  | tcpSocket (listener : StdTcpListener) (interest : Option Interest)
    (notifier : Option ChannelId)
  | rawFd (fd : RawFd) (interest : Option Interest) (notifier : Option ChannelId)
  deriving DecidableEq, Repr

namespace Registration

/-- The operation that a registration submits. -/
def operation : Registration → Operation
  | .tcpSocket listener interest notifier =>
    .registrationTcpAdd listener (interest.getD rwInterests) notifier
  | .rawFd fd interest notifier => .registrationFdAdd fd (interest.getD rwInterests) notifier

/-- What a registration returns, given what becomes of the operation that it submits. -/
def register (features : Features) (submitIoOp : Operation → ExecResult Unit) :
    Registration → Except RuntimeError Unit
  | .tcpSocket listener interest notifier =>
    registerTcpSocket features submitIoOp listener interest notifier
  | .rawFd fd interest notifier => registerFd features submitIoOp fd interest notifier

/-- Every registration asks for events. -/
theorem watches (reg : Registration) : reg.operation.Watches := by
  cases reg <;> trivial

end Registration

/-- What a call returns as soon as it is known. -/
def Pool.reply {n : Nat} {V : Type*} (s : Pool n V) (call : CallId) : Option (ExecResult Unit) :=
  match s.calls call with
  | .answered reply => some (reply.getD (.error .actorRcv))
  | .returned result => some result
  | _ => none

/-- The poller has registered a source with the kernel. -/
def Poller.HasRegistered (p : Poller) (source : RawFd) : Prop :=
  ∃ entry ∈ p.accepted, entry.source = source

namespace Poller

variable {policy : KeyPolicy} {p after : Poller} {op : Operation} {os : OsReply}
  {result : PollResult Unit}

/-- Whatever is pushed, what has been registered is not taken back. -/
theorem pushTokenEntry_grows (pushed : p.pushTokenEntry policy op os = some (after, result)) :
    p.accepted ⊆ after.accepted := by
  obtain ⟨new, grown, -⟩ := pushTokenEntry_registry pushed
  exact grown ▸ List.subset_append_left ..

/-- A source that the kernel accepts is registered. -/
theorem asked_registered {source : RawFd} {file : FileId} {token : Nat}
    (asked : p.Asked source file token os after result) (ok : result = .ok ()) :
    after.HasRegistered source := by
  -- What is accepted is added to the history, and a refusal is an error.
  rcases asked with ⟨-, -, grown⟩ | ⟨-, error, -⟩
  · exact ⟨_, grown ▸ List.mem_append_right _ (List.mem_singleton_self _), rfl⟩
  · simp [ok] at error

/-- A registration that succeeds has registered its source. -/
theorem pushTokenEntry_registered (pushed : p.pushTokenEntry policy op os = some (after, result))
    (ok : result = .ok ()) (watching : op.Watches) : after.HasRegistered op.rawFd := by
  -- An operation that could not clone its listener has failed.
  cases pushed_effect pushed with
  | refused => simp at ok
  | leaked => simp at ok
  | rewritten known occupied cloned ids slots subject notify watches =>
    exact asked_registered (watches watching).2 ok
  | added unknown cloned ids slots subject notify watches =>
    exact asked_registered (watches watching).2 ok

end Poller

namespace PollingPool

variable {n : Nat} {V : Type*} {features : Features} {policy : KeyPolicy} {s t : PollingPool n V}
  {act : PollingAction n V}

/-- The result of every operation that was pushed is what its submitter is told. -/
structure ErrorsReported (features : Features) (s : PollingPool n V) : Prop where
  reported : ∀ done ∈ s.processed, ∀ reply, s.pool.reply done.call = some reply →
    done.result ≠ .ok () →
      addOperationToIoPoller features (fun _ => reply) done.op ≠ .ok ()
  registered : ∀ done ∈ s.processed, ∀ reply, s.pool.reply done.call = some reply →
    ∀ reg : Registration, reg.operation = done.op →
      reg.register features (fun _ => reply) = .ok () →
      ∀ p, s.pollers done.worker = some p → p.HasRegistered done.op.rawFd

/-- The system does what is needed for an operation that is pushed. -/
def Accepts (s : PollingPool n V) (act : PollingAction n V) : Prop :=
  ∀ op ∈ s.pushes act, op.Accepted act.os

instance (s : PollingPool n V) (act : PollingAction n V) : Decidable (s.Accepts act) :=
  inferInstanceAs (Decidable (∀ op ∈ s.pushes act, op.Accepted act.os))

/-- Everyone whose operation was handed to a poller thread is told so, and nothing else. -/
structure Forwarded (s : PollingPool n V) : Prop where
  awaited : s.pool.Awaited
  aligned : ∀ worker, (s.handed worker).map Prod.snd = (s.pool.executors worker).submitted
  handed : ∀ worker, ∀ entry ∈ s.handed worker, s.pool.reply entry.1 = some (.ok ())
  processed : ∀ done ∈ s.processed, s.pool.reply done.call = some (.ok ())
  tables : (∀ done ∈ s.processed, done.result = .ok ()) →
    ∀ worker p, s.pollers worker = some p → p.TableInv
  registered : ∀ done ∈ s.processed, done.result = .ok () → done.op.Watches →
    ∀ p, s.pollers done.worker = some p → p.HasRegistered done.op.rawFd

/-- A caller that is answered returns the answer. -/
theorem reply_answer {pool : Pool n V} {call : CallId} {result : ExecResult Unit}
    (waits : pool.calls call = .waiting) : (pool.answer call result).reply call = some result := by
  simp [Pool.answer_waiting waits, Pool.reply, Pool.setCall]

/-- What a call returns does not change once it is known. -/
theorem reply_step {s t : Pool n V} {act : PoolAction n V} {call : CallId}
    {result : ExecResult Unit} (awaited : s.Awaited) (step : Steps (Pool.next features) s act t)
    (known : s.reply call = some result) : t.reply call = some result := by
  -- The calls whose state changes have no reply yet, but for those that take it.
  have other : ∀ {changed : CallId} {state : CallProgress},
      t.calls = Function.update s.calls changed state → s.reply changed = none →
        t.reply call = some result := by
    intro changed state calls unknown
    have apart : call ≠ changed := by
      rintro rfl
      simp [known] at unknown
    rw [Pool.reply, calls, Function.update_of_ne apart]
    exact known
  cases Pool.step_traffic step with
  | quiet _ _ _ _ calls =>
    rw [Pool.reply, calls]
    exact known
  | asked calls =>
    refine other calls ?_
    rw [Pool.reply, awaited.unused _ (Nat.le_refl _)]
  | stored loaded calls =>
    refine other calls ?_
    rw [Pool.reply, loaded]
  | sent asked calls =>
    refine other calls ?_
    rw [Pool.reply, asked]
  | @received taker reply _ answered calls =>
    by_cases same : call = taker
    · subst same
      rw [Pool.reply, calls, Function.update_self]
      rw [Pool.reply, answered] at known
      exact known
    · rw [Pool.reply, calls, Function.update_of_ne same]
      exact known
  -- The caller that is answered now had no reply before.
  | @served worker coin outcome waiter op rest answer exec =>
    by_cases waits : s.calls waiter = .waiting
    · have waiting : (s.setExecutor worker exec).calls waiter = .waiting := waits
      refine other (congrArg Pool.calls (Pool.answer_waiting waiting)) ?_
      rw [Pool.reply, waits]
    · have silent : (s.setExecutor worker exec).calls waiter ≠ .waiting := waits
      rw [Pool.answer_silent silent]
      exact known
  | taken => exact known

/-- The oldest operation on its way to a poller thread is the one that was handed over first. -/
theorem Forwarded.head (forwarded : s.Forwarded) {worker : Fin n} {op : Operation}
    {rest : List IoOp}
    (front : (s.pool.executors worker).pollHandle.queue = .submit op :: rest) :
    ∃ call later, s.handed worker = (call, op) :: later ∧
      later.map Prod.snd = rest.filterMap IoOp.operation := by
  -- The operations in the channel are those that were handed over, in the same order.
  have aligned : (s.handed worker).map Prod.snd = op :: rest.filterMap IoOp.operation := by
    rw [forwarded.aligned, Executor.submitted, front]
    rfl
  obtain ⟨⟨call, op'⟩, later, first, rfl, others⟩ := List.map_eq_cons_iff.mp aligned
  exact ⟨call, later, first, others⟩

/-- What is pushed to its end is recorded, with the call that was told of it. -/
theorem Forwarded.recorded (forwarded : s.Forwarded) {worker : Fin n} {op : Operation}
    {rest : List IoOp} (policy : KeyPolicy) (p : Poller) (os : OsReply)
    (front : (s.pool.executors worker).pollHandle.queue = .submit op :: rest) :
    ∃ call, s.pool.reply call = some (.ok ()) ∧
      ((p.pushTokenEntry policy op os = none ∧
          (s.submit policy worker p op os).processed = s.processed) ∨
        ∃ after result, p.pushTokenEntry policy op os = some (after, result) ∧
          (s.submit policy worker p op os).processed =
            s.processed ++ [⟨worker, call, op, (p.eventSrcIds op.rawFd).isSome, result⟩]) := by
  -- The front of the channel is the oldest operation that was handed over and not pushed.
  obtain ⟨call, later, first, -⟩ := forwarded.head front
  refine ⟨call, forwarded.handed worker (call, op) (first ▸ List.mem_cons_self), ?_⟩
  -- A panic leaves no record.
  unfold submit
  cases p.pushTokenEntry policy op os with
  | none => exact .inl ⟨rfl, by simp⟩
  | some outcome => exact .inr ⟨outcome.1, outcome.2, rfl, by simp [first]⟩

/-- Every step keeps what is told in line with what is handed over. -/
theorem Forwarded.step (forwarded : s.Forwarded) (step : Steps (next features policy) s act t) :
    t.Forwarded := by
  -- A step hands over an operation, pushes one, or does neither.
  have inner := next_pool step
  have awaited := forwarded.awaited.step inner
  have stays : ∀ {call : CallId} {result : ExecResult Unit}, s.pool.reply call = some result →
      t.pool.reply call = some result := fun known => reply_step forwarded.awaited inner known
  -- An operation is handed over with the answer to its caller, and pushed later.
  cases step_handled step with
  | kept pollers handed processed submitted unpushed =>
    refine ⟨awaited, fun worker => ?_, fun worker entry there => ?_, fun done there => ?_,
      fun fine worker p alive => ?_, fun done there ok watches p alive => ?_⟩
    · rw [handed, submitted, forwarded.aligned]
    · exact stays (forwarded.handed worker entry (handed ▸ there))
    · exact stays (forwarded.processed done (processed ▸ there))
    · exact forwarded.tables (processed ▸ fine) worker p (pollers worker p alive)
    · exact forwarded.registered done (processed ▸ there) ok watches p (pollers _ p alive)
  | @handed worker coin outcome call op rest exec os ready front submitted =>
    -- The caller of the operation has waited for this answer.
    have waits : (s.pool.setExecutor worker exec).calls call = .waiting := by
      refine forwarded.awaited.waiting (Executor.mem_owed.mpr ⟨op, ?_⟩ : call ∈ s.pool.owed worker)
      rw [front]
      exact List.mem_cons_self
    refine ⟨awaited, fun other => ?_, fun other entry there => ?_, fun done there => ?_,
      forwarded.tables, forwarded.registered⟩
    · simp only [answer_executors, Pool.setExecutor_apply, Function.update_apply]
      split
      · rw [List.map_append, forwarded.aligned, submitted]
        rfl
      · exact forwarded.aligned other
    · simp only [Function.update_apply] at there
      split at there
      · rcases List.mem_append.mp there with old | new
        · exact stays (forwarded.handed worker entry old)
        · obtain rfl := List.mem_singleton.mp new
          exact reply_answer waits
      · exact stays (forwarded.handed other entry there)
    · exact stays (forwarded.processed done there)
  | @pushed worker p op rest os ready alive front =>
    obtain ⟨_, later, first, others⟩ := forwarded.head front
    obtain ⟨call, toldCall, recorded⟩ := forwarded.recorded policy p os front
    refine ⟨awaited, fun other => ?_, fun other entry there => ?_, fun done there => ?_,
      fun fine other q now => ?_, fun done there ok watches q now => ?_⟩
    · simp only [submit, Pool.setExecutor_apply, Function.update_apply]
      split
      · rw [first, List.tail_cons, others]
        rfl
      · exact forwarded.aligned other
    · simp only [submit, Function.update_apply] at there
      split at there
      · exact stays (forwarded.handed worker entry (List.mem_of_mem_tail there))
      · exact stays (forwarded.handed other entry there)
    · rcases recorded with ⟨-, same⟩ | ⟨after, result, -, more⟩
      · exact stays (forwarded.processed done (same ▸ there))
      · rcases List.mem_append.mp (more ▸ there) with old | new
        · exact stays (forwarded.processed done old)
        · obtain rfl := List.mem_singleton.mp new
          exact stays toldCall
    · have before : ∀ done ∈ s.processed, done.result = .ok () :=
        fun done old => fine done (List.mem_append_left _ old)
      -- If nothing has failed, the push has not failed either, so the tables still agree.
      rcases submit_pollers now with ⟨-, result, pushed⟩ | ⟨-, same⟩
      · rcases recorded with ⟨panicked, -⟩ | ⟨after, result', pushed', more⟩
        · simp [panicked] at pushed
        · obtain ⟨rfl, rfl⟩ := Prod.mk.inj (Option.some.inj (pushed'.symm.trans pushed))
          have kept := Poller.pushed_kept pushed
          obtain ⟨_, _, again, -, agree⟩ := (forwarded.tables before worker p alive).push
            policy os kept
          obtain ⟨rfl, rfl⟩ := Prod.mk.inj (Option.some.inj (again.symm.trans pushed))
          exact agree (fine _ (more ▸ List.mem_append_right _ (List.mem_singleton_self _)))
      · exact forwarded.tables before other q same
    · -- An operation that was pushed now is registered now, and an older one was before.
      have old : done ∈ s.processed → q.HasRegistered done.op.rawFd := by
        intro earlier
        rcases submit_pollers now with ⟨here, result, pushed⟩ | ⟨-, same⟩
        · obtain ⟨entry, member, source⟩ :=
            forwarded.registered done earlier ok watches p (here ▸ alive)
          exact ⟨entry, Poller.pushTokenEntry_grows pushed member, source⟩
        · exact forwarded.registered done earlier ok watches q same
      rcases recorded with ⟨-, same⟩ | ⟨after, result, pushed, more⟩
      · exact old (same ▸ there)
      · rcases List.mem_append.mp (more ▸ there) with earlier | new
        · exact old earlier
        · obtain rfl := List.mem_singleton.mp new
          rcases submit_pollers now with ⟨-, result', pushed'⟩ | ⟨apart, -⟩
          · obtain ⟨rfl, rfl⟩ := Prod.mk.inj (Option.some.inj (pushed.symm.trans pushed'))
            exact Poller.pushTokenEntry_registered pushed ok watches
          · exact absurd rfl apart

/-- A fresh coordinator has handed over nothing. -/
theorem Fresh.forwarded (fresh : s.Fresh features) : s.Forwarded := by
  -- All records are empty, and the only pollers are new ones.
  obtain ⟨pool, unused, rfl⟩ := fresh
  refine ⟨unused.awaited, fun worker => ?_, fun _ _ there => ?_, fun _ there => ?_,
    fun _ worker p alive => ?_, fun _ there => ?_⟩
  · rcases unused with rfl | rfl
    · cases io : features.io <;> simp [started, Pool.initialized, Pool.withExecutors,
        Executor.initialized, Executor.submitted, Channel.unbounded, Channel.bounded,
        Channel.disconnect, io]
    · rfl
  · exact absurd there List.not_mem_nil
  · exact absurd there List.not_mem_nil
  · -- A new poller knows nothing.
    intro fd id recorded known
    simp [started_pollers alive, Poller.new] at known
  · exact absurd there List.not_mem_nil

/-- Everyone is told the truth exactly when there was no error to tell of. -/
theorem Forwarded.errorsReported_iff (forwarded : s.Forwarded) (io : features.io = true) :
    s.ErrorsReported features ↔ ∀ done ∈ s.processed, done.result = .ok () := by
  -- A submitter is answered before its operation is pushed, so that no error can be in it.
  constructor
  · intro honest done there
    by_contra failed
    -- The submitter was told that all is well.
    refine honest.reported done there (.ok ()) (forwarded.processed done there) failed ?_
    simp [addOperationToIoPoller, checkIo, io, Except.mapError]
    rfl
  · intro fine
    refine ⟨fun done there _ _ failed => absurd (fine done there) failed,
      fun done there _ _ reg submitted _ p alive => ?_⟩
    exact forwarded.registered done there (fine done there) (submitted ▸ reg.watches) p alive

/-- A step leaves no error unreported exactly when the system does what is needed. -/
theorem errorsReported_step_iff (io : features.io = true) (forwarded : s.Forwarded)
    (honest : s.ErrorsReported features) (step : Steps (next features policy) s act t) :
    t.ErrorsReported features ↔ s.Accepts act := by
  -- Only a push adds a result, and that is fine exactly if the system does what it asks for.
  rw [forwarded.errorsReported_iff io] at honest
  rw [(forwarded.step step).errorsReported_iff io]
  cases step_handled step with
  | kept pollers handed processed submitted unpushed =>
    refine iff_of_true (processed ▸ honest) ?_
    simp [Accepts, unpushed]
  | handed => exact iff_of_true honest (by simp [Accepts, pushes])
  | @pushed worker p op rest os ready alive front =>
    obtain ⟨call, -, recorded⟩ := forwarded.recorded policy p os front
    have asks : s.Accepts ⟨.pollerRecv worker, os, ready⟩ ↔ op.Accepted os := by
      simp [Accepts, pushes, front]
    rw [asks]
    rcases recorded with ⟨panicked, same⟩ | ⟨after, result, pushed, more⟩
    · -- With tables that agree only a deletion panics, and it needs nothing.
      rw [same]
      refine iff_of_true honest ?_
      obtain ⟨fd, rfl⟩ : ∃ fd, op = .deleteRegistration fd := by
        by_contra other
        obtain ⟨_, _, pushed, -⟩ := (forwarded.tables honest worker p alive).push policy os
          fun fd same => other ⟨fd, same⟩
        simp [panicked] at pushed
      exact ⟨not_false, False.elim⟩
    · have kept := Poller.pushed_kept pushed
      obtain ⟨_, _, again, exact', -⟩ := (forwarded.tables honest worker p alive).push
        policy os kept
      obtain ⟨rfl, rfl⟩ := Prod.mk.inj (Option.some.inj (again.symm.trans pushed))
      rw [more, ← exact']
      -- The results before this one are all fine already.
      constructor
      · intro fine
        exact fine _ (List.mem_append_right _ (List.mem_singleton_self _))
      · intro ok done there
        rcases List.mem_append.mp there with old | new
        · exact honest done old
        · obtain rfl := List.mem_singleton.mp new
          exact ok

end PollingPool

section Registrations

variable {n : Nat} {V : Type*} {features : Features} {policy : KeyPolicy}
  {start last : PollingPool n V} {acts : List (PollingAction n V)}

/--
The errors of the poller threads reach the callers exactly in the runs in which there are none:
the system clones every listener and accepts every source that a poller thread pushes.
-/
theorem registration_errors_reported (io : features.io = true) (fresh : start.Fresh features)
    (run : Run (Steps (PollingPool.next features policy)) start acts last) :
    Throughout (Steps (PollingPool.next features policy)) start
        (PollingPool.ErrorsReported features) acts ↔
      Run (Guarded PollingPool.Accepts (Steps (PollingPool.next features policy))) start acts
        last := by
  -- Whether all is told is decided at each push, and no push is undone.
  have forwarded := fresh.forwarded
  -- Nothing has been pushed yet, so there is nothing to report.
  have init : start.ErrorsReported features := by
    obtain ⟨pool, -, rfl⟩ := fresh
    rw [forwarded.errorsReported_iff io]
    exact fun done there => absurd there List.not_mem_nil
  exact run.throughout_iff_guarded steps_functional forwarded
    (fun _ _ _ before step => before.step step) init
    fun _ _ _ before honest step => PollingPool.errorsReported_step_iff io before honest step

/-- A raw descriptor is registered with an executor; the kernel answers what is given. -/
def registerOnce {n : Nat} (worker : Fin n) (accepted : Bool) : List (PollingAction n Nat) :=
  [.call (.submitIoOp (Registration.rawFd 7 none none).operation), .store 0, .send 0,
    .recv worker false .pending, .pollerRecv worker, .receive 0].map fun act =>
      ⟨act, ⟨none, accepted, 2, [2]⟩, .ok []⟩

/-- The kernel refuses the descriptor, and the caller is told that it is registered. -/
theorem refused_registration_succeeds :
    ∃ s : PollingPool 1 Nat, Run (Steps (PollingPool.next ⟨false, true⟩ .inOrder))
        (.started ⟨false, true⟩ (.initialized ⟨false, true⟩)) (registerOnce 0 false) s ∧
      s.pool.calls 0 = .returned (.ok ()) ∧
      (Registration.rawFd 7 none none).register ⟨false, true⟩ (fun _ => .ok ()) = .ok () ∧
      s.processed.map PushedOperation.result = [.error .ioError] ∧
      (s.pollers 0).map Poller.registry = some [] ∧ ¬ s.ErrorsReported ⟨false, true⟩ := by
  -- The run is replayed, and its last state is tested.
  have replayed : (replay (PollingPool.next ⟨false, true⟩ .inOrder)
      (.started ⟨false, true⟩ (.initialized ⟨false, true⟩) : PollingPool 1 Nat)
      (registerOnce 0 false)).map (fun s => s.pool.calls 0 == .returned (.ok ()) &&
        s.processed == [⟨0, 0, (Registration.rawFd 7 none none).operation, false,
          .error .ioError⟩] && (s.pollers 0).map Poller.registry == some []) = some true := by
    decide
  obtain ⟨s, run, final⟩ := Run.of_replay_test replayed
  simp only [Bool.and_eq_true, beq_iff_eq] at final
  obtain ⟨⟨returned, processed⟩, registry⟩ := final
  refine ⟨s, run, returned, rfl, by simp [processed], registry, fun honest => ?_⟩
  refine honest.reported _ (by rw [processed]; exact List.mem_singleton_self _) (.ok ()) ?_ ?_ rfl
  · rw [Pool.reply, returned]
  · simp

/-- The same registration is reported correctly when the kernel accepts it. -/
theorem registration_errors_reported_once :
    ∃ s : PollingPool 1 Nat, Run (Steps (PollingPool.next ⟨false, true⟩ .inOrder))
        (.started ⟨false, true⟩ (.initialized ⟨false, true⟩)) (registerOnce 0 true) s ∧
      Throughout (Steps (PollingPool.next ⟨false, true⟩ .inOrder))
        (.started ⟨false, true⟩ (.initialized ⟨false, true⟩) : PollingPool 1 Nat)
        (PollingPool.ErrorsReported ⟨false, true⟩) (registerOnce 0 true) := by
  -- Every step of the replay is tested against the condition.
  have replayed : (replay (checked PollingPool.Accepts (PollingPool.next ⟨false, true⟩ .inOrder))
      (.started ⟨false, true⟩ (.initialized ⟨false, true⟩) : PollingPool 1 Nat)
      (registerOnce 0 true)).isSome = true := by
    decide
  obtain ⟨s, guarded⟩ := Run.of_checked replayed
  exact ⟨s, guarded.unguard,
    (registration_errors_reported rfl ⟨_, .inl rfl, rfl⟩ guarded.unguard).mpr guarded⟩

end Registrations

end Imputio
