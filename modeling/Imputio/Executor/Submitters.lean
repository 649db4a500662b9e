import Imputio.Executor.Stranded

/-! Callers that wait for the reply to an I/O operation, and the executors they wait for. -/

namespace Imputio

open Transition

/-- The call that waits for the reply to a message. -/
def Transaction.reply : Transaction → Option CallId
  | .submitIoOp _ reply => some reply
  | _ => none

/-- The calls whose requests are in the channel of an executor. -/
def Executor.owed (exec : Executor) : Multiset CallId :=
  ↑(exec.rx.queue.filterMap Transaction.reply)

/-- A call is owed a reply as long as its request is in the channel. -/
theorem Executor.mem_owed {exec : Executor} {call : CallId} :
    call ∈ exec.owed ↔ ∃ op, .submitIoOp op call ∈ exec.rx.queue := by
  -- Only a submitted operation carries a call to reply to.
  rw [owed, Multiset.mem_coe, List.mem_filterMap]
  constructor
  · rintro ⟨message, there, carries⟩
    cases message with
    | submitIoOp op reply =>
      obtain rfl : reply = call := Option.some.inj carries
      exact ⟨op, there⟩
    | spawn task => simp [Transaction.reply] at carries
    | poll => simp [Transaction.reply] at carries
  · rintro ⟨op, there⟩
    exact ⟨_, there, rfl⟩

namespace Pool

variable {n : Nat} {V : Type*} {features : Features} {s t : Pool n V} {act : PoolAction n V}
  {call : CallId}

/-- The calls whose requests are in the channel of one executor of a pool. -/
def owed (s : Pool n V) (worker : Fin n) : Multiset CallId := (s.executors worker).owed

/-- Every waiting caller has its one request in the channel of an executor that is in its loop. -/
structure NoneWaitsInVain (s : Pool n V) : Prop where
  served : ∀ worker op call, .submitIoOp op call ∈ (s.executors worker).rx.queue →
    s.calls call = .waiting → (s.executors worker).state ≠ .exited
  owed : ∀ call, s.calls call = .waiting →
    ∃ worker op, .submitIoOp op call ∈ (s.executors worker).rx.queue

/-- No executor leaves its loop with an I/O operation still in its channel. -/
def LeavesNoRequest (features : Features) (s : Pool n V) (act : PoolAction n V) : Prop :=
  ∀ worker, s.Leaves features act worker →
    ∀ op call, .submitIoOp op call ∉ (s.executors worker).rx.queue

/-- The requests in the channels are those of the waiting callers, each of them once. -/
structure Awaited (s : Pool n V) : Prop where
  once : ∀ call, (Ledger.total s.owed).count call = if s.calls call = .waiting then 1 else 0
  unused : ∀ call, s.nextCall ≤ call → s.calls call = .unused
  borrowed : s.held = false → ∀ call, (s.calls call).active = false
  connected : ∀ worker, (s.executors worker).rx.connected = true ↔
    (s.executors worker).state ≠ .exited

/-- Replacing an executor changes what its own channel owes. -/
theorem setExecutor_owed (s : Pool n V) (worker : Fin n) (exec : Executor) :
    (s.setExecutor worker exec).owed = Function.update s.owed worker exec.owed := by
  -- What a channel owes depends on its own executor.
  funext other
  unfold owed
  rw [setExecutor_apply, Function.update_apply]
  split <;> rfl

/-- An executor that keeps its requests can be replaced. -/
theorem setExecutor_owed_same {worker : Fin n} {exec : Executor}
    (same : exec.owed = s.owed worker) : (s.setExecutor worker exec).owed = s.owed := by
  rw [setExecutor_owed, same, Function.update_eq_self]

/-- Channels that are dropped owe nothing any more. -/
theorem dropChannels_owed (s : Pool n V) (gone : Fin n → Bool) (worker : Fin n) :
    (s.dropChannels gone).owed worker = if gone worker then 0 else s.owed worker := by
  unfold owed dropChannels
  by_cases here : gone worker <;> simp [here, Executor.owed]

/-- What a call was waiting for is owed exactly once. -/
theorem Awaited.mem_total (awaited : s.Awaited) :
    call ∈ Ledger.total s.owed ↔ s.calls call = .waiting := by
  rw [← Multiset.count_pos, awaited.once]
  split <;> simp_all

/-- A channel owes a reply only to callers that wait. -/
theorem Awaited.waiting (awaited : s.Awaited) {worker : Fin n} (there : call ∈ s.owed worker) :
    s.calls call = .waiting := by
  -- What one channel owes is a part of what all of them owe.
  rw [← awaited.mem_total]
  exact Multiset.mem_of_le (Finset.single_le_sum_of_canonicallyOrdered (Finset.mem_univ worker))
    there

/-- Without the coordinator nobody waits. -/
theorem Awaited.owed_eq_zero (awaited : s.Awaited) (idle : ∀ call, (s.calls call).active = false)
    (worker : Fin n) : s.owed worker = 0 := by
  -- Somebody who is owed a reply waits, and who waits is active.
  rw [Multiset.eq_zero_iff_forall_notMem]
  intro call there
  have waits := awaited.waiting there
  have calm := idle call
  simp [waits, CallProgress.active] at calm

/-- What a step does to the requests in the channels and to those who wait for them. -/
inductive Requests (s : Pool n V) : PoolAction n V → Pool n V → Prop
  | kept {act : PoolAction n V} {t : Pool n V} (owed : t.owed = s.owed)
      (waiting : ∀ call, t.calls call = .waiting ↔ s.calls call = .waiting) : Requests s act t
  | submitted {call : CallId} {op : Operation} {index : Nat} {t : Pool n V} (inRange : index < n)
      (asked : s.calls call = .stored (.submitIoOp op) index)
      (connected : (s.executors ⟨index, inRange⟩).rx.connected = true)
      (owed : t.owed = Function.update s.owed ⟨index, inRange⟩ (call ::ₘ s.owed ⟨index, inRange⟩))
      (calls : t.calls = Function.update s.calls call .waiting) : Requests s (.send call) t
  | answered {worker : Fin n} {coin : Bool} {outcome : FutureStep V} {call : CallId}
      {op : Operation} {rest : Multiset CallId} {t : Pool n V}
      (head : (s.executors worker).rx.queue.head? = some (.submitIoOp op call))
      (front : s.owed worker = call ::ₘ rest)
      (owed : t.owed = Function.update s.owed worker rest) (served : t.calls call ≠ .waiting)
      (others : ∀ other, other ≠ call → t.calls other = s.calls other) :
      Requests s (.recv worker coin outcome) t

/-- A call that does not wait before or after changes nothing about who waits. -/
theorem waiting_update {state : CallProgress} (before : s.calls call ≠ .waiting)
    (after : state ≠ .waiting) (other : CallId) :
    Function.update s.calls call state other = .waiting ↔ s.calls other = .waiting := by
  -- The one call is in neither state, and the others are as they were.
  by_cases same : other = call
  · subst same
    simp [before, after]
  · simp [same]

/-- Adding a message without a reply leaves the requests as they are. -/
theorem push_owed {exec : Executor} {message : Transaction} (plain : message.reply = none) :
    (exec.push message).owed = exec.owed := by
  simp [Executor.owed, Executor.push, plain]

/-- An executor that leaves its loop keeps its requests, unless nobody waits at all. -/
theorem leave_owed (worker : Fin n) (idle : s.held = false → ∀ worker, s.owed worker = 0) :
    (s.leave worker).owed = s.owed := by
  -- The channel is dropped only if the coordinator is gone, and then nobody waits.
  funext other
  unfold leave
  rw [dropChannels_owed]
  split
  · rename_i gone
    obtain ⟨-, unheld⟩ : other = worker ∧ s.held = false := by simpa [setExecutor] using gone
    exact (idle unheld other).symm
  · -- The channel is disconnected, but what is in it stays.
    show (s.setExecutor worker (s.executors worker).leave).owed other = s.owed other
    rw [setExecutor_owed_same]
    rfl

/-- A channel whose oldest message is taken owes the reply to that message no more. -/
theorem owed_taken {exec after : Executor} {message : Transaction} {rest : List Transaction}
    (front : exec.rx.queue = message :: rest) (queue : after.rx.queue = rest) :
    exec.owed = ↑(message.reply.toList) + after.owed := by
  rw [Executor.owed, Executor.owed, queue, front, List.filterMap_cons, Multiset.coe_add]
  cases message.reply <;> rfl

/-- Polling a task leaves the requests as they are, even if it ends the thread. -/
theorem polled_owed {worker : Fin n} {exec : Executor} {task : ImputioTask}
    {outcome : FutureStep V} (idle : s.held = false → ∀ worker, s.owed worker = 0)
    (same : exec.owed = s.owed worker) : (s.polled worker exec task outcome).owed = s.owed := by
  -- A panic ends the thread, and the channel it leaves still holds its requests.
  have replaced : (s.setExecutor worker exec).owed = s.owed := setExecutor_owed_same same
  cases outcome with
  | ready value => exact replaced
  | pending => exact replaced
  | panicked =>
    refine (leave_owed worker fun unheld other => ?_).trans replaced
    exact (congrFun replaced other).trans (idle unheld other)

/-- Polling a task concerns no call. -/
theorem polled_calls (s : Pool n V) (worker : Fin n) (exec : Executor) (task : ImputioTask)
    (outcome : FutureStep V) : (s.polled worker exec task outcome).calls = s.calls ∧
      (s.polled worker exec task outcome).nextCall = s.nextCall := by
  cases outcome <;> exact ⟨rfl, rfl⟩

/-- Every step has one of these effects. -/
theorem step_requests (awaited : s.Awaited) (step : Steps (next features) s act t) :
    Requests s act t := by
  -- A step keeps the requests, adds one to a channel or answers the one at a front.
  have idle : s.held = false → ∀ worker, s.owed worker = 0 :=
    fun unheld => awaited.owed_eq_zero (awaited.borrowed unheld)
  -- Taking a message without a reply leaves what is owed.
  have plain : ∀ {worker : Fin n} {message : Transaction} {rest : List Transaction}
      {after : Executor}, (s.executors worker).rx.queue = message :: rest →
      message.reply = none → after.rx.queue = rest → after.owed = s.owed worker := by
    intro worker message rest after front silent queue
    refine ((owed_taken front queue).trans ?_).symm
    rw [silent]
    exact zero_add _
  -- Besides sending and receiving, no step touches a request or a waiting caller.
  cases step_next step with
  | called =>
    refine .kept rfl (waiting_update ?_ ?_)
    · simp [awaited.unused s.nextCall (Nat.le_refl _)]
    · unfold Pool.asked
      split <;> simp
  | stored loaded => exact .kept rfl (waiting_update (by simp [loaded]) (by simp))
  | @spawned call priority index asked inRange =>
    have same : ((s.executors ⟨index, inRange⟩).push (.spawn ⟨s.nextTask, priority⟩)).owed =
        s.owed ⟨index, inRange⟩ := push_owed rfl
    refine .kept ?_ (waiting_update (by simp [asked]) (by simp))
    exact setExecutor_owed_same (s := s.create call) same
  | refused asked => exact .kept rfl (waiting_update (by simp [asked]) (by simp))
  | pollSent asked =>
    exact .kept (setExecutor_owed_same (push_owed rfl))
      (waiting_update (s := s) (by simp [asked]) (by simp))
  | pollRefused asked => exact .kept rfl (waiting_update (by simp [asked]) (by simp))
  | @opSent call op index asked inRange connected =>
    refine .submitted inRange asked connected ?_ rfl
    -- The request goes to the end of the channel of the chosen executor.
    refine (setExecutor_owed ..).trans (congrArg _ ?_)
    have moved : ((s.executors ⟨index, inRange⟩).rx.queue ++
        [Transaction.submitIoOp op call]).filterMap Transaction.reply =
        (s.executors ⟨index, inRange⟩).rx.queue.filterMap Transaction.reply ++ [call] := by
      simp [Transaction.reply]
    rw [owed, Executor.owed, Executor.owed, Executor.push, moved, Multiset.cons_coe,
      Multiset.coe_eq_coe]
    exact List.perm_append_singleton ..
  | opRefused asked => exact .kept rfl (waiting_update (by simp [asked]) (by simp))
  | outOfRange asked => exact .kept rfl (waiting_update (by simp [asked]) (by simp))
  | received answered => exact .kept rfl (waiting_update (by simp [answered]) (by simp))
  | idled => exact .kept (setExecutor_owed_same rfl) fun _ => Iff.rfl
  | enqueued _ front => exact .kept (setExecutor_owed_same (plain front rfl rfl)) fun _ => Iff.rfl
  | unpolled _ front => exact .kept (setExecutor_owed_same (plain front rfl rfl)) fun _ => Iff.rfl
  | polled _ front _ _ ended =>
    refine .kept (polled_owed idle ?_) fun _ => by rw [(s.polled_calls ..).1]
    rcases ended with ⟨-, rfl⟩ | ⟨-, rfl⟩
    · exact plain front rfl rfl
    · exact plain front rfl rfl
  | @served worker coin outcome reply op rest receiving front =>
    -- The request that is taken is the one that its caller waits for.
    set exec := ((s.executors worker).take rest).pushToPoller op
    have owes : s.owed worker = reply ::ₘ exec.2.owed :=
      (owed_taken front rfl).trans (Multiset.singleton_add reply _)
    have there : reply ∈ s.owed worker := owes ▸ Multiset.mem_cons_self reply _
    have waits : (s.setExecutor worker exec.2).calls reply = .waiting := awaited.waiting there
    rw [answer_waiting waits]
    refine .answered (by rw [front]; rfl) owes (setExecutor_owed s worker exec.2) ?_ ?_
    · simp [setCall]
    · intro other apart
      simp [setCall, apart, setExecutor]
  | left => exact .kept (leave_owed _ idle) fun _ => Iff.rfl
  | stayed => exact .kept (setExecutor_owed_same rfl) fun _ => Iff.rfl
  | flagged => exact .kept rfl fun _ => Iff.rfl
  | released held calm =>
    refine .kept ?_ fun _ => Iff.rfl
    -- Nobody borrows the coordinator, so nothing is owed to anyone.
    have silent : ∀ call, (s.calls call).active = false := by
      intro call
      rcases Nat.lt_or_ge call s.nextCall with made | beyond
      · exact calm call made
      · rw [awaited.unused call beyond]
        rfl
    funext worker
    rw [dropChannels_owed]
    split
    · exact (awaited.owed_eq_zero silent worker).symm
    · rfl
  | pollerTook => exact .kept (setExecutor_owed_same rfl) fun _ => Iff.rfl
  | pollerLeft => exact .kept (setExecutor_owed_same rfl) fun _ => Iff.rfl

/-- A step moves only calls in progress, or starts the next one on a coordinator that is held. -/
theorem calls_cases (step : Steps (next features) s act t) (call : CallId) :
    (t.nextCall = s.nextCall ∧ (t.calls call = s.calls call ∨ (s.calls call).active = true)) ∨
      s.held = true ∧ t.nextCall = s.nextCall + 1 ∧
        (call = s.nextCall ∨ t.calls call = s.calls call) := by
  -- One call at most is changed, and it was in progress unless it is new.
  have changed : ∀ {changed : CallId} {state : CallProgress},
      (s.calls changed).active = true → Function.update s.calls changed state call = s.calls call ∨
        (s.calls call).active = true := by
    intro changed state active
    by_cases same : call = changed
    · exact .inr (same ▸ active)
    · exact .inl (by simp [same])
  have dispatched : ∀ {other : CallId} {request : CoordinatorCall} {index : Nat},
      s.calls other = .stored request index → (s.calls other).active = true := by
    intro other request index asked
    rw [asked]
    rfl
  cases step_next step with
  | called held =>
    refine .inr ⟨held, rfl, ?_⟩
    by_cases new : call = s.nextCall
    · exact .inl new
    · exact .inr (by simp [setCall, new])
  | stored loaded => exact .inl ⟨rfl, changed (by rw [loaded]; rfl)⟩
  | spawned asked => exact .inl ⟨rfl, changed (dispatched asked)⟩
  | refused asked => exact .inl ⟨rfl, changed (dispatched asked)⟩
  | pollSent asked => exact .inl ⟨rfl, changed (dispatched asked)⟩
  | pollRefused asked => exact .inl ⟨rfl, changed (dispatched asked)⟩
  | opSent asked => exact .inl ⟨rfl, changed (dispatched asked)⟩
  | opRefused asked => exact .inl ⟨rfl, changed (dispatched asked)⟩
  | outOfRange asked => exact .inl ⟨rfl, changed (dispatched asked)⟩
  | received answered => exact .inl ⟨rfl, changed (by rw [answered]; rfl)⟩
  | polled =>
    obtain ⟨calls, nextCall⟩ := s.polled_calls ..
    exact .inl ⟨nextCall, .inl (congrFun calls call)⟩
  | @served worker coin outcome waiter op rest =>
    -- A caller that is answered has waited until now.
    unfold answer
    split
    · rename_i waits
      have waiting : s.calls waiter = .waiting := waits
      exact .inl ⟨rfl, changed (by rw [waiting]; rfl)⟩
    · exact .inl ⟨rfl, .inl rfl⟩
  | _ => exact .inl ⟨rfl, .inl rfl⟩

/-- A fresh pool owes nothing. -/
theorem Fresh.awaited (fresh : s.Fresh features) : s.Awaited := by
  -- No call has been made, and no channel holds anything.
  have silent : (∀ worker, s.owed worker = 0) ∧ ∀ call, s.calls call = .unused := by
    rcases fresh with rfl | rfl
    all_goals exact ⟨fun _ => rfl, fun _ => rfl⟩
  refine ⟨fun call => ?_, fun call _ => silent.2 call, fun _ call => ?_, fresh.tracked.connected⟩
  · have nothing : Ledger.total s.owed = 0 :=
      Finset.sum_eq_zero fun worker _ => silent.1 worker
    simp [nothing, silent.2]
  · rw [silent.2]
    rfl

/-- Every step keeps the requests in line with the callers. -/
theorem Awaited.step (awaited : s.Awaited) (step : Steps (next features) s act t) :
    t.Awaited := by
  -- For each call the requests that ask for its answer are counted before and after the step.
  have effect := step_effect step
  refine ⟨fun call => ?_, fun call beyond => ?_, fun unheld call => ?_, fun worker => ?_⟩
  · cases step_requests awaited step with
    | kept owed waiting =>
      rw [owed, awaited.once]
      simp only [waiting]
    | @submitted caller op index _ inRange asked connected owed calls =>
      -- The caller was not waiting, and now it waits for the one request it has sent.
      have more := congrArg (Multiset.count call) (Ledger.total_update s.owed ⟨index, inRange⟩
        (caller ::ₘ s.owed ⟨index, inRange⟩))
      rw [← owed, Multiset.count_add, Multiset.count_add, Multiset.count_cons, awaited.once] at more
      rw [calls]
      by_cases same : call = caller
      · subst same
        simp only [asked, reduceCtorEq, if_false, if_true] at more
        rw [Function.update_self, if_pos rfl]
        omega
      · rw [if_neg same] at more
        rw [Function.update_of_ne same]
        omega
    | @answered worker coin outcome caller op rest _ head front owed served others =>
      -- The one request of the caller is gone, and so is its wait.
      have less := congrArg (Multiset.count call) (Ledger.total_update s.owed worker rest)
      rw [← owed, Multiset.count_add, Multiset.count_add, front, Multiset.count_cons,
        awaited.once] at less
      by_cases same : call = caller
      · subst same
        have waits : s.calls call = .waiting :=
          awaited.waiting (front ▸ Multiset.mem_cons_self call rest)
        rw [if_pos waits, if_pos rfl] at less
        rw [if_neg served]
        omega
      · rw [if_neg same] at less
        rw [others call same]
        omega
  · rcases calls_cases step call with ⟨same, cases⟩ | ⟨-, more, cases⟩
    · have before := awaited.unused call (same ▸ beyond)
      rcases cases with kept | active
      · exact kept.trans before
      · simp [before, CallProgress.active] at active
    · have above : s.nextCall < call := by
        rw [more] at beyond
        exact beyond
      rcases cases with new | kept
      · exact absurd new (Nat.ne_of_gt above)
      · exact kept.trans (awaited.unused call (Nat.le_of_lt above))
  · rcases effect.holds.mp unheld with already | rfl
    · rcases calls_cases step call with ⟨-, same | active⟩ | ⟨held, -⟩
      · exact same ▸ awaited.borrowed already call
      · simp [awaited.borrowed already call] at active
      · simp [already] at held
    · obtain ⟨⟨-, calm⟩, rfl⟩ := enabled_iff.mp step
      rcases Nat.lt_or_ge call s.nextCall with made | beyond
      · exact calm call made
      · exact congrArg CallProgress.active (awaited.unused call beyond)
  · rw [(effect.loops worker).2, ne_eq, (effect.loops worker).1, awaited.connected]
    exact not_or.symm

/-- Nobody waits in vain exactly when the channels of those who have left owe nothing. -/
theorem Awaited.none_iff (awaited : s.Awaited) : s.NoneWaitsInVain ↔
    ∀ worker, (s.executors worker).state = .exited → s.owed worker = 0 := by
  -- Each request in a channel is that of a waiting caller, and each waiting caller has one.
  constructor
  · intro none worker exited
    rw [Multiset.eq_zero_iff_forall_notMem]
    intro call there
    obtain ⟨op, queued⟩ := Executor.mem_owed.mp there
    exact none.served worker op call queued (awaited.waiting there) exited
  · intro silent
    refine ⟨fun worker op call queued _ exited => ?_, fun call waits => ?_⟩
    · have there : call ∈ s.owed worker := Executor.mem_owed.mpr ⟨op, queued⟩
      rw [silent worker exited] at there
      exact Multiset.notMem_zero call there
    · -- Whoever waits has a request in one of the channels.
      obtain ⟨worker, -, there⟩ := Multiset.mem_sum.mp (awaited.mem_total.mpr waits)
      obtain ⟨op, queued⟩ := Executor.mem_owed.mp there
      exact ⟨worker, op, queued⟩

/-- An executor that leaves its loop answers nothing and is sent nothing in that step. -/
theorem Requests.leaves (requests : Requests s act t) {worker : Fin n}
    (leaves : s.Leaves features act worker) : t.owed worker = s.owed worker := by
  -- Only the answer to a request takes one away, and who leaves has polled a task.
  cases requests with
  | kept owed => rw [owed]
  | submitted => exact leaves.elim
  | @answered _ coin outcome call op _ _ head =>
    -- It leaves because of a poll, and the message it takes is none.
    obtain ⟨rfl, -, picks⟩ := leaves
    simp [polledTask, head] at picks

/-- The requests that a step leaves behind are those in the channels of those who leave. -/
theorem noneWaitsInVain_iff (awaited : s.Awaited) (none : s.NoneWaitsInVain)
    (step : Steps (next features) s act t) :
    t.NoneWaitsInVain ↔ s.LeavesNoRequest features act := by
  -- Before the step nothing is owed by those who have left, so only who leaves now counts.
  have loops := fun worker => ((step_effect step).loops worker).1
  have requests := step_requests awaited step
  rw [awaited.none_iff] at none
  rw [(awaited.step step).none_iff]
  constructor
  · intro silent worker leaves op call queued
    have there : call ∈ s.owed worker := Executor.mem_owed.mpr ⟨op, queued⟩
    rw [← requests.leaves leaves, silent worker ((loops worker).mpr (.inr leaves))] at there
    exact Multiset.notMem_zero call there
  · intro keeps worker exited
    rcases (loops worker).mp exited with before | leaves
    · -- Nothing is sent to an executor that has left, and it answers nothing.
      have nothing := none worker before
      cases requests with
      | kept owed => rw [owed, nothing]
      | @submitted call op index _ inRange asked connected owed calls =>
        have apart : worker ≠ ⟨index, inRange⟩ := by
          rintro rfl
          exact (awaited.connected _).mp connected before
        rw [owed, Function.update_of_ne apart, nothing]
      | @answered taker coin outcome call op rest _ head front owed =>
        have apart : worker ≠ taker := by
          rintro rfl
          rw [nothing] at front
          exact Multiset.cons_ne_zero front.symm
        rw [owed, Function.update_of_ne apart, nothing]
    · rw [requests.leaves leaves, Multiset.eq_zero_iff_forall_notMem]
      intro call there
      obtain ⟨op, queued⟩ := Executor.mem_owed.mp there
      exact keeps worker leaves op call queued

end Pool

section Submitters

variable {n : Nat} {V : Type*} {features : Features} {start last : Pool n V}
  {acts : List (PoolAction n V)}

/--
No caller ever waits for an executor that has left its loop exactly in the runs in which no
executor leaves an I/O operation in its channel.
-/
theorem no_submitter_stranded (fresh : start.Fresh features)
    (run : Run (Steps (Pool.next features)) start acts last) :
    Throughout (Steps (Pool.next features)) start Pool.NoneWaitsInVain acts ↔
      Run (Guarded (Pool.LeavesNoRequest features) (Steps (Pool.next features))) start acts
        last := by
  -- One step decides, so the general rule for guarded runs applies.
  have awaited := fresh.awaited
  have init : start.NoneWaitsInVain := by
    rw [awaited.none_iff]
    rintro worker -
    rcases fresh with rfl | rfl
    all_goals rfl
  exact run.throughout_iff_guarded steps_functional awaited
    (fun _ _ _ before step => before.step step) init
    fun _ _ _ before none step => Pool.noneWaitsInVain_iff before none step

/-- An operation that is submitted just before the executor reads the raised flag. -/
def submittedTooLate : List (PoolAction 1 Nat) :=
  [.recv 0 false .pending, .call (.submitIoOp (.deleteRegistration 5)), .store 0, .send 0,
    .shutdown, .check 0]

/-- The executor has left its loop, and the caller waits for a reply that nobody will send. -/
theorem shutdown_strands_submitter :
    ∃ s : Pool 1 Nat, Run (Steps (Pool.next ⟨false, true⟩)) (Pool.initialized ⟨false, true⟩)
      submittedTooLate s ∧ s.calls 0 = .waiting ∧ (s.executors 0).state = .exited ∧
      ¬ s.NoneWaitsInVain := by
  -- The run is replayed, and its last state is tested.
  have replayed : (replay (Pool.next ⟨false, true⟩)
      (Pool.initialized ⟨false, true⟩ : Pool 1 Nat) submittedTooLate).map
      (fun s => s.calls 0 == .waiting && (s.executors 0).state == .exited &&
        (s.executors 0).rx.queue == [.submitIoOp (.deleteRegistration 5) 0]) = some true := by
    decide
  obtain ⟨s, run, stranded⟩ := Run.of_replay_test replayed
  simp only [Bool.and_eq_true, beq_iff_eq] at stranded
  obtain ⟨⟨waits, exited⟩, queue⟩ := stranded
  refine ⟨s, run, waits, exited, fun none => ?_⟩
  exact none.served 0 (.deleteRegistration 5) 0 (by simp [queue]) waits exited

/-- The executor takes an operation, and leaves once the flag is raised. -/
def answeredInTime {n : Nat} (worker : Fin n) : List (PoolAction n Nat) :=
  [.call (.submitIoOp (.deleteRegistration 5)), .store 0, .send 0, .recv worker false .pending,
    .shutdown, .check worker]

/-- The same operation is answered when the executor takes it before the flag is raised. -/
theorem no_submitter_stranded_answered :
    ∃ s : Pool 1 Nat, Run (Steps (Pool.next ⟨false, true⟩)) (.initialized ⟨false, true⟩)
        (answeredInTime 0) s ∧ (s.executors 0).state = .exited ∧
      s.calls 0 = .answered (some (.ok ())) ∧
      Throughout (Steps (Pool.next ⟨false, true⟩)) (.initialized ⟨false, true⟩ : Pool 1 Nat)
        Pool.NoneWaitsInVain (answeredInTime 0) := by
  -- The executor leaves in the last step only, with an empty channel.
  have quiet : ∀ {s t : Pool 1 Nat} {act : PoolAction 1 Nat},
      (∀ worker, ¬ s.Leaves ⟨false, true⟩ act worker) → Steps (Pool.next ⟨false, true⟩) s act t →
      Guarded (Pool.LeavesNoRequest ⟨false, true⟩) (Steps (Pool.next ⟨false, true⟩)) s act t :=
    fun stays step => ⟨fun worker leaves => absurd leaves (stays worker), step⟩
  have run : Run (Guarded (Pool.LeavesNoRequest ⟨false, true⟩) (Steps (Pool.next ⟨false, true⟩)))
      (Pool.initialized ⟨false, true⟩ : Pool 1 Nat) (answeredInTime 0) _ :=
    .cons (quiet (fun _ => not_false) rfl) <|
    .cons (quiet (fun _ => not_false) rfl) <|
    .cons (quiet (fun _ => not_false) rfl) <|
    .cons (quiet (fun _ leaves => by simp [Pool.Leaves] at leaves) rfl) <|
    .cons (quiet (fun _ => not_false) rfl) <|
    .cons ⟨fun worker _ op call queued => by
      obtain rfl := Subsingleton.elim worker 0
      exact absurd queued List.not_mem_nil, rfl⟩ .nil
  exact ⟨_, run.unguard, rfl, rfl, (no_submitter_stranded (.inl rfl) run.unguard).mpr run⟩

end Submitters

end Imputio
