import Imputio.Executor.Submitters

/-! Which executor each call of a coordinator reaches, and how the polls are dealt out. -/

namespace Imputio

open Transition

/-- The operation that a call submits. -/
def CoordinatorCall.operation : CoordinatorCall → Option Operation
  | .submitIoOp op => some op
  | _ => none

/-- The operation that a message to an executor carries. -/
def Transaction.operation : Transaction → Option Operation
  | .submitIoOp op _ => some op
  | _ => none

/-- The operation that a message to a poller thread carries. -/
def IoOp.operation : IoOp → Option Operation
  | .submit op => some op
  | .poll => none

/-- The operations in the channel of an executor, oldest first. -/
def Executor.requested (exec : Executor) : List Operation :=
  exec.rx.queue.filterMap Transaction.operation

/-- The operations in the channel to the poller thread of an executor, oldest first. -/
def Executor.submitted (exec : Executor) : List Operation :=
  exec.pollHandle.queue.filterMap IoOp.operation

/-- The call has read the index and has not sent its transaction yet. -/
def CallProgress.dispatching : CallProgress → Bool
  | .loaded _ _ => true
  | .stored _ _ => true
  | _ => false

/-- The call that an action makes. -/
def PoolAction.request {n : Nat} {V : Type*} : PoolAction n V → Option CoordinatorCall
  | .call request => some request
  | _ => none

/-- The calls that are made, in their order. -/
def requests {n : Nat} {V : Type*} (acts : List (PoolAction n V)) : List CoordinatorCall :=
  acts.filterMap PoolAction.request

/-- Whom a sequence of calls reaches when one is made after the other: each the next in turn. -/
def dealt (n : Nat) (requests : List CoordinatorCall) : List (CoordinatorCall × Nat) :=
  requests.mapIdx fun turn request => (request, (turn + 1) % n)

/-- The turns, counted from one, at which a sequence of calls polls. -/
def pollTurns (requests : List CoordinatorCall) : List Nat :=
  (requests.zipIdx 1).filterMap fun (request, turn) =>
    if request = .poll then some turn else none

/-- The request to poll, which may be sent to the poller thread, carries no operation. -/
theorem Executor.askIo_operations (features : Features) (exec : Executor) :
    (exec.askIo features).queue.filterMap IoOp.operation = exec.submitted := by
  -- With the feature there is one more message in the channel, and it is a `Poll`.
  unfold askIo pollIo
  split
  · split
    · rename_i after sent
      obtain ⟨-, -, rfl⟩ := Channel.send_eq_sent_iff.mp sent
      simp [submitted, IoOp.operation]
    · rfl
  · rfl

/-- Handing over an operation puts it at the end of the channel, or fails. -/
theorem Executor.pushToPoller_cases (exec : Executor) (op : Operation) :
    (exec.pushToPoller op).2.rx = exec.rx ∧
      ((exec.pushToPoller op).1 = .ok () ∧
          (exec.pushToPoller op).2.submitted = exec.submitted ++ [op] ∨
        (exec.pushToPoller op).1 = .error (.ioPoller .actorSendError) ∧
          (exec.pushToPoller op).2.submitted = exec.submitted) := by
  -- The channel takes the operation at its end, or the error is reported.
  unfold pushToPoller submitOp
  cases sent : exec.pollHandle.send (.submit op) with
  | sent after =>
    obtain ⟨-, -, rfl⟩ := Channel.send_eq_sent_iff.mp sent
    exact ⟨rfl, .inl ⟨rfl, by simp [submitted, IoOp.operation]⟩⟩
  | full => exact ⟨rfl, .inr ⟨rfl, rfl⟩⟩
  | disconnected => exact ⟨rfl, .inr ⟨rfl, rfl⟩⟩

namespace Pool

variable {n : Nat} {V : Type*} {features : Features} {s t : Pool n V} {act : PoolAction n V}
  {call : CallId}

/-- The transaction that a step sends, and the index of the executor that it is meant for. -/
def dispatched (s : Pool n V) : PoolAction n V → Option (CoordinatorCall × Nat)
  | .send call =>
    match s.calls call with
    | .stored request index => some (request, index)
    | _ => none
  | _ => none

/-- The operation that a step takes out of the channel of an executor, and who submitted it. -/
def served (s : Pool n V) : PoolAction n V → Option (CallId × Operation)
  | .recv worker _ _ =>
    match (s.executors worker).rx.queue with
    | .submitIoOp op call :: _ => some (call, op)
    | _ => none
  | _ => none

/-- No call that was made is between reading the index and sending its transaction. -/
def Idle (s : Pool n V) : Prop := ∀ call < s.nextCall, (s.calls call).dispatching = false

instance (s : Pool n V) : Decidable s.Idle :=
  inferInstanceAs (Decidable (∀ call < s.nextCall, (s.calls call).dispatching = false))

/-- A call is made only after the one before has sent its transaction. -/
def OneAtATime (s : Pool n V) (act : PoolAction n V) : Prop := act.request ≠ none → s.Idle

instance (s : Pool n V) (act : PoolAction n V) : Decidable (s.OneAtATime act) :=
  inferInstanceAs (Decidable (_ → _))

/-- How many polls are sent to an executor along a list of actions. -/
def pollsSent (features : Features) (start : Pool n V) (acts : List (PoolAction n V))
    (worker : Fin n) : Nat :=
  (observed (next features) dispatched start acts).count (.poll, worker.val)

/-- No operation is added to a channel. -/
structure SameOperations (s t : Pool n V) : Prop where
  requested : ∀ worker, (t.executors worker).requested ⊆ (s.executors worker).requested
  submitted : ∀ worker, (t.executors worker).submitted = (s.executors worker).submitted

/-- What each kind of step does to the calls, to the index and to the operations on their way. -/
inductive Traffic (s : Pool n V) : PoolAction n V → Pool n V → Prop
  | quiet {act : PoolAction n V} {t : Pool n V} (unasked : act.request = none)
      (unsent : s.dispatched act = none) (unserved : s.served act = none)
      (untaken : ∀ worker, act ≠ .pollerRecv worker) (calls : t.calls = s.calls)
      (index : t.index = s.index) (same : SameOperations s t) : Traffic s act t
  | asked {request : CoordinatorCall} {t : Pool n V}
      (calls : t.calls = Function.update s.calls s.nextCall (s.asked request))
      (index : t.index = s.index) (same : SameOperations s t) : Traffic s (.call request) t
  | stored {call : CallId} {request : CoordinatorCall} {index : Nat} {t : Pool n V}
      (loaded : s.calls call = .loaded request index)
      (calls : t.calls = Function.update s.calls call (.stored request index))
      (moved : t.index = index) (same : SameOperations s t) : Traffic s (.store call) t
  | sent {call : CallId} {request : CoordinatorCall} {index : Nat} {state : CallProgress}
      {t : Pool n V} (asked : s.calls call = .stored request index)
      (calls : t.calls = Function.update s.calls call state) (done : state.dispatching = false)
      (unmoved : t.index = s.index)
      (requested : ∀ worker op, op ∈ (t.executors worker).requested →
        op ∈ (s.executors worker).requested ∨
          worker.val = index ∧ request.operation = some op)
      (submitted : ∀ worker, (t.executors worker).submitted = (s.executors worker).submitted) :
      Traffic s (.send call) t
  | received {call : CallId} {reply : Option (ExecResult Unit)} {t : Pool n V}
      (answered : s.calls call = .answered reply)
      (calls : t.calls =
        Function.update s.calls call (.returned (reply.getD (.error .actorRcv))))
      (index : t.index = s.index) (same : SameOperations s t) : Traffic s (.receive call) t
  | served {worker : Fin n} {coin : Bool} {outcome : FutureStep V} {call : CallId}
      {op : Operation} {rest : List Transaction} {result : ExecResult Unit} {exec : Executor}
      (front : (s.executors worker).rx.queue = .submitIoOp op call :: rest)
      (queue : exec.rx.queue = rest)
      (pushed : result = (submitOp (s.executors worker).pollHandle op).1.mapError .ioPoller)
      (handed : result = .ok () ∧ exec.submitted = (s.executors worker).submitted ++ [op] ∨
        result = .error (.ioPoller .actorSendError) ∧
          exec.submitted = (s.executors worker).submitted) :
      Traffic s (.recv worker coin outcome) ((s.setExecutor worker exec).answer call result)
  | taken {worker : Fin n} {message : IoOp} {rest : List IoOp}
      (front : (s.executors worker).pollHandle.queue = message :: rest) :
      Traffic s (.pollerRecv worker) (s.setExecutor worker
        { s.executors worker with
          pollHandle := { (s.executors worker).pollHandle with queue := rest } })

/-- An executor with the same operations in its channels can be replaced. -/
theorem SameOperations.of_setExecutor {worker : Fin n} {exec : Executor}
    (requested : exec.requested ⊆ (s.executors worker).requested)
    (submitted : exec.submitted = (s.executors worker).submitted) :
    SameOperations s (s.setExecutor worker exec) := by
  -- The executor that is replaced is compared with its successor, and the others are equal.
  constructor <;> intro other <;> rw [setExecutor_apply] <;> split
  · rename_i here
    exact here ▸ requested
  · exact List.Subset.refl _
  · rename_i here
    exact here ▸ submitted
  · rfl

/-- A change that leaves the executors alone adds no operation. -/
theorem SameOperations.of_executors (same : t.executors = s.executors) : SameOperations s t where
  requested := fun _ => same ▸ List.Subset.refl _
  submitted := fun _ => by rw [same]

/-- Two changes after each other add no operation if neither does. -/
theorem SameOperations.trans {u : Pool n V} (first : SameOperations s t)
    (second : SameOperations t u) : SameOperations s u where
  requested := fun worker => List.Subset.trans (second.requested worker) (first.requested worker)
  submitted := fun worker => (second.submitted worker).trans (first.submitted worker)

/-- Dropping channels adds no operation. -/
theorem dropChannels_operations (s : Pool n V) (gone : Fin n → Bool) :
    SameOperations s (s.dropChannels gone) := by
  -- An executor whose channels are dropped has no operation, and the others keep theirs.
  constructor
  all_goals
    intro worker
    by_cases here : gone worker <;> simp [dropChannels, here, Executor.requested,
      Executor.submitted]

/-- An executor that leaves its loop adds no operation. -/
theorem leave_operations (s : Pool n V) (worker : Fin n) : SameOperations s (s.leave worker) := by
  -- The loop is left first, and then the channel may go.
  have left : SameOperations s (s.setExecutor worker (s.executors worker).leave) :=
    .of_setExecutor (List.Subset.refl _) rfl
  unfold leave
  refine SameOperations.trans ?_ (dropChannels_operations _ _)
  exact ⟨left.requested, left.submitted⟩

/-- Polling a task adds no operation, even if it ends the thread. -/
theorem polled_operations {worker : Fin n} {exec : Executor} (task : ImputioTask)
    (outcome : FutureStep V) (same : SameOperations s (s.setExecutor worker exec)) :
    SameOperations s (s.polled worker exec task outcome) := by
  -- Unless the task panics, the poll touches neither the calls nor the channels.
  cases outcome with
  | ready value => exact ⟨same.requested, same.submitted⟩
  | pending => exact ⟨same.requested, same.submitted⟩
  | panicked =>
    -- A panic ends the thread, and with it go operations at most.
    unfold polled
    refine SameOperations.trans ?_ (leave_operations _ _)
    exact ⟨same.requested, same.submitted⟩

/-- A message that is sent goes to the end of one channel, with the operation of its call. -/
theorem Traffic.of_push {request : CoordinatorCall} {index : Nat} {inRange : index < n}
    {exec : Executor} {message : Transaction} {state : CallProgress}
    (asked : s.calls call = .stored request index)
    (executors : t.executors = Function.update s.executors ⟨index, inRange⟩ exec)
    (queue : exec.rx.queue = (s.executors ⟨index, inRange⟩).rx.queue ++ [message])
    (carries : message.operation = request.operation)
    (pollHandle : exec.pollHandle = (s.executors ⟨index, inRange⟩).pollHandle)
    (calls : t.calls = Function.update s.calls call state) (done : state.dispatching = false)
    (unmoved : t.index = s.index) : Traffic s (.send call) t := by
  -- One executor has a longer channel, and all others are as they were.
  refine .sent asked calls done unmoved (fun worker op there => ?_) fun worker => ?_
  · rw [executors, Function.update_apply] at there
    split at there
    · rename_i here
      subst here
      rw [Executor.requested, queue, List.filterMap_append] at there
      refine (List.mem_append.mp there).imp_right fun new => ⟨rfl, ?_⟩
      rw [← carries]
      simpa [List.mem_filterMap] using new
    · exact .inl there
  · rw [executors, Function.update_apply]
    split
    · rename_i here
      rw [Executor.submitted, pollHandle, here, Executor.submitted]
    · rfl

/-- What is left in the channel after the oldest message was taken there was there before. -/
theorem requested_taken {exec after : Executor} {message : Transaction} {rest : List Transaction}
    (front : exec.rx.queue = message :: rest) (queue : after.rx.queue = rest) :
    after.requested ⊆ exec.requested := by
  -- The rest of the channel is a part of it.
  intro op there
  rw [Executor.requested, queue] at there
  rw [Executor.requested, front]
  exact (List.Sublist.filterMap _ (List.sublist_cons_self message rest)).subset there

/-- Every step has one of these effects. -/
theorem step_traffic (step : Steps (next features) s act t) : Traffic s act t := by
  -- A message that is refused leaves everything but its call as it is.
  have unsent : ∀ {call request index state}, s.calls call = .stored request index →
      state.dispatching = false → t.calls = Function.update s.calls call state →
      t.executors = s.executors → t.index = s.index → Traffic s (.send call) t := by
    intro call request index state asked done calls executors unmoved
    refine .sent asked calls done unmoved (fun _ _ => ?_) fun _ => by rw [executors]
    rw [executors]
    exact .inl
  cases step_next step with
  | called => exact .asked rfl rfl (.of_executors rfl)
  | stored loaded => exact .stored loaded rfl rfl (.of_executors rfl)
  | spawned asked => exact .of_push asked rfl rfl rfl rfl rfl rfl rfl
  | refused asked => exact unsent asked rfl rfl rfl rfl
  | pollSent asked => exact .of_push asked rfl rfl rfl rfl rfl rfl rfl
  | pollRefused asked => exact unsent asked rfl rfl rfl rfl
  | opSent asked => exact .of_push asked rfl rfl rfl rfl rfl rfl rfl
  | opRefused asked => exact unsent asked rfl rfl rfl rfl
  | outOfRange asked => exact unsent asked rfl rfl rfl rfl
  | received answered => exact .received answered rfl rfl (.of_executors rfl)
  | idled _ empty =>
    exact .quiet rfl rfl (by simp [served, empty]) (by simp) rfl rfl
      (.of_setExecutor (List.Subset.refl _) rfl)
  | enqueued _ front =>
    exact .quiet rfl rfl (by simp [served, front]) (by simp) rfl rfl
      (.of_setExecutor (requested_taken front rfl) rfl)
  | unpolled _ front =>
    exact .quiet rfl rfl (by simp [served, front]) (by simp) rfl rfl
      (.of_setExecutor (requested_taken front rfl) (Executor.askIo_operations ..))
  | @polled worker coin outcome task level later rest exec _ front _ _ ended =>
    -- What becomes of the task concerns neither channel.
    have same : SameOperations s (s.setExecutor worker exec) := by
      rcases ended with ⟨-, rfl⟩ | ⟨-, rfl⟩
      · exact .of_setExecutor (requested_taken front rfl) (Executor.askIo_operations ..)
      · exact .of_setExecutor (requested_taken front rfl) (Executor.askIo_operations ..)
    refine .quiet rfl rfl (by simp [served, front]) (by simp) (s.polled_calls ..).1 ?_
      (polled_operations task outcome same)
    cases outcome <;> rfl
  | @served worker coin outcome call op rest receiving front =>
    obtain ⟨same, handed⟩ := Executor.pushToPoller_cases ((s.executors worker).take rest) op
    exact .served front (congrArg Channel.queue same) rfl handed
  | left => exact .quiet rfl rfl rfl (by simp) rfl rfl (leave_operations ..)
  | stayed =>
    exact .quiet rfl rfl rfl (by simp) rfl rfl (.of_setExecutor (List.Subset.refl _) rfl)
  | flagged => exact .quiet rfl rfl rfl (by simp) rfl rfl (.of_executors rfl)
  | released =>
    refine .quiet rfl rfl rfl (by simp) rfl rfl
      (SameOperations.trans ?_ (dropChannels_operations _ _))
    exact .of_executors rfl
  | pollerTook front => exact .taken front
  | pollerLeft =>
    exact .quiet rfl rfl rfl (by simp) rfl rfl (.of_setExecutor (List.Subset.refl _) rfl)

/-- The index in turn, which never overflows. -/
theorem nextIndex_turn (positive : 0 < n) (small : n ≤ usizeMax) (turn : Nat) :
    nextIndex (turn % n) n = some ((turn + 1) % n) := by
  have below : turn % n < usizeMax := Nat.lt_of_lt_of_le (Nat.mod_lt turn positive) small
  rw [nextIndex, if_pos ⟨below, positive⟩, Nat.mod_add_mod]

/-- The last of a sequence of calls reaches the executor that is next in turn. -/
theorem dealt_concat (n : Nat) (earlier : List CoordinatorCall) (request : CoordinatorCall) :
    dealt n (earlier ++ [request]) = dealt n earlier ++ [(request, (earlier.length + 1) % n)] :=
  List.mapIdx_concat

/-- Where a sequence of calls is: all have been sent, or the last one is still on its way. -/
inductive InTurn (s : Pool n V) (made : List CoordinatorCall) :
    List (CoordinatorCall × Nat) → Prop
  | between (idle : ∀ call, (s.calls call).dispatching = false)
      (index : s.index = made.length % n) :
      InTurn s made (dealt n made)
  | within {earlier : List CoordinatorCall} {request : CoordinatorCall} {call : CallId}
      (last : made = earlier ++ [request])
      (progress : s.calls call = .loaded request (made.length % n) ∨
        s.calls call = .stored request (made.length % n) ∧ s.index = made.length % n)
      (others : ∀ other, other ≠ call → (s.calls other).dispatching = false) :
      InTurn s made (dealt n earlier)

/-- A step that concerns no call on its way leaves a sequence of calls where it is. -/
theorem InTurn.congr {made : List CoordinatorCall} {sent : List (CoordinatorCall × Nat)}
    (turn : InTurn s made sent) (index : t.index = s.index)
    (calls : ∀ call, t.calls call = s.calls call ∨
      (s.calls call).dispatching = false ∧ (t.calls call).dispatching = false) :
    InTurn t made sent := by
  -- A call that is not on its way stays so.
  have quiet : ∀ call, (s.calls call).dispatching = false →
      (t.calls call).dispatching = false := by
    intro call before
    rcases calls call with same | ⟨-, after⟩
    · rw [same, before]
    · exact after
  cases turn with
  | between idle turn => exact .between (fun call => quiet call (idle call)) (index.trans turn)
  | @within earlier request call last progress others =>
    -- The call on its way is not the one that has changed.
    have same : t.calls call = s.calls call := by
      rcases calls call with same | ⟨before, -⟩
      · exact same
      · rcases progress with loaded | ⟨stored, -⟩
        · simp [loaded, CallProgress.dispatching] at before
        · simp [stored, CallProgress.dispatching] at before
    refine .within last ?_ fun other apart => quiet other (others other apart)
    rw [same, index]
    exact progress

/-- The call that is on its way is the last one of the sequence. -/
theorem InTurn.busy {made : List CoordinatorCall} {sent : List (CoordinatorCall × Nat)}
    (turn : InTurn s made sent) (busy : (s.calls call).dispatching = true) :
    ∃ earlier request, made = earlier ++ [request] ∧ sent = dealt n earlier ∧
      (s.calls call = .loaded request (made.length % n) ∨
        s.calls call = .stored request (made.length % n) ∧ s.index = made.length % n) ∧
      ∀ other, other ≠ call → (s.calls other).dispatching = false := by
  -- Between two calls nothing is on its way, and within one only that call is.
  cases turn with
  | between idle => simp [idle call] at busy
  | @within earlier request on last progress others =>
    have here : call = on := by
      by_contra apart
      simp [others call apart] at busy
    subst here
    exact ⟨earlier, request, last, rfl, progress, others⟩

/-- A step makes the next call of a sequence, or sends the transaction of the last one, at most. -/
theorem InTurn.step {made : List CoordinatorCall} {sent : List (CoordinatorCall × Nat)}
    (positive : 0 < n) (small : n ≤ usizeMax) (turn : InTurn s made sent) (awaited : s.Awaited)
    (alone : s.OneAtATime act) (step : Steps (next features) s act t) :
    InTurn t (made ++ act.request.toList) (sent ++ (s.dispatched act).toList) := by
  -- Most steps neither make a call nor send a transaction.
  have still : act.request = none → s.dispatched act = none → InTurn t made sent →
      InTurn t (made ++ act.request.toList) (sent ++ (s.dispatched act).toList) := by
    intro unasked unsent after
    rw [unasked, unsent]
    simpa using after
  -- A call is made, moves on by itself, and is sent: each is a case of its own.
  cases step_traffic step with
  | quiet unasked unsent _ _ calls index =>
    exact still unasked unsent (turn.congr index fun call => .inl (congrFun calls call))
  | @asked request t calls index =>
    have idle : ∀ call, (s.calls call).dispatching = false := by
      intro call
      rcases Nat.lt_or_ge call s.nextCall with old | beyond
      · exact alone (by simp [PoolAction.request]) call old
      · rw [awaited.unused call beyond]
        rfl
    cases turn with
    | @within earlier _ call last progress =>
      have busy := idle call
      rcases progress with loaded | ⟨stored, -⟩
      · simp [loaded, CallProgress.dispatching] at busy
      · simp [stored, CallProgress.dispatching] at busy
    | between _ turn =>
      have next : s.asked request = .loaded request ((made.length + 1) % n) := by
        rw [Pool.asked, turn, nextIndex_turn positive small]
      have progress : t.calls s.nextCall = .loaded request ((made ++ [request]).length % n) := by
        rw [calls, Function.update_self, next, List.length_append, List.length_singleton]
      show InTurn t (made ++ [request]) (dealt n made ++ [])
      rw [List.append_nil]
      refine .within rfl (.inl progress) fun other apart => ?_
      rw [calls, Function.update_of_ne apart]
      exact idle other
  | @stored call request index t loaded calls moved =>
    refine still rfl rfl ?_
    obtain ⟨earlier, request', last, rfl, progress, others⟩ := turn.busy (by rw [loaded]; rfl)
    rw [loaded] at progress
    obtain ⟨rfl, rfl⟩ := CallProgress.loaded.inj (progress.resolve_right (by simp))
    have after : t.calls call = .stored request (made.length % n) := by
      rw [calls, Function.update_self]
    refine .within last (.inr ⟨after, moved⟩) fun other apart => ?_
    rw [calls, Function.update_of_ne apart]
    exact others other apart
  | @sent call request index state t asked calls done unmoved =>
    have shown : s.dispatched (.send call) = some (request, index) := by simp [dispatched, asked]
    obtain ⟨earlier, request', last, rfl, progress, others⟩ := turn.busy (by rw [asked]; rfl)
    rw [asked] at progress
    obtain ⟨stored, turn⟩ := progress.resolve_left (by simp)
    obtain ⟨rfl, rfl⟩ := CallProgress.stored.inj stored
    -- The last call of the sequence has been sent now.
    have all : dealt n made = dealt n earlier ++ [(request, made.length % n)] := by
      conv_lhs => rw [last]
      rw [dealt_concat, last, List.length_append, List.length_singleton]
    rw [shown]
    show InTurn t (made ++ []) (dealt n earlier ++ [(request, made.length % n)])
    rw [List.append_nil, ← all]
    refine .between (fun other => ?_) (unmoved.trans turn)
    rw [calls, Function.update_apply]
    split
    · exact done
    · rename_i apart
      exact others other apart
  | @received call reply t answered calls index =>
    refine still rfl rfl (turn.congr index fun other => ?_)
    rw [calls, Function.update_apply]
    split
    · rename_i here
      exact .inr ⟨by rw [here, answered]; rfl, rfl⟩
    · exact .inl rfl
  | @served worker coin outcome call op rest result exec =>
    refine still rfl rfl ?_
    unfold answer
    split
    · rename_i waits
      refine turn.congr rfl fun other => ?_
      by_cases here : other = call
      · have before : s.calls call = .waiting := waits
        exact .inr ⟨by rw [here, before]; rfl, by simp [setCall, here, CallProgress.dispatching]⟩
      · exact .inl (by simp [setCall, here, setExecutor])
    · exact turn.congr rfl fun _ => .inl rfl
  | taken => exact still rfl rfl (turn.congr rfl fun _ => .inl rfl)

/-- Along a run whose calls are made one at a time, each of them is served in its turn. -/
theorem inTurn_of_run {start last : Pool n V} {acts : List (PoolAction n V)} (positive : 0 < n)
    (small : n ≤ usizeMax) (fresh : start.Fresh features)
    (run : Run (Guarded OneAtATime (Steps (next features))) start acts last) :
    InTurn last (requests acts) (observed (next features) dispatched start acts) := by
  -- By induction on the run, where each step is either part of the open call or opens one.
  induction run with
  | nil =>
    -- Nothing is made or sent, and the index is zero.
    have unused : (∀ call, (start.calls call).dispatching = false) ∧ start.index = 0 % n := by
      rcases fresh with rfl | rfl
      all_goals exact ⟨fun _ => rfl, (Nat.zero_mod n).symm⟩
    exact .between unused.1 unused.2
  | @snoc acts mid last act earlier taken ih =>
    have awaited : mid.Awaited :=
      earlier.unguard.invariant fresh.awaited fun _ _ _ before step => before.step step
    have after := ih.step positive small awaited taken.1 taken.2
    rw [earlier.unguard.observed_snoc]
    have made : requests (acts ++ [act]) = requests acts ++ act.request.toList := by
      rw [requests, List.filterMap_append, requests]
      cases shown : act.request <;> simp [shown]
    rw [made]
    exact after

/-- When no call is on its way, exactly the transactions that are due have been sent. -/
theorem observed_eq_dealt {start last : Pool n V} {acts : List (PoolAction n V)} (positive : 0 < n)
    (small : n ≤ usizeMax) (fresh : start.Fresh features)
    (run : Run (Guarded OneAtATime (Steps (next features))) start acts last) (idle : last.Idle) :
    observed (next features) dispatched start acts = dealt n (requests acts) := by
  -- The alternative is that the last call is still on its way.
  have awaited : last.Awaited :=
    run.unguard.invariant fresh.awaited fun _ _ _ before step => before.step step
  have turn := inTurn_of_run positive small fresh run
  generalize observed (next features) dispatched start acts = sent at turn ⊢
  cases turn with
  | between => rfl
  | @within earlier request call last' progress others =>
    have calm : (last.calls call).dispatching = false := by
      rcases Nat.lt_or_ge call last.nextCall with old | beyond
      · exact idle call old
      · rw [awaited.unused call beyond]
        rfl
    rcases progress with loaded | ⟨stored, -⟩
    · simp [loaded, CallProgress.dispatching] at calm
    · simp [stored, CallProgress.dispatching] at calm

end Pool

/-- One more call adds its turn if it polls. -/
theorem pollTurns_concat (earlier : List CoordinatorCall) (request : CoordinatorCall) :
    pollTurns (earlier ++ [request]) =
      pollTurns earlier ++ if request = .poll then [earlier.length + 1] else [] := by
  rw [pollTurns, List.zipIdx_append, List.filterMap_append, pollTurns, Nat.add_comm 1]
  by_cases polls : request = .poll <;> simp [polls]

/-- An executor is dealt the polls whose turn falls on it. -/
theorem count_dealt (n : Nat) (made : List CoordinatorCall) (index : Nat) :
    (dealt n made).count (.poll, index) =
      (pollTurns made).countP fun turn => turn % n == index := by
  -- The sequence grows at its end, by a poll or by another call.
  induction made using List.reverseRecOn with
  | nil => rfl
  | append_singleton earlier request ih =>
    rw [Pool.dealt_concat, pollTurns_concat, List.count_append, List.countP_append, ih]
    by_cases polls : request = .poll
    · subst polls
      simp [List.count_singleton, List.countP_singleton]
    · simp [polls]

section Dispatch

variable {n : Nat} {V : Type*} {features : Features} {start last : Pool n V}
  {acts : List (PoolAction n V)}

/--
When calls are made one after the other, the polls are dealt out evenly exactly if the turns at
which the calls poll are spread evenly over the remainders by the number of executors.
-/
theorem polls_dealt_evenly_iff (positive : 0 < n) (small : n ≤ usizeMax)
    (fresh : start.Fresh features)
    (run : Run (Guarded Pool.OneAtATime (Steps (Pool.next features))) start acts last)
    (idle : last.Idle) :
    (∀ worker other : Fin n, start.pollsSent features acts worker ≤
        start.pollsSent features acts other + 1) ↔
      ∀ residue < n, ∀ other < n,
        ((pollTurns (requests acts)).countP fun turn => turn % n == residue) ≤
          ((pollTurns (requests acts)).countP fun turn => turn % n == other) + 1 := by
  -- The turns of an executor are those with its own remainder.
  have sent : ∀ worker : Fin n, start.pollsSent features acts worker =
      (pollTurns (requests acts)).countP fun turn => turn % n == worker.val := by
    intro worker
    rw [Pool.pollsSent, Pool.observed_eq_dealt positive small fresh run idle, count_dealt]
  simp only [sent]
  exact ⟨fun even residue below other below' => even ⟨residue, below⟩ ⟨other, below'⟩,
    fun even worker other => even worker worker.isLt other other.isLt⟩

/-- Two spawns, each followed by a poll; the executor takes the two tasks. -/
def spawnsAndPolls {n : Nat} (worker : Fin n) : List (PoolAction n Nat) :=
  [.call (.spawn .high), .store 0, .send 0, .call .poll, .store 1, .send 1,
    .call (.spawn .high), .store 2, .send 2, .call .poll, .store 3, .send 3,
    .recv worker false .pending, .check worker, .recv worker false .pending]

/-- Both tasks go to one executor, and both polls to the other. -/
theorem spawns_divert_polls :
    ∃ s : Pool 2 Nat, Run (Guarded Pool.OneAtATime (Steps (Pool.next ⟨false, false⟩)))
        (Pool.initialized ⟨false, false⟩) (spawnsAndPolls 1) s ∧ s.Idle ∧
      (Pool.initialized ⟨false, false⟩ : Pool 2 Nat).pollsSent ⟨false, false⟩
        (spawnsAndPolls 1) 0 = 2 ∧
      (Pool.initialized ⟨false, false⟩ : Pool 2 Nat).pollsSent ⟨false, false⟩
        (spawnsAndPolls 1) 1 = 0 ∧
      (s.executors 1).queued = [⟨0, .high⟩, ⟨1, .high⟩] := by
  -- The run is replayed with its condition checked at every step.
  have replayed : (replay (checked Pool.OneAtATime (Pool.next ⟨false, false⟩))
      (Pool.initialized ⟨false, false⟩ : Pool 2 Nat) (spawnsAndPolls 1)).map
      (fun s => decide s.Idle && (s.executors 1).queued == [⟨0, .high⟩, ⟨1, .high⟩]) =
        some true := by
    decide
  obtain ⟨s, run, final⟩ := Run.of_replay_test replayed
  simp only [Bool.and_eq_true, beq_iff_eq, decide_eq_true_eq] at final
  exact ⟨s, run.mono guarded_of_checked, final.1, by decide, by decide, final.2⟩

/-- Two polls in a row, with two executors. -/
def pollsTwice : List (PoolAction 2 Nat) :=
  [.call .poll, .store 0, .send 0, .call .poll, .store 1, .send 1]

/-- Two polls in a row are dealt out evenly. -/
theorem polls_dealt_evenly_iff_twice :
    ∃ s : Pool 2 Nat, Run (Guarded Pool.OneAtATime (Steps (Pool.next ⟨false, false⟩)))
        (Pool.initialized ⟨false, false⟩) pollsTwice s ∧
      ∀ worker other, (Pool.initialized ⟨false, false⟩).pollsSent ⟨false, false⟩ pollsTwice worker ≤
        (Pool.initialized ⟨false, false⟩).pollsSent ⟨false, false⟩ pollsTwice other + 1 := by
  -- The run is replayed with its condition checked, and two polls go to two executors.
  have replayed : (replay (checked Pool.OneAtATime (Pool.next ⟨false, false⟩))
      (Pool.initialized ⟨false, false⟩ : Pool 2 Nat) pollsTwice).map
      (fun s => decide s.Idle) = some true := by
    decide
  obtain ⟨s, run, idle⟩ := Run.of_replay_test replayed
  have alone := run.mono guarded_of_checked
  exact ⟨s, alone, (polls_dealt_evenly_iff (by decide) (by decide) (.inl rfl) alone
    (of_decide_eq_true idle)).mpr (by decide)⟩

end Dispatch

end Imputio
