import Imputio.Executor.Registration
import Imputio.Executor.Sequential

/-! What an executor hands over to its poller thread, which works through it in order. -/

namespace Imputio

open Transition

/-- What an executor makes of a message for its poller thread; a task stays with the executor. -/
def Transaction.ioOp : Transaction → Option IoOp
  | .spawn _ => none
  | .poll => some .poll
  | .submitIoOp op _ => some (.submit op)

/-- The operation that a message submits, and the call that waits for the answer. -/
def Transaction.request : Transaction → Option (CallId × Operation)
  | .submitIoOp op reply => some (reply, op)
  | _ => none

namespace Executor

variable {features : Features} {exec : Executor}

/-- The channel to the poller thread never makes the executor wait; without one it is closed. -/
structure Linked (features : Features) (exec : Executor) : Prop where
  neverWaits : exec.pollHandle.NeverWaits
  absent : features.io = false → exec.pollHandle.connected = false

/-- The channel to the poller thread after a message has been processed. -/
def handedOn (features : Features) (exec : Executor) : Transaction → Channel IoOp
  | .spawn _ => exec.pollHandle
  | .poll => exec.askIo features
  | .submitIoOp op _ => (submitOp exec.pollHandle op).2

/-- Sending an operation puts it at the end of the channel, and fails if nobody listens. -/
theorem submitOp_eq {handle : Channel IoOp} (never : handle.NeverWaits) (op : Operation) :
    submitOp handle op =
      (if handle.connected then .ok () else .error .actorSendError,
        handle.extend [.submit op]) := by
  -- The channel never waits, so the send goes through if anybody listens.
  unfold submitOp
  rw [never.send_eq]
  by_cases connected : handle.connected = true <;> simp [connected, Channel.extend]

/-- Asking the poller thread to poll puts the request at the end of the channel as well. -/
theorem pollIo_eq {handle : Channel IoOp} (never : handle.NeverWaits) :
    (pollIo handle).2 = handle.extend [.poll] := by
  -- The channel never waits, so the send goes through if anybody listens.
  unfold pollIo
  rw [never.send_eq]
  by_cases connected : handle.connected = true <;> simp [connected, Channel.extend]

/-- The submitter of an operation is told whether anybody listens. -/
theorem pushToPoller_result (never : exec.pollHandle.NeverWaits) (op : Operation) :
    (exec.pushToPoller op).1 = if exec.pollHandle.connected then .ok ()
      else .error (.ioPoller .actorSendError) := by
  simp only [pushToPoller, submitOp_eq never]
  split <;> rfl

/-- Whatever the message, what is made of it for the poller thread is put into the channel. -/
theorem Linked.handedOn_eq (linked : exec.Linked features) (message : Transaction) :
    exec.handedOn features message = exec.pollHandle.extend message.ioOp.toList := by
  -- Each message has at most one thing for the poller thread, and it never waits.
  cases message with
  | spawn task => simp [handedOn, Transaction.ioOp]
  -- An operation is sent whether the feature is there or not.
  | submitIoOp op reply => simp [handedOn, Transaction.ioOp, submitOp_eq linked.neverWaits]
  | poll =>
    simp only [handedOn, askIo, Transaction.ioOp, Option.toList_some]
    -- Without the feature nobody is asked, and nobody would listen.
    split
    · exact pollIo_eq linked.neverWaits
    · rename_i off
      rw [Channel.extend, if_neg (by simp [linked.absent (by simpa using off)])]

/-- Handing something over changes neither the capacity of the channel nor who listens. -/
theorem handedOn_rest (features : Features) (exec : Executor) (message : Transaction) :
    (exec.handedOn features message).capacity = exec.pollHandle.capacity ∧
      (exec.handedOn features message).connected = exec.pollHandle.connected := by
  -- A message that is sent makes the queue longer, and nothing else.
  have sent : ∀ (op : IoOp) (after : Channel IoOp), exec.pollHandle.send op = .sent after →
      after.capacity = exec.pollHandle.capacity ∧
        after.connected = exec.pollHandle.connected := by
    intro op after done
    obtain ⟨-, -, rfl⟩ := Channel.send_eq_sent_iff.mp done
    exact ⟨rfl, rfl⟩
  cases message with
  | spawn task => exact ⟨rfl, rfl⟩
  | submitIoOp op reply =>
    simp only [handedOn, submitOp]
    split
    · rename_i after done
      exact sent _ _ done
    · exact ⟨rfl, rfl⟩
  | poll =>
    simp only [handedOn, askIo, pollIo]
    split
    · split
      · rename_i after done
        exact sent _ _ done
      · exact ⟨rfl, rfl⟩
    · exact ⟨rfl, rfl⟩

end Executor

namespace Pool

variable {n : Nat} {V : Type*} {features : Features} {s t : Pool n V} {act : PoolAction n V}
  {worker : Fin n}

/-- What an executor makes of the message that it takes in a step, for its poller thread. -/
def hands (s : Pool n V) (worker : Fin n) (act : PoolAction n V) : Option IoOp :=
  (s.takes worker act).bind Transaction.ioOp

/-- The message that a poller thread takes out of its channel in a step. -/
def draws (s : Pool n V) (worker : Fin n) : PoolAction n V → Option IoOp
  | .pollerRecv other =>
    if other = worker then (s.executors worker).pollHandle.queue.head? else none
  | _ => none

/-- What a step does to the channel between an executor and its poller thread. -/
inductive Handover (features : Features) (s : Pool n V) (worker : Fin n) (act : PoolAction n V)
    (t : Pool n V) : Prop
  | handed (undrawn : s.draws worker act = none)
      (handle : (t.executors worker).pollHandle = (s.takes worker act).elim
        (s.executors worker).pollHandle ((s.executors worker).handedOn features))
  | drew {message : IoOp} {rest : List IoOp} (untaken : s.takes worker act = none)
      (drawn : s.draws worker act = some message)
      (front : (s.executors worker).pollHandle.queue = message :: rest)
      (handle : (t.executors worker).pollHandle =
        { (s.executors worker).pollHandle with queue := rest })
  | closed (exit : act = .pollerExit worker) (untaken : s.takes worker act = none)
      (undrawn : s.draws worker act = none)
      (handle : (t.executors worker).pollHandle = (s.executors worker).pollHandle.disconnect)

/-- Dropping channels to executors does not concern those to poller threads. -/
theorem dropChannels_pollHandle (s : Pool n V) (gone : Fin n → Bool) (worker : Fin n) :
    ((s.dropChannels gone).executors worker).pollHandle = (s.executors worker).pollHandle := by
  by_cases here : gone worker <;> simp [dropChannels, here]

/-- An executor that leaves its loop lets go of its channel to the poller thread only in the end. -/
theorem leave_pollHandle (s : Pool n V) (leaving worker : Fin n) :
    ((s.leave leaving).executors worker).pollHandle = (s.executors worker).pollHandle := by
  -- The queues of tasks are dropped, and the channel is not.
  unfold leave
  rw [dropChannels_pollHandle, setExecutor_apply]
  split
  · rename_i here
    rw [here, Executor.leave]
  · rfl

/-- Whatever comes of the poll of a task, the channel is as the executor has left it. -/
theorem polled_pollHandle (s : Pool n V) (receiver worker : Fin n) (exec : Executor)
    (task : ImputioTask) (outcome : FutureStep V) :
    ((s.polled receiver exec task outcome).executors worker).pollHandle =
      ((s.setExecutor receiver exec).executors worker).pollHandle := by
  cases outcome with
  | ready value => rfl
  | pending => rfl
  -- Only a panic makes the executor leave its loop.
  | panicked => exact leave_pollHandle _ receiver worker

/-- A step in which nothing is taken and the channel stays the same. -/
theorem Handover.of_quiet (untaken : s.takes worker act = none)
    (undrawn : s.draws worker act = none)
    (same : (t.executors worker).pollHandle = (s.executors worker).pollHandle) :
    s.Handover features worker act t :=
  .handed undrawn (by rw [untaken, Option.elim_none, same])

/-- A step that replaces an executor and leaves its channel as it is. -/
theorem Handover.of_replaced {other : Fin n} {exec : Executor}
    (untaken : s.takes worker act = none) (undrawn : s.draws worker act = none)
    (after : (t.executors worker).pollHandle =
      ((s.setExecutor other exec).executors worker).pollHandle)
    (handle : exec.pollHandle = (s.executors other).pollHandle) :
    s.Handover features worker act t := by
  -- What another executor becomes does not concern this one's channel.
  refine .of_quiet untaken undrawn (after.trans ?_)
  rw [setExecutor_apply]
  split
  · rename_i here
    rw [handle, here]
  · rfl

/-- A turn in which an executor takes a message. -/
theorem Handover.of_taken {receiver : Fin n} {coin : Bool} {outcome : FutureStep V}
    {message : Transaction} {rest : List Transaction} {exec : Executor}
    (receiving : (s.executors receiver).state = .receiving)
    (front : (s.executors receiver).rx.queue = message :: rest)
    (after : (t.executors worker).pollHandle =
      ((s.setExecutor receiver exec).executors worker).pollHandle)
    (handle : exec.pollHandle = (s.executors receiver).handedOn features message) :
    s.Handover features worker (.recv receiver coin outcome) t := by
  -- The executor that takes the message is this one or another one.
  rw [setExecutor_apply] at after
  by_cases here : worker = receiver
  · subst here
    rw [if_pos rfl, handle] at after
    exact .handed rfl (by simpa [takes_recv receiving, front] using after)
  -- Another executor takes the message.
  · rw [if_neg here] at after
    exact .of_quiet (if_neg fun both => here both.1.symm) rfl after

/-- Every step does one of these to the channel. -/
theorem handover_of_step (worker : Fin n) (step : Steps (next features) s act t) :
    s.Handover features worker act t := by
  -- Only a turn in which a message is taken, or one of the poller thread, moves the channel.
  cases step_next step with
  -- Callers have nothing to do with the poller threads.
  | called => exact .of_quiet rfl rfl rfl
  | stored => exact .of_quiet rfl rfl rfl
  | refused => exact .of_quiet rfl rfl rfl
  | pollRefused => exact .of_quiet rfl rfl rfl
  | opRefused => exact .of_quiet rfl rfl rfl
  | outOfRange => exact .of_quiet rfl rfl rfl
  | received => exact .of_quiet rfl rfl rfl
  | flagged => exact .of_quiet rfl rfl rfl
  | spawned asked inRange => exact .of_replaced rfl rfl rfl rfl
  | pollSent asked inRange => exact .of_replaced rfl rfl rfl rfl
  | opSent asked inRange => exact .of_replaced rfl rfl rfl rfl
  | stayed => exact .of_replaced rfl rfl rfl rfl
  | released => exact .of_quiet rfl rfl (dropChannels_pollHandle _ _ worker)
  | left => exact .of_quiet rfl rfl (leave_pollHandle _ _ worker)
  | @idled receiver coin outcome receiving empty =>
    -- There is nothing to take.
    have untaken : s.takes worker (.recv receiver coin outcome) = none := by
      simp only [takes]
      split
      · rename_i both
        rw [← both.1, empty, List.head?_nil]
      · rfl
    exact .of_replaced untaken rfl rfl rfl
  | enqueued receiving front => exact .of_taken receiving front rfl rfl
  | unpolled receiving front => exact .of_taken receiving front rfl rfl
  | @polled receiver coin outcome task level later rest exec receiving front picked popped ended =>
    -- The poller thread is asked before a task is polled, whatever becomes of the task.
    have handle : exec.pollHandle = (s.executors receiver).askIo features := by
      rcases ended with ⟨-, rfl⟩ | ⟨-, rfl⟩ <;> rfl
    exact .of_taken receiving front (polled_pollHandle _ _ _ _ _ _) handle
  | @served receiver coin outcome call op rest receiving front =>
    have after : (((s.setExecutor receiver
        (((s.executors receiver).take rest).pushToPoller op).2).answer call
          (((s.executors receiver).take rest).pushToPoller op).1).executors worker).pollHandle =
        ((s.setExecutor receiver
          (((s.executors receiver).take rest).pushToPoller op).2).executors worker).pollHandle := by
      -- Answering the submitter concerns the callers only.
      rw [PollingPool.answer_executors]
    exact .of_taken receiving front after rfl
  | @pollerTook other message rest front =>
    by_cases here : worker = other
    · subst here
      -- The poller thread takes the oldest message.
      exact .drew rfl (by simp [draws, front]) front (by simp [setExecutor])
    · exact .of_quiet rfl (if_neg (Ne.symm here)) (by simp [setExecutor, here])
  | @pollerLeft other =>
    by_cases here : worker = other
    · subst here
      exact .closed rfl rfl rfl (by simp [setExecutor])
    · exact .of_quiet rfl rfl (by simp [setExecutor, here])

/-- The channel to a poller thread keeps its capacity, and once it is closed it stays so. -/
theorem pollHandle_of_step (worker : Fin n) (step : Steps (next features) s act t) :
    (t.executors worker).pollHandle.capacity = (s.executors worker).pollHandle.capacity ∧
      ((t.executors worker).pollHandle.connected = true →
        (s.executors worker).pollHandle.connected = true) := by
  -- What is put into the channel, drawn from it or closed changes no capacity.
  cases handover_of_step worker step with
  | handed undrawn handle =>
    rw [handle]
    cases s.takes worker act with
    | none => exact ⟨rfl, id⟩
    | some message =>
      obtain ⟨capacity, connected⟩ := (s.executors worker).handedOn_rest features message
      exact ⟨capacity, fun still => connected.symm.trans still⟩
  -- Nothing but the end of the poller thread closes the channel.
  | drew untaken drawn front handle => simp [handle]
  | closed exit untaken undrawn handle => simp [handle, Channel.disconnect]

/-- An executor is linked after every step if it was before. -/
theorem linked_step (linked : (s.executors worker).Linked features)
    (step : Steps (next features) s act t) : (t.executors worker).Linked features := by
  -- The capacity never changes, and a channel that is closed is never opened again.
  obtain ⟨capacity, connected⟩ := pollHandle_of_step worker step
  refine ⟨fun still => capacity.trans (linked.neverWaits (connected still)), fun off => ?_⟩
  by_contra still
  exact absurd (connected (by simpa using still)) (by simp [linked.absent off])

/-- The executors of a fresh pool are linked. -/
theorem Fresh.linked (fresh : s.Fresh features) (worker : Fin n) :
    (s.executors worker).Linked features := by
  -- A started pool has its channels made by `initialize`, and a placeholder has none.
  rcases fresh with rfl | rfl
  · constructor
    -- With the feature the channel is unbounded; without it the receiver is dropped at once.
    · show Channel.NeverWaits (if features.io then _ else _)
      split
      · exact fun _ => rfl
      · exact fun open' => absurd open' (by simp [Channel.disconnect])
    · intro off
      simp [initialized, withExecutors, Executor.initialized, off, Channel.disconnect]
  · exact ⟨fun open' => absurd open' (by simp [withExecutors, Executor.absent,
      Channel.disconnect]), fun _ => rfl⟩

/-- The channel to the poller thread is open, and holds any number of messages. -/
def HandleOpen (worker : Fin n) (s : Pool n V) : Prop :=
  (s.executors worker).pollHandle.connected = true ∧
    (s.executors worker).pollHandle.capacity = none

/-- With the feature, the channel to a poller thread hands over in order what the executor sends. -/
theorem pollHandle_relays (on : features.io = true) (worker : Fin n) :
    Relays (next features) (fun s : Pool n V => (s.executors worker).pollHandle.queue)
      (fun s => s.hands worker) (fun s => s.draws worker) (HandleOpen worker) := by
  -- While the channel is open, it never waits, so that everything handed on gets in.
  intro s act t step there
  obtain ⟨capacity, connected⟩ := pollHandle_of_step worker step
  have before : HandleOpen worker s := ⟨connected there.1, capacity.symm.trans there.2⟩
  have linked : (s.executors worker).Linked features :=
    ⟨fun _ => before.2, fun off => absurd on (by simp [off])⟩
  -- What is put and what is drawn are the two ends of the queue.
  refine ⟨before, ?_⟩
  cases handover_of_step worker step with
  | handed undrawn handle =>
    have put : (t.executors worker).pollHandle.queue =
        (s.executors worker).pollHandle.queue ++ (s.hands worker act).toList := by
      rw [handle, hands]
      cases s.takes worker act with
      | none => simp
      | some message => simp [linked.handedOn_eq, Channel.extend, before.1]
    simp [undrawn, put]
  | drew untaken drawn front handle => simp [hands, untaken, drawn, front, handle]
  | closed exit untaken undrawn handle => simp [handle, Channel.disconnect, HandleOpen] at there

/-- What an executor takes is the oldest message of its channel. -/
theorem takes_eq_some_iff {message : Transaction} : s.takes worker act = some message ↔
    ∃ coin outcome rest, act = .recv worker coin outcome ∧
      (s.executors worker).state = .receiving ∧
      (s.executors worker).rx.queue = message :: rest := by
  -- Only a turn of the executor's own takes anything.
  constructor
  · intro taken
    cases act with
    | recv receiver coin outcome =>
      obtain ⟨⟨rfl, receiving⟩, front⟩ := Option.ite_none_right_eq_some.mp taken
      obtain ⟨rest, queue⟩ := List.head?_eq_some_iff.mp front
      exact ⟨coin, outcome, rest, rfl, receiving, queue⟩
    | _ => simp [takes] at taken
  · rintro ⟨coin, outcome, rest, rfl, receiving, front⟩
    rw [takes_recv receiving, front, List.head?_cons]

/-- Whatever an executor takes is in its channel, as the oldest message. -/
theorem takes_prefix (s : Pool n V) (worker : Fin n) (act : PoolAction n V) :
    (s.takes worker act).toList <+: (s.executors worker).rx.queue := by
  -- Either nothing is taken or the front.
  cases taken : s.takes worker act with
  | none => exact List.nil_prefix
  | some message =>
    obtain ⟨_, _, rest, -, -, front⟩ := takes_eq_some_iff.mp taken
    exact ⟨rest, by rw [front]; rfl⟩

/-- An executor that has left its loop takes nothing any more. -/
theorem takes_of_exited (exited : (s.executors worker).state = .exited) :
    s.takes worker act = none := by
  -- Messages are taken while the executor waits for one.
  by_contra some
  obtain ⟨message, taken⟩ := Option.ne_none_iff_exists'.mp some
  obtain ⟨_, _, _, -, receiving, -⟩ := takes_eq_some_iff.mp taken
  simp [exited] at receiving

/-- Who submits an operation is answered when the executor takes it, as the channel decides. -/
theorem reply_of_taken {call : CallId} {op : Operation} (awaited : s.Awaited)
    (linked : (s.executors worker).Linked features) (step : Steps (next features) s act t)
    (taken : s.takes worker act = some (.submitIoOp op call)) :
    t.reply call = some (if (s.executors worker).pollHandle.connected then .ok ()
      else .error (.ioPoller .actorSendError)) := by
  -- The caller has waited for this answer, and the message decides what the step is.
  obtain ⟨coin, outcome, rest, rfl, receiving, front⟩ := takes_eq_some_iff.mp taken
  have owed : call ∈ s.owed worker :=
    Executor.mem_owed.mpr ⟨op, front ▸ List.mem_cons_self⟩
  have waits : s.calls call = .waiting := awaited.waiting owed
  cases step_next step with
  | idled _ empty => simp [front] at empty
  | enqueued _ other => simp [front] at other
  | unpolled _ other => simp [front] at other
  | polled _ other => simp [front] at other
  | served _ other =>
    -- The executor serves this very request.
    obtain ⟨same, rfl⟩ := List.cons.inj (front.symm.trans other)
    obtain ⟨rfl, rfl⟩ := Transaction.submitIoOp.inj same
    have waiting : (s.setExecutor worker
        (((s.executors worker).take rest).pushToPoller op).2).calls call = .waiting := waits
    rw [PollingPool.reply_answer waiting]
    exact congrArg some (Executor.pushToPoller_result linked.neverWaits op)

/--
What an executor has told its submitters, in the order of their requests.

The accepted operations are those that were handed over to the poller thread; once one is refused,
nobody listens any more.
-/
structure Told (s : Pool n V) (worker : Fin n) (accepted refused : List (CallId × Operation))
    (drawn : List Operation) : Prop where
  handed : drawn ++ (s.executors worker).submitted = accepted.map Prod.snd
  ok : ∀ entry ∈ accepted, s.reply entry.1 = some (.ok ())
  error : ∀ entry ∈ refused, s.reply entry.1 = some (.error (.ioPoller .actorSendError))
  closed : refused ≠ [] → (s.executors worker).pollHandle.connected = false

variable {accepted refused : List (CallId × Operation)} {drawn drawn' : List Operation}

/-- A step that takes no request leaves what has been told as it is. -/
theorem Told.kept (told : s.Told worker accepted refused drawn) (awaited : s.Awaited)
    (step : Steps (next features) s act t)
    (handed : drawn' ++ (t.executors worker).submitted =
      drawn ++ (s.executors worker).submitted) : t.Told worker accepted refused drawn' where
  handed := handed.trans told.handed
  ok := fun entry there => PollingPool.reply_step awaited step (told.ok entry there)
  error := fun entry there => PollingPool.reply_step awaited step (told.error entry there)
  closed := fun some => by
    have before := told.closed some
    by_contra still
    simp [(pollHandle_of_step worker step).2 (by simpa using still)] at before

/-- A request that is taken is accepted as long as the poller thread listens, and then refused. -/
theorem Told.answered {call : CallId} {op : Operation} (awaited : s.Awaited)
    (linked : (s.executors worker).Linked features) (step : Steps (next features) s act t)
    (taken : s.takes worker act = some (.submitIoOp op call))
    (handle : (t.executors worker).pollHandle =
      (s.executors worker).pollHandle.extend [.submit op])
    (told : s.Told worker accepted refused drawn) :
    ∃ accepted' refused', accepted ++ refused ++ [(call, op)] = accepted' ++ refused' ∧
      t.Told worker accepted' refused' drawn := by
  -- What the poller thread still listens to decides on which list the request goes.
  have stays : ∀ {other : CallId} {result : ExecResult Unit}, s.reply other = some result →
      t.reply other = some result := fun known => PollingPool.reply_step awaited step known
  have now := reply_of_taken awaited linked step taken
  by_cases listens : (s.executors worker).pollHandle.connected = true
  · -- Nothing has been refused so far.
    obtain rfl : refused = [] := by
      by_contra some
      simp [told.closed some] at listens
    refine ⟨accepted ++ [(call, op)], [], by simp, ?_, ?_, by simp, by simp⟩
    -- The operation is the last one in the channel.
    · rw [List.map_append, ← told.handed, List.append_assoc, Executor.submitted, handle,
        Channel.extend, if_pos listens, Executor.submitted, List.filterMap_append]
      rfl
    · intro entry there
      rcases List.mem_append.mp there with old | new
      · exact stays (told.ok entry old)
      · obtain rfl := List.mem_singleton.mp new
        rwa [if_pos listens] at now
  -- From now on every request is refused, and the accepted ones stay accepted.
  · have closed : (t.executors worker).pollHandle = (s.executors worker).pollHandle := by
      rw [handle, Channel.extend, if_neg listens]
    refine ⟨accepted, refused ++ [(call, op)], by simp, ?_, ?_, ?_, ?_⟩
    · rw [← told.handed, Executor.submitted, closed, Executor.submitted]
    · exact fun entry there => stays (told.ok entry there)
    · intro entry there
      rcases List.mem_append.mp there with old | new
      · exact stays (told.error entry old)
      · obtain rfl := List.mem_singleton.mp new
        rwa [if_neg listens] at now
    · exact fun _ => by simpa [closed] using listens

/-- A step accepts or refuses the operation that the executor takes, if it takes one. -/
theorem Told.step (told : s.Told worker accepted refused drawn) (awaited : s.Awaited)
    (linked : (s.executors worker).Linked features) (step : Steps (next features) s act t) :
    ∃ accepted' refused',
      accepted ++ refused ++ ((s.takes worker act).bind Transaction.request).toList =
        accepted' ++ refused' ∧
      t.Told worker accepted' refused'
        (drawn ++ ((s.draws worker act).bind IoOp.operation).toList) := by
  -- What is taken may be a request, and what is drawn may be an operation.
  cases handover_of_step worker step with
  | handed undrawn handle =>
    rw [undrawn, Option.bind_none, Option.toList_none, List.append_nil]
    cases taken : s.takes worker act with
    | none =>
      rw [taken, Option.elim_none] at handle
      refine ⟨accepted, refused, by simp, told.kept awaited step ?_⟩
      rw [Executor.submitted, handle, Executor.submitted]
    | some message =>
      rw [taken, Option.elim_some, linked.handedOn_eq] at handle
      cases message with
      | submitIoOp op call => exact told.answered awaited linked step taken handle
      -- A task is not for the poller thread.
      | spawn task =>
        refine ⟨accepted, refused, by simp [Transaction.request], told.kept awaited step ?_⟩
        simp [Executor.submitted, handle, Transaction.ioOp]
      | poll =>
        -- The request to poll carries no operation.
        refine ⟨accepted, refused, by simp [Transaction.request], told.kept awaited step ?_⟩
        rw [Executor.submitted, handle, Channel.extend]
        split
        · simp [Executor.submitted, Transaction.ioOp, IoOp.operation]
        · rfl
  -- What the poller thread draws moves from the channel to what is drawn.
  | @drew message rest untaken taken front handle =>
    refine ⟨accepted, refused, by simp [untaken], told.kept awaited step ?_⟩
    rw [taken, Option.bind_some, Executor.submitted, handle, Executor.submitted, front,
      List.append_assoc]
    cases message <;> rfl
  | closed exit untaken undrawn handle =>
    -- The channel is closed, and what is in it stays there.
    refine ⟨accepted, refused, by simp [untaken], told.kept awaited step ?_⟩
    simp [undrawn, Executor.submitted, handle, Channel.disconnect]

end Pool

section Handover

variable {n : Nat} {V : Type*} {features : Features} {start last : Pool n V}
  {acts : List (PoolAction n V)}

/--
An executor answers its submitters as the poller thread listens: first all are told `Ok`, and from
the time when nobody listens any more all are told that the operation could not be sent.

The accepted operations are, in the order of the requests, those that the poller thread has taken
and those that are still in its channel.
-/
theorem submitters_told_in_order (fresh : start.Fresh features)
    (run : Run (Steps (Pool.next features)) start acts last) (worker : Fin n) :
    ∃ accepted refused : List (CallId × Operation),
      (observed (Pool.next features) (fun s => s.takes worker) start acts).filterMap
          Transaction.request = accepted ++ refused ∧
      (observed (Pool.next features) (fun s => s.draws worker) start acts).filterMap
          IoOp.operation ++ (last.executors worker).submitted = accepted.map Prod.snd ∧
      (∀ entry ∈ accepted, last.reply entry.1 = some (.ok ())) ∧
      (∀ entry ∈ refused, last.reply entry.1 = some (.error (.ioPoller .actorSendError))) ∧
      (refused ≠ [] → (last.executors worker).pollHandle.connected = false) := by
  -- Both lists are seen along the run, where each step adds to one of them at most.
  have requests : (observed (Pool.next features) (fun s => s.takes worker) start acts).filterMap
      Transaction.request = observed (Pool.next features)
        (fun s act => (s.takes worker act).bind Transaction.request) start acts :=
    (observed_filterMap (fun _ _ => rfl) start acts).symm
  have drawn : (observed (Pool.next features) (fun s => s.draws worker) start acts).filterMap
      IoOp.operation = observed (Pool.next features)
        (fun s act => (s.draws worker act).bind IoOp.operation) start acts :=
    (observed_filterMap (fun _ _ => rfl) start acts).symm
  rw [requests, drawn]
  clear requests drawn
  suffices told : ∃ accepted refused : List (CallId × Operation),
      observed (Pool.next features) (fun s act => (s.takes worker act).bind Transaction.request)
          start acts = accepted ++ refused ∧
        last.Told worker accepted refused (observed (Pool.next features)
          (fun s act => (s.draws worker act).bind IoOp.operation) start acts) by
    obtain ⟨accepted, refused, split, told⟩ := told
    exact ⟨accepted, refused, split, told.handed, told.ok, told.error, told.closed⟩
  -- The induction is on the run, which is extended at its end.
  induction run with
  | nil =>
    refine ⟨[], [], rfl, ?_, by simp, by simp, by simp⟩
    rcases fresh with rfl | rfl
    · show List.filterMap _ (Channel.queue (if features.io then _ else _)) = []
      split <;> rfl
    · rfl
  | @snoc acts mid last act earlier step ih =>
    obtain ⟨accepted, refused, split, told⟩ := ih
    -- Every submitter waits until it is answered, and no channel makes the executor wait.
    have awaited : mid.Awaited :=
      earlier.invariant fresh.awaited fun _ _ _ before step => before.step step
    have linked : (mid.executors worker).Linked features :=
      earlier.invariant (fresh.linked worker) fun _ _ _ before step => Pool.linked_step before step
    obtain ⟨accepted', refused', split', told'⟩ := told.step awaited linked step
    rw [earlier.observed_snoc, earlier.observed_snoc, split]
    exact ⟨accepted', refused', split', told'⟩

/-- Two operations are submitted to one executor, whose poller thread ends in between. -/
def submittedAroundExit {n : Nat} (worker : Fin n) : List (PoolAction n Nat) :=
  [.call (.submitIoOp (.deleteRegistration 3)), .store 0, .send 0, .recv worker false .pending,
    .check worker, .pollerExit worker, .call (.submitIoOp (.deleteRegistration 4)), .store 1,
    .send 1, .recv worker false .pending]

/-- The first one is accepted and is in the channel for good, and the second one is refused. -/
theorem submitters_told_in_order_exited :
    ∃ s : Pool 1 Nat, Run (Steps (Pool.next ⟨false, true⟩)) (.initialized ⟨false, true⟩)
        (submittedAroundExit 0) s ∧ s.reply 0 = some (.ok ()) ∧
      s.reply 1 = some (.error (.ioPoller .actorSendError)) ∧
      ∃ accepted refused : List (CallId × Operation),
        (observed (Pool.next ⟨false, true⟩) (fun s => s.takes 0)
          (.initialized ⟨false, true⟩ : Pool 1 Nat) (submittedAroundExit 0)).filterMap
            Transaction.request = accepted ++ refused ∧
        (∀ entry ∈ accepted, s.reply entry.1 = some (.ok ())) ∧
        (∀ entry ∈ refused, s.reply entry.1 = some (.error (.ioPoller .actorSendError))) := by
  -- The replay shows both answers, and the theorem that they came in this order.
  have replayed : (replay (Pool.next ⟨false, true⟩) (.initialized ⟨false, true⟩)
      (submittedAroundExit 0)).map (fun s : Pool 1 Nat => s.reply 0 == some (.ok ()) &&
        s.reply 1 == some (.error (.ioPoller .actorSendError))) = some true := by decide
  obtain ⟨s, run, passed⟩ := Run.of_replay_test replayed
  simp only [Bool.and_eq_true, beq_iff_eq] at passed
  obtain ⟨accepted, refused, split, -, ok, error, -⟩ :=
    submitters_told_in_order (.inl rfl) run 0
  exact ⟨s, run, passed.1, passed.2, accepted, refused, split, ok, error⟩

end Handover

end Imputio
