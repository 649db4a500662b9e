import Mathlib.Data.Nat.ModEq
import Imputio.Executor.Registration

/-! Which poller the operations on one descriptor reach, and what its tables say of it. -/

namespace Imputio

open Transition

/-- All operations on one descriptor are sent to the same executor, and so to the same poller. -/
def Affine (sent : List (CoordinatorCall × Nat)) : Prop :=
  ∀ op op' index index', (.submitIoOp op, index) ∈ sent → (.submitIoOp op', index') ∈ sent →
    op.rawFd = op'.rawFd → index = index'

/-- The calls that submit operations on one descriptor are a multiple of the pool size apart. -/
def KeepsTurn (n : Nat) (made : List CoordinatorCall) : Prop :=
  ∀ turn turn' op op', made[turn]? = some (.submitIoOp op) →
    made[turn']? = some (.submitIoOp op') → op.rawFd = op'.rawFd → turn ≡ turn' [MOD n]

/-- What is dealt out is a call of the sequence, sent to the executor whose turn it is. -/
theorem mem_dealt {n : Nat} {made : List CoordinatorCall} {request : CoordinatorCall}
    {index : Nat} : (request, index) ∈ dealt n made ↔
      ∃ turn, made[turn]? = some request ∧ (turn + 1) % n = index := by
  -- The turn of a call is its place in the sequence, counted from one.
  rw [dealt, List.mem_iff_getElem?]
  simp only [List.getElem?_mapIdx, Option.map_eq_some_iff]
  constructor
  · rintro ⟨turn, made', there, same⟩
    obtain ⟨rfl, rfl⟩ := Prod.mk.inj same
    exact ⟨turn, there, rfl⟩
  · rintro ⟨turn, there, rfl⟩
    exact ⟨turn, request, there, rfl⟩

/-- Operations on one descriptor share an executor exactly if their turns are congruent. -/
theorem affine_dealt_iff (n : Nat) (made : List CoordinatorCall) :
    Affine (dealt n made) ↔ KeepsTurn n made := by
  -- Both sides speak of the same pairs of turns, one of which is shifted by one.
  constructor
  · intro affine turn turn' op op' there there' same
    have together := affine op op' _ _ (mem_dealt.mpr ⟨turn, there, rfl⟩)
      (mem_dealt.mpr ⟨turn', there', rfl⟩) same
    exact Nat.ModEq.add_right_cancel' 1 together
  · intro keeps op op' index index' sent sent' same
    obtain ⟨turn, there, rfl⟩ := mem_dealt.mp sent
    obtain ⟨turn', there', rfl⟩ := mem_dealt.mp sent'
    exact (keeps turn turn' op op' there there' same).add_right 1

/-- Whatever is pushed to its end, its descriptor is in the table then, and no other is added. -/
theorem Poller.pushTokenEntry_known {policy : KeyPolicy} {p after : Poller} {op : Operation}
    {os : OsReply} {result : PollResult Unit}
    (pushed : p.pushTokenEntry policy op os = some (after, result)) (fd : RawFd) :
    after.eventSrcIds fd ≠ none ↔ fd = op.rawFd ∨ p.eventSrcIds fd ≠ none := by
  -- The entry of the descriptor is all that is written in the first table.
  have written : ∀ {entry : Nat × Option ChannelId},
      (∀ fd, after.eventSrcIds fd = if fd = op.rawFd then some entry else p.eventSrcIds fd) →
        (after.eventSrcIds fd ≠ none ↔ fd = op.rawFd ∨ p.eventSrcIds fd ≠ none) := by
    intro entry ids
    rw [ids]
    split
    · rename_i same
      exact iff_of_true (by simp) (.inl same)
    · rename_i apart
      simp [apart]
  cases pushed_effect pushed with
  | refused known occupied failed ids =>
    rw [ids]
    refine ⟨.inr, fun either => either.elim ?_ id⟩
    rintro rfl
    simp [known]
  | rewritten known occupied cloned ids => exact written ids
  | added unknown cloned ids => exact written ids
  | leaked unknown failed ids => exact written ids

namespace PollingPool

variable {n : Nat} {V : Type*} {features : Features} {policy : KeyPolicy} {s t : PollingPool n V}
  {act : PollingAction n V}

/-- The calls on the coordinator are made one after the other. -/
def OneAtATime (s : PollingPool n V) (act : PollingAction n V) : Prop := s.pool.OneAtATime act.act

instance (s : PollingPool n V) (act : PollingAction n V) : Decidable (s.OneAtATime act) :=
  inferInstanceAs (Decidable (s.pool.OneAtATime act.act))

/-- What is sent to whom along a list of actions. -/
def sent (features : Features) (start : PollingPool n V) (acts : List (PollingAction n V)) :
    List (CoordinatorCall × Nat) :=
  observed (Pool.next features) Pool.dispatched start.pool (acts.map PollingAction.act)

/-- Each descriptor has one poller, where it has one entry and where it is recognised. -/
structure DescriptorsKept (features : Features) (start : PollingPool n V)
    (acts : List (PollingAction n V)) (s : PollingPool n V) : Prop where
  affine : Affine (start.sent features acts)
  oneEntry : ∀ fd worker other p q, s.pollers worker = some p → s.pollers other = some q →
    p.eventSrcIds fd ≠ none → q.eventSrcIds fd ≠ none → worker = other
  recognised : ∀ before done after, s.processed = before ++ done :: after →
    (∃ earlier ∈ before, earlier.op.rawFd = done.op.rawFd) → done.known = true

/-- What a poller has pushed was sent to its executor, and its first table says so. -/
structure Traced (sent : List (CoordinatorCall × Nat)) (s : PollingPool n V) : Prop where
  requested : ∀ worker, ∀ op ∈ (s.pool.executors worker).requested,
    (.submitIoOp op, worker.val) ∈ sent
  submitted : ∀ worker, ∀ op ∈ (s.pool.executors worker).submitted,
    (.submitIoOp op, worker.val) ∈ sent
  processed : ∀ done ∈ s.processed, (.submitIoOp done.op, done.worker.val) ∈ sent
  entries : ∀ worker p fd, s.pollers worker = some p →
    (p.eventSrcIds fd ≠ none ↔ ∃ done ∈ s.processed, done.worker = worker ∧ done.op.rawFd = fd)
  known : ∀ before done after, s.processed = before ++ done :: after →
    (∃ earlier ∈ before, earlier.worker = done.worker ∧ earlier.op.rawFd = done.op.rawFd) →
      done.known = true

/-- With affinity, what each poller knows of its descriptors is all there is to know. -/
theorem Traced.descriptorsKept {start : PollingPool n V} {acts : List (PollingAction n V)}
    (traced : s.Traced (start.sent features acts)) (affine : Affine (start.sent features acts)) :
    DescriptorsKept features start acts s := by
  -- Two operations on one descriptor were sent to the same executor.
  have together : ∀ done ∈ s.processed, ∀ other ∈ s.processed, done.op.rawFd = other.op.rawFd →
      done.worker = other.worker := fun done there other there' same =>
    Fin.ext (affine _ _ _ _ (traced.processed done there) (traced.processed other there') same)
  refine ⟨affine, fun fd worker other p q alive alive' entry entry' => ?_,
    fun before done after split found => ?_⟩
  · obtain ⟨done, there, rfl, same⟩ := (traced.entries worker p fd alive).mp entry
    obtain ⟨done', there', rfl, same'⟩ := (traced.entries other q fd alive').mp entry'
    exact together done there done' there' (same.trans same'.symm)
  · obtain ⟨earlier, there, same⟩ := found
    have member : earlier ∈ s.processed := by
      rw [split]
      exact List.mem_append_left _ there
    have member' : done ∈ s.processed := by
      rw [split]
      exact List.mem_append_right _ List.mem_cons_self
    exact traced.known before done after split
      ⟨earlier, there, together earlier member done member' same, same⟩

end PollingPool

namespace Pool

variable {n : Nat} {V : Type*} {features : Features} {s t : Pool n V} {act : PoolAction n V}

/-- An operation in the channel of an executor was there before or is sent to it now. -/
theorem requested_step (step : Steps (next features) s act t) {worker : Fin n} {op : Operation}
    (there : op ∈ (t.executors worker).requested) :
    op ∈ (s.executors worker).requested ∨
      s.dispatched act = some (.submitIoOp op, worker.val) := by
  -- The traffic of the step says which channels change, and only a send puts anything in.
  cases step_traffic step with
  | quiet _ _ _ _ _ _ same => exact .inl (same.requested worker there)
  | asked _ _ same => exact .inl (same.requested worker there)
  | stored _ _ _ same => exact .inl (same.requested worker there)
  | received _ _ _ same => exact .inl (same.requested worker there)
  | @sent call request index state _ asked calls done unmoved requested submitted =>
    refine (requested worker op there).imp_right fun new => ?_
    obtain ⟨rfl, carries⟩ := new
    -- Only a call that submits an operation carries one.
    cases request with
    | submitIoOp op' =>
      obtain rfl : op' = op := Option.some.inj carries
      simp [dispatched, asked]
    | spawn priority => simp [CoordinatorCall.operation] at carries
    | poll => simp [CoordinatorCall.operation] at carries
  | @served taker coin outcome call op' rest result exec front queue =>
    rw [PollingPool.answer_executors, setExecutor_apply] at there
    split at there
    · rename_i here
      subst here
      rw [Executor.requested, queue] at there
      rw [Executor.requested, front]
      exact .inl (List.mem_cons_of_mem _ there)
    · exact .inl there
  | @taken taker message rest =>
    rw [setExecutor_apply] at there
    split at there
    · rename_i here
      exact .inl (here ▸ there)
    · exact .inl there

/-- An operation on its way to a poller thread was on its way before or is handed over now. -/
theorem submitted_step (step : Steps (next features) s act t) {worker : Fin n} {op : Operation}
    (there : op ∈ (t.executors worker).submitted) :
    op ∈ (s.executors worker).submitted ∨ op ∈ (s.executors worker).requested := by
  -- Only a request that is taken out of the channel is handed over.
  cases step_traffic step with
  | quiet _ _ _ _ _ _ same => exact .inl (same.submitted worker ▸ there)
  | asked _ _ same => exact .inl (same.submitted worker ▸ there)
  | stored _ _ _ same => exact .inl (same.submitted worker ▸ there)
  | received _ _ _ same => exact .inl (same.submitted worker ▸ there)
  | sent _ _ _ _ _ submitted => exact .inl (submitted worker ▸ there)
  | @served taker coin outcome call op' rest result exec front queue pushed handed =>
    rw [PollingPool.answer_executors, setExecutor_apply] at there
    split at there
    · rename_i here
      subst here
      rcases handed with ⟨-, more⟩ | ⟨-, same⟩
      · rcases List.mem_append.mp (more ▸ there) with old | new
        · exact .inl old
        · -- The operation that is handed over was the oldest one in the channel.
          obtain rfl := List.mem_singleton.mp new
          rw [Executor.requested, front]
          exact .inr List.mem_cons_self
      · exact .inl (same ▸ there)
    · exact .inl there
  | @taken taker message rest front =>
    rw [setExecutor_apply] at there
    split at there
    · rename_i here
      subst here
      rw [Executor.submitted, front]
      exact .inl ((List.Sublist.filterMap _ (List.sublist_cons_self message rest)).subset there)
    · exact .inl there

end Pool

namespace PollingPool

variable {n : Nat} {V : Type*} {features : Features} {policy : KeyPolicy} {s t : PollingPool n V}
  {act : PollingAction n V}

/-- In a longer list the last element is split off, or the split lies in the list before. -/
theorem split_concat {α : Type*} {xs before after : List α} {x y : α}
    (split : xs ++ [y] = before ++ x :: after) :
    (after = [] ∧ x = y ∧ xs = before) ∨
      ∃ rest, after = rest ++ [y] ∧ xs = before ++ x :: rest := by
  -- Induction from the end of what follows the element.
  induction after using List.reverseRecOn with
  | nil =>
    obtain ⟨rfl, same⟩ := List.append_inj' split rfl
    exact .inl ⟨rfl, (List.cons.inj same).1.symm, rfl⟩
  | append_singleton rest last =>
    rw [← List.cons_append, ← List.append_assoc] at split
    obtain ⟨rfl, same⟩ := List.append_inj' split rfl
    exact .inr ⟨rest, by rw [(List.cons.inj same).1], rfl⟩

/-- Every step keeps the pollers and their tables in line with what was sent. -/
theorem Traced.step {sent : List (CoordinatorCall × Nat)} (traced : s.Traced sent)
    (forwarded : s.Forwarded) (step : Steps (next features policy) s act t) :
    t.Traced (sent ++ (s.pool.dispatched act.act).toList) := by
  -- Only a poller thread that takes an operation writes a table or the record of pushes.
  have inner := next_pool step
  have older : ∀ {entry : CoordinatorCall × Nat}, entry ∈ sent →
      entry ∈ sent ++ (s.pool.dispatched act.act).toList :=
    fun there => List.mem_append_left _ there
  -- What was sent before is still part of what was sent.
  have requested : ∀ worker, ∀ op ∈ (t.pool.executors worker).requested,
      (.submitIoOp op, worker.val) ∈ sent ++ (s.pool.dispatched act.act).toList := by
    intro worker op there
    rcases Pool.requested_step inner there with old | new
    · exact older (traced.requested worker op old)
    · rw [new]
      exact List.mem_append_right _ (List.mem_singleton_self _)
  have submitted : ∀ worker, ∀ op ∈ (t.pool.executors worker).submitted,
      (.submitIoOp op, worker.val) ∈ sent ++ (s.pool.dispatched act.act).toList := by
    intro worker op there
    rcases Pool.submitted_step inner there with old | new
    · exact older (traced.submitted worker op old)
    · exact older (traced.requested worker op new)
  -- Only a push writes a table, and it is recorded with the poller that makes it.
  cases step_handled step with
  | kept pollers handed processed =>
    refine ⟨requested, submitted, fun done there => ?_, fun worker p fd alive => ?_, ?_⟩
    · exact older (traced.processed done (processed ▸ there))
    · rw [processed]
      exact traced.entries worker p fd (pollers worker p alive)
    · rw [processed]
      exact traced.known
  | handed =>
    exact ⟨requested, submitted, fun done there => older (traced.processed done there),
      traced.entries, traced.known⟩
  | @pushed worker p op rest os ready alive front =>
    obtain ⟨call, -, recorded⟩ := forwarded.recorded policy p os front
    have there : op ∈ (s.pool.executors worker).submitted := by
      rw [Executor.submitted, front]
      exact List.mem_cons_self
    rcases recorded with ⟨panicked, same⟩ | ⟨after, result, pushed, more⟩
    · -- A poller that panics is gone, so nothing is said of its table.
      refine ⟨requested, submitted, fun done there => ?_, fun other q fd now => ?_, ?_⟩
      · exact older (traced.processed done (same ▸ there))
      · rw [same]
        rcases submit_pollers now with ⟨-, result, pushed⟩ | ⟨-, same'⟩
        · simp [panicked] at pushed
        · exact traced.entries other q fd same'
      · rw [same]
        exact traced.known
    · refine ⟨requested, submitted, fun done there' => ?_, fun other q fd now => ?_,
        fun before done later split found => ?_⟩
      · rcases List.mem_append.mp (more ▸ there') with old | new
        · exact older (traced.processed done old)
        · obtain rfl := List.mem_singleton.mp new
          exact older (traced.submitted worker op there)
      · rw [more]
        simp only [List.mem_append, List.mem_singleton, or_and_right, exists_or, exists_eq_left]
        rcases submit_pollers now with ⟨rfl, result', pushed'⟩ | ⟨apart, same⟩
        · -- The table of this poller has the new descriptor and no other new one.
          obtain ⟨rfl, -⟩ := Prod.mk.inj (Option.some.inj (pushed.symm.trans pushed'))
          rw [Poller.pushTokenEntry_known pushed, traced.entries other p fd alive, or_comm]
          simp [eq_comm]
        · rw [traced.entries other q fd same]
          simp [Ne.symm apart]
      · rcases split_concat (more.symm.trans split) with ⟨rfl, rfl, rfl⟩ | ⟨rest, rfl, old⟩
        · -- The descriptor is known if an operation on it was pushed before.
          obtain ⟨earlier, member, same, subject⟩ := found
          have entry := (traced.entries worker p op.rawFd alive).mpr
            ⟨earlier, member, same, subject⟩
          exact Option.isSome_iff_ne_none.mpr entry
        · exact traced.known before done rest old found

/-- A fresh coordinator has sent nothing, and its pollers know nothing. -/
theorem Fresh.traced (fresh : s.Fresh features) : s.Traced [] := by
  -- Every channel and every table is empty.
  have forwarded := fresh.forwarded
  obtain ⟨pool, unused, rfl⟩ := fresh
  refine ⟨fun worker op there => ?_, fun worker op there => ?_, fun _ there => ?_,
    fun worker p fd alive => ?_, fun before done after split => ?_⟩
  · have empty : ((started features pool).pool.executors worker).requested = [] := by
      rcases unused with rfl | rfl
      all_goals rfl
    simp [empty] at there
  · have none : [] = ((started features pool).pool.executors worker).submitted :=
      forwarded.aligned worker
    simp [← none] at there
  · exact absurd there List.not_mem_nil
  · simp [started_pollers alive, Poller.new, started]
  · simp [started] at split

/-- Along a run, everything that the pollers know was sent to them. -/
theorem traced_of_run {start last : PollingPool n V} {acts : List (PollingAction n V)}
    (fresh : start.Fresh features) (run : Run (Steps (next features policy)) start acts last) :
    last.Traced (start.sent features acts) := by
  -- Induction on the run, with what is sent observed along it.
  induction run with
  | nil => exact fresh.traced
  | @snoc acts mid last act earlier taken ih =>
    have forwarded : mid.Forwarded :=
      earlier.invariant fresh.forwarded fun _ _ _ before step => before.step step
    have inner : Run (Steps (Pool.next features)) start.pool (acts.map PollingAction.act)
        mid.pool :=
      earlier.map fun _ _ _ step => next_pool step
    rw [sent, List.map_append, List.map_singleton, inner.observed_snoc]
    exact ih.step forwarded taken

end PollingPool

section Affinity

variable {n : Nat} {V : Type*} {features : Features} {policy : KeyPolicy}
  {start last : PollingPool n V} {acts : List (PollingAction n V)}

/--
When calls are made one after the other, each descriptor has one poller, in whose tables it has
one entry and is recognised, exactly if the calls that submit operations on one descriptor are a
multiple of the number of executors apart.
-/
theorem descriptor_affinity_iff (positive : 0 < n) (small : n ≤ usizeMax)
    (fresh : start.Fresh features)
    (run : Run (Guarded PollingPool.OneAtATime (Steps (PollingPool.next features policy))) start
      acts last) (idle : last.pool.Idle) :
    PollingPool.DescriptorsKept features start acts last ↔
      KeepsTurn n (requests (acts.map PollingAction.act)) := by
  -- Calls made one after the other are dealt out in turn, which settles what is sent.
  have inner : Run (Guarded Pool.OneAtATime (Steps (Pool.next features))) start.pool
      (acts.map PollingAction.act) last.pool :=
    run.map fun _ _ _ step => ⟨step.1, PollingPool.next_pool step.2⟩
  have unused : start.pool.Fresh features := by
    obtain ⟨pool, unused, rfl⟩ := fresh
    exact unused
  have sent : start.sent features acts = dealt n (requests (acts.map PollingAction.act)) :=
    Pool.observed_eq_dealt positive small unused inner idle
  rw [← affine_dealt_iff, ← sent]
  exact ⟨fun kept => kept.affine, (PollingPool.traced_of_run fresh run.unguard).descriptorsKept⟩

/-- What the system answers in the runs below: it accepts every source, and no event is ready. -/
def accepting {n : Nat} (act : PoolAction n Nat) : PollingAction n Nat :=
  ⟨act, ⟨none, true, 2, [2]⟩, .ok []⟩

/-- One descriptor is registered twice, with an executor each. -/
def registerTwice {n : Nat} (first second : Fin n) : List (PollingAction n Nat) :=
  [.call (.submitIoOp (.registrationFdAdd 7 .readable none)), .store 0, .send 0,
    .recv first false .pending, .pollerRecv first, .receive 0,
    .call (.submitIoOp (.registrationFdAdd 7 .writable none)), .store 1, .send 1,
    .recv second false .pending, .pollerRecv second, .receive 1].map accepting

/-- The second registration goes to the other poller, which does not know the descriptor. -/
theorem registrations_go_apart :
    ∃ s : PollingPool 2 Nat, Run (Guarded PollingPool.OneAtATime
        (Steps (PollingPool.next ⟨false, true⟩ .inOrder)))
        (.started ⟨false, true⟩ (.initialized ⟨false, true⟩)) (registerTwice 1 0) s ∧ s.pool.Idle ∧
      s.processed.map PushedOperation.known = [false, false] ∧
      (∀ worker, (s.pollers worker).bind (Poller.eventSrcIds · 7) = some (0, none)) ∧
      ¬ PollingPool.DescriptorsKept ⟨false, true⟩
        (.started ⟨false, true⟩ (.initialized ⟨false, true⟩)) (registerTwice 1 0) s := by
  -- The run is replayed with its condition checked at every step.
  have replayed : (replay (checked PollingPool.OneAtATime
      (PollingPool.next ⟨false, true⟩ .inOrder))
      (.started ⟨false, true⟩ (.initialized ⟨false, true⟩) : PollingPool 2 Nat)
      (registerTwice 1 0)).map
      (fun s => decide s.pool.Idle && s.processed.map PushedOperation.known == [false, false] &&
        decide (∀ worker, (s.pollers worker).bind (Poller.eventSrcIds · 7) = some (0, none))) =
        some true := by
    decide
  obtain ⟨s, run, final⟩ := Run.of_replay_test replayed
  simp only [Bool.and_eq_true, beq_iff_eq, decide_eq_true_eq] at final
  obtain ⟨⟨idle, known⟩, entries⟩ := final
  refine ⟨s, run.mono guarded_of_checked, idle, known, entries, fun kept => ?_⟩
  -- Both pollers have an entry for the descriptor.
  obtain ⟨p, alive, entry⟩ := Option.bind_eq_some_iff.mp (entries 0)
  obtain ⟨q, alive', entry'⟩ := Option.bind_eq_some_iff.mp (entries 1)
  have same := kept.oneEntry 7 0 1 p q alive alive' (by simp [entry]) (by simp [entry'])
  simp at same

/-- One descriptor is registered and then modified, with a poll in between. -/
def registerPollModify {n : Nat} (worker : Fin n) : List (PollingAction n Nat) :=
  [.call (.submitIoOp (.registrationFdAdd 7 .readable none)), .store 0, .send 0,
    .recv worker false .pending, .pollerRecv worker, .receive 0, .call .poll, .store 1, .send 1,
    .call (.submitIoOp (.modifyRegistration 7 .writable none)), .store 2, .send 2, .check worker,
    .recv worker false .pending, .pollerRecv worker, .receive 2].map accepting

/-- With the poll in between, the modification reaches the poller that knows the descriptor. -/
theorem descriptor_affinity_iff_modified :
    ∃ s : PollingPool 2 Nat, s.processed.map PushedOperation.known = [false, true] ∧
      PollingPool.DescriptorsKept ⟨false, true⟩
        (.started ⟨false, true⟩ (.initialized ⟨false, true⟩)) (registerPollModify 1) s := by
  -- The run is replayed, and the condition is checked for its two operations.
  have replayed : (replay (checked PollingPool.OneAtATime
      (PollingPool.next ⟨false, true⟩ .inOrder))
      (.started ⟨false, true⟩ (.initialized ⟨false, true⟩) : PollingPool 2 Nat)
      (registerPollModify 1)).map (fun s => decide s.pool.Idle &&
        s.processed.map PushedOperation.known == [false, true]) = some true := by
    decide
  obtain ⟨s, run, final⟩ := Run.of_replay_test replayed
  simp only [Bool.and_eq_true, beq_iff_eq, decide_eq_true_eq] at final
  -- The two operations are made at the turns zero and two.
  have keeps : KeepsTurn 2 (requests ((registerPollModify (1 : Fin 2)).map PollingAction.act)) := by
    have made : requests ((registerPollModify (1 : Fin 2)).map PollingAction.act) =
        [.submitIoOp (.registrationFdAdd 7 .readable none), .poll,
          .submitIoOp (.modifyRegistration 7 .writable none)] := rfl
    rw [made]
    have turns : ∀ turn op, ([.submitIoOp (.registrationFdAdd 7 .readable none), .poll,
        .submitIoOp (.modifyRegistration 7 .writable none)] : List CoordinatorCall)[turn]? =
          some (.submitIoOp op) → turn = 0 ∨ turn = 2 := by
      intro turn op there
      rcases turn with _ | _ | _ | turn
      · exact .inl rfl
      · simp at there
      · exact .inr rfl
      · simp at there
    intro turn turn' op op' there there' _
    rcases turns turn op there with rfl | rfl <;> rcases turns turn' op' there' with rfl | rfl
    all_goals rfl
  exact ⟨s, final.2, (descriptor_affinity_iff (by decide) (by decide) ⟨_, .inl rfl, rfl⟩
    (run.mono guarded_of_checked) final.1).mpr keeps⟩

end Affinity

end Imputio
