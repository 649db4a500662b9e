import Imputio.Task.Task
import Imputio.Task.Waker

/-! The allocations behind a task, from its creation to the point where nobody uses it any more. -/

namespace Imputio

open Transition

/-- What `ImputioTask::new` allocates for one task, and who still uses it. -/
structure TaskMemory where
  -- The `InnerTask`, which owns the future.
  innerTask : RefCount
  wakers : WakerSystem
  -- The header behind the pointer that `new` throws away.
  spareHeader : ArcInner ImputioTaskHeader
  -- Whether a queue, a channel or a caller holds the task.
  held : Bool
  -- The waker behind the context of a poll that is going on.
  context : Option WakerId
  deriving DecidableEq

/-- What happens to the memory of one task. -/
inductive MemoryAction where
  -- `poll_task` and `run` make a context before they poll, and drop its waker at their end.
  | beginPoll
  | endPoll
  -- Whoever owns a clone of the waker uses it.
  | useWaker (act : WakerAction)
  -- The task goes out of scope.
  | drop
  deriving DecidableEq, Repr

namespace TaskMemory

/-- The waker that is a field of the task. -/
def waker : WakerId := 0

/-- `ImputioTask::new`: three allocations, each turned into a raw pointer. -/
def new : Option TaskMemory := do
  let (header, inner) ← ImputioWaker.newWakerInnerPtr
  let innerTask ← RefCount.alloc.intoRaw
  return ⟨innerTask, ⟨header, {waker}, waker + 1⟩, inner, true, none⟩

/-- Clone the waker for the context, and follow the raw pointer to the future. -/
def beginPoll (mem : TaskMemory) : Option TaskMemory := do
  let wakers ← mem.wakers.call (.clone waker)
  if mem.innerTask.Freed then none
  else return { mem with wakers := wakers, context := some mem.wakers.nextWaker }

/-- Drop the waker of the context. -/
def endPoll (mem : TaskMemory) (context : WakerId) : Option TaskMemory := do
  let wakers ← mem.wakers.call (.drop context)
  return { mem with wakers := wakers, context := none }

/--
What dropping an `ImputioTask` does.

The type has no destructor of its own: its waker is dropped, and its raw pointer is just gone.
-/
def drop (mem : TaskMemory) : Option TaskMemory := do
  let wakers ← mem.wakers.call (.drop waker)
  return { mem with wakers := wakers, held := false }

/-- Call the function of the table that a use of a waker stands for. -/
def useWaker (mem : TaskMemory) (act : WakerAction) : Option TaskMemory :=
  (mem.wakers.call act).map fun wakers => { mem with wakers := wakers }

/-- The waker of the task and that of a context are only lent to whoever uses wakers. -/
def Lent (mem : TaskMemory) (id : WakerId) : Prop :=
  id = waker ∨ mem.context = some id

instance (mem : TaskMemory) (id : WakerId) : Decidable (mem.Lent id) :=
  inferInstanceAs (Decidable (_ ∨ _))

/-- What each action does, where it is possible; there is nothing left after undefined behaviour. -/
def next (mem : TaskMemory) : MemoryAction → Option (Option TaskMemory)
  | .beginPoll => if mem.held ∧ mem.context = none then some mem.beginPoll else none
  | .endPoll => mem.context.map mem.endPoll
  | .useWaker act =>
    if act.waker ∈ mem.wakers.owned ∧ (act.consumed = 1 → ¬ mem.Lent act.waker) then
      some (mem.useWaker act)
    else none
  | .drop => if mem.held ∧ mem.context = none then some mem.drop else none

/-- Nobody holds the task, and none of its wakers is outstanding. -/
def GivenUp (mem : TaskMemory) : Prop := mem.held = false ∧ mem.wakers.owned = ∅

instance (mem : TaskMemory) : Decidable mem.GivenUp := inferInstanceAs (Decidable (_ ∧ _))

/-- Every allocation that was made for the task is gone. -/
def GivenBack (mem : TaskMemory) : Prop :=
  mem.innerTask.Freed ∧ mem.wakers.header.count.Freed ∧ mem.spareHeader.count.Freed

instance (mem : TaskMemory) : Decidable mem.GivenBack := inferInstanceAs (Decidable (_ ∧ _ ∧ _))

/-- All references to what was allocated for the task. -/
def references (mem : TaskMemory) : Nat :=
  mem.innerTask.strong + mem.wakers.header.count.strong + mem.spareHeader.count.strong

/-- The references to the memory of a task, as far as they are accounted for by who uses it. -/
structure Accounted (mem : TaskMemory) : Prop where
  innerTask : mem.innerTask = .of 0 1
  spareHeader : mem.spareHeader.count = .of 0 1
  wakers : mem.wakers.Balanced
  own : mem.held → waker ∈ mem.wakers.owned
  context : ∀ id, mem.context = some id → mem.held ∧ id ∈ mem.wakers.owned ∧ id ≠ waker

variable {mem after : TaskMemory} {act : MemoryAction}

/-- The two raw pointers that nothing drops keep their references for good. -/
theorem Accounted.not_givenBack (accounted : mem.Accounted) : ¬ mem.GivenBack := by
  -- The allocation of the inner task still counts the pointer that was made of it.
  rintro ⟨freed, -, -⟩
  rw [accounted.innerTask, RefCount.of_freed_iff] at freed
  exact Nat.one_ne_zero freed.2

/-- All references are those of the two raw pointers and those of the wakers. -/
theorem Accounted.references (accounted : mem.Accounted) :
    mem.references = mem.wakers.owned.card + 2 := by
  -- Each of the three counts is known.
  rw [TaskMemory.references, accounted.innerTask, accounted.spareHeader, accounted.wakers.strong]
  simp only [RefCount.of_strong]
  omega

/-- A new task is accounted for. -/
theorem new_accounted : ∃ mem, new = some mem ∧ mem.Accounted ∧ mem.held = true ∧
    mem.context = none ∧ mem.wakers.owned = {waker} := by
  -- The memory after the constructor is written down and checked field by field.
  refine ⟨⟨.of 0 1, ⟨⟨.of 0 1, .default⟩, {waker}, waker + 1⟩, ⟨.of 0 1, .default⟩, true, none⟩,
    ?_, ?_, rfl, rfl, rfl⟩
  · simp [new, ImputioWaker.newWakerInnerPtr, ImputioWaker.newWaker_eq, RefCount.alloc]
  · exact ⟨rfl, rfl, ⟨rfl, by simp⟩, by simp, by simp⟩

/-- An action gives up the task: it leaves neither a holder of the task nor a waker. -/
def GivesUp (mem : TaskMemory) : MemoryAction → Prop
  | .useWaker act =>
    mem.held = false ∧ act.consumed = 1 ∧ mem.wakers.owned = {act.waker}
  | .drop => mem.wakers.owned = {waker}
  | _ => False

instance (mem : TaskMemory) (act : MemoryAction) : Decidable (mem.GivesUp act) :=
  match act with
  | .beginPoll => inferInstanceAs (Decidable False)
  | .endPoll => inferInstanceAs (Decidable False)
  | .useWaker _ => inferInstanceAs (Decidable (_ ∧ _ ∧ _))
  | .drop => inferInstanceAs (Decidable (_ = _))

/-- A function of the table that is called on an owned waker keeps the others accounted for. -/
theorem Accounted.call (accounted : mem.Accounted) {act : WakerAction}
    (owns : act.waker ∈ mem.wakers.owned) :
    ∃ wakers, mem.wakers.call act = some wakers ∧ wakers.Balanced ∧
      wakers.owned = mem.wakers.ownedAfter act := by
  obtain ⟨wakers, called, balanced, -⟩ := accounted.wakers.call owns
  exact ⟨wakers, called, balanced, WakerSystem.call_owned called⟩

/-- A poll starts with a new clone of the task's waker, and the task is held. -/
theorem Accounted.beginPoll (accounted : mem.Accounted) (held : mem.held = true) :
    ∃ after, mem.beginPoll = some after ∧ after.Accounted ∧ after.held = true ∧
      after.context = some mem.wakers.nextWaker ∧
      after.wakers.owned = insert mem.wakers.nextWaker mem.wakers.owned := by
  -- The clone is counted before anybody uses it, and the task keeps its own waker.
  have own := accounted.own held
  have lends : (WakerAction.clone waker).waker ∈ mem.wakers.owned := own
  obtain ⟨wakers, called, balanced, owned⟩ := accounted.call lends
  have alive : ¬ mem.innerTask.Freed := by
    rw [accounted.innerTask]
    decide
  refine ⟨{ mem with wakers := wakers, context := some mem.wakers.nextWaker }, ?_, ?_, held,
    rfl, owned⟩
  · rw [TaskMemory.beginPoll, called]
    exact if_neg alive
  · refine ⟨accounted.innerTask, accounted.spareHeader, balanced, fun _ => ?_, fun id same => ?_⟩
    · rw [owned]
      exact Finset.mem_insert_of_mem own
    · -- The clone has a number that no waker had before, the task's own one included.
      obtain rfl := Option.some.inj same
      refine ⟨held, ?_, fun again => ?_⟩
      · rw [owned]
        exact Finset.mem_insert_self ..
      · exact absurd (accounted.wakers.fresh waker own) (by rw [again]; exact Nat.lt_irrefl _)

/-- A poll ends by dropping the waker of its context, and the task is still held. -/
theorem Accounted.endPoll (accounted : mem.Accounted) {id : WakerId}
    (polling : mem.context = some id) :
    ∃ after, mem.endPoll id = some after ∧ after.Accounted ∧ after.held = true ∧
      after.context = none ∧ after.wakers.owned = mem.wakers.owned.erase id := by
  -- The context is the owner of its waker until the poll ends.
  obtain ⟨held, lends, apart⟩ := accounted.context id polling
  have owns : (WakerAction.drop id).waker ∈ mem.wakers.owned := lends
  obtain ⟨wakers, called, balanced, owned⟩ := accounted.call owns
  refine ⟨{ mem with wakers := wakers, context := none }, ?_, ?_, held, rfl, owned⟩
  · rw [TaskMemory.endPoll, called]
    rfl
  · refine ⟨accounted.innerTask, accounted.spareHeader, balanced, fun _ => ?_, by simp⟩
    rw [owned]
    exact WakerSystem.mem_ownedAfter (accounted.own held) fun _ => apart.symm

/-- Whoever owns a waker may use it, and it is given up with the last one only. -/
theorem Accounted.useWaker (accounted : mem.Accounted) {act : WakerAction}
    (owns : act.waker ∈ mem.wakers.owned) (spared : act.consumed = 1 → ¬ mem.Lent act.waker) :
    ∃ after, mem.useWaker act = some after ∧ after.Accounted ∧
      (after.GivenUp ↔ mem.GivesUp (.useWaker act)) := by
  -- A use takes from the owned wakers what it consumes, and nothing else.
  obtain ⟨wakers, called, balanced, owned⟩ := accounted.call owns
  refine ⟨{ mem with wakers := wakers }, ?_, ?_, ?_⟩
  · rw [TaskMemory.useWaker, called]
    rfl
  · -- What is only lent is not consumed.
    refine ⟨accounted.innerTask, accounted.spareHeader, balanced, fun held => ?_,
      fun id polling => ?_⟩
    · rw [owned]
      refine WakerSystem.mem_ownedAfter (accounted.own held) fun consumed same => ?_
      exact spared consumed (.inl same.symm)
    · obtain ⟨held, lends, apart⟩ := accounted.context id polling
      refine ⟨held, ?_, apart⟩
      rw [owned]
      refine WakerSystem.mem_ownedAfter lends fun consumed same => ?_
      exact spared consumed (.inr (by rw [← same]; exact polling))
  · show mem.held = false ∧ wakers.owned = ∅ ↔ _
    rw [owned, WakerSystem.ownedAfter_eq_empty_iff owns]
    rfl

/-- Dropping the task drops its own waker, and no one else's. -/
theorem Accounted.drop (accounted : mem.Accounted) (held : mem.held = true)
    (idle : mem.context = none) :
    ∃ after, mem.drop = some after ∧ after.Accounted ∧ after.held = false ∧ after.context = none ∧
      after.wakers.owned = mem.wakers.owned.erase waker := by
  -- A task that is held owns its waker.
  have owns : (WakerAction.drop waker).waker ∈ mem.wakers.owned := accounted.own held
  obtain ⟨wakers, called, balanced, owned⟩ := accounted.call owns
  refine ⟨{ mem with wakers := wakers, held := false }, ?_, ?_, rfl, idle, owned⟩
  · rw [TaskMemory.drop, called]
    rfl
  · exact ⟨accounted.innerTask, accounted.spareHeader, balanced, by simp, by simp [idle]⟩

/-- Every action on a task is defined and keeps its memory accounted for. -/
theorem Accounted.next {out : Option TaskMemory} (accounted : mem.Accounted)
    (taken : mem.next act = some out) :
    ∃ after, out = some after ∧ after.Accounted ∧ (after.GivenUp ↔ mem.GivesUp act) := by
  -- While the task is held it is not given up.
  have kept : ∀ {after : TaskMemory}, after.held = true → (after.GivenUp ↔ False) := by
    intro after held
    exact iff_false_intro fun up => absurd up.1 (by simp [held])
  cases act with
  | beginPoll =>
    obtain ⟨⟨held, -⟩, rfl⟩ := enabled_iff.mp taken
    obtain ⟨after, begun, accounted', held', -⟩ := accounted.beginPoll held
    exact ⟨after, begun, accounted', kept held'⟩
  | endPoll =>
    obtain ⟨id, polling, rfl⟩ := Option.map_eq_some_iff.mp taken
    obtain ⟨after, ended, accounted', held', -⟩ := accounted.endPoll polling
    exact ⟨after, ended, accounted', kept held'⟩
  | useWaker use =>
    obtain ⟨⟨owns, spared⟩, rfl⟩ := enabled_iff.mp taken
    exact accounted.useWaker owns spared
  | drop =>
    obtain ⟨⟨held, idle⟩, rfl⟩ := enabled_iff.mp taken
    obtain ⟨after, dropped, accounted', held', -, owned⟩ := accounted.drop held idle
    have some : mem.wakers.owned ≠ ∅ := Finset.ne_empty_of_mem (accounted.own held)
    refine ⟨after, dropped, accounted', ?_⟩
    simp [GivenUp, GivesUp, held', owned, Finset.erase_eq_empty_iff, some]

end TaskMemory

/-- Something that happens to the tasks of a process. -/
inductive TaskAction where
  | new
  | act (id : TaskId) (act : MemoryAction)
  deriving DecidableEq, Repr

/-- The memory of all tasks that were ever made, in the order of their making. -/
abbrev TaskHeap := List TaskMemory

namespace TaskHeap

open TaskMemory

/-- What each action does; there is no heap after undefined behaviour. -/
def next (s : Option TaskHeap) (act : TaskAction) : Option (Option TaskHeap) :=
  match s, act with
  | none, _ => some none
  | some heap, .new => some (TaskMemory.new.map fun mem => heap ++ [mem])
  | some heap, .act id act =>
    (heap[id]?.bind fun mem => mem.next act).map fun out => out.map fun mem => heap.set id mem

/-- What nobody uses any more is given back, for each task. -/
def AllGivenBack (s : Option TaskHeap) : Prop :=
  ∀ heap ∈ s, ∀ mem ∈ heap, mem.GivenUp → mem.GivenBack

/-- An action gives up no task. -/
def GivesUpNone (s : Option TaskHeap) (act : TaskAction) : Prop :=
  match s, act with
  | some heap, .act id act => ∀ mem ∈ heap[id]?, ¬ mem.GivesUp act
  | _, _ => True

instance (s : Option TaskHeap) (act : TaskAction) : Decidable (GivesUpNone s act) :=
  match s, act with
  | some heap, .act id act => inferInstanceAs (Decidable (∀ mem ∈ heap[id]?, ¬ mem.GivesUp act))
  | none, _ => inferInstanceAs (Decidable True)
  | some _, .new => inferInstanceAs (Decidable True)

/-- There was no undefined behaviour, and the memory of every task is accounted for. -/
def AllAccounted (s : Option TaskHeap) : Prop :=
  ∃ heap, s = some heap ∧ ∀ mem ∈ heap, mem.Accounted

variable {s t : Option TaskHeap} {act : TaskAction}

/-- What was allocated for a task is never given back, so no task may be given up. -/
theorem allGivenBack_iff {heap : TaskHeap} (accounted : ∀ mem ∈ heap, mem.Accounted) :
    AllGivenBack (some heap) ↔ ∀ mem ∈ heap, ¬ mem.GivenUp := by
  -- Two raw references of each task are never dropped.
  constructor
  · intro back mem among up
    exact (accounted mem among).not_givenBack (back heap rfl mem among up)
  · intro none heap' same mem among up
    obtain rfl := Option.some.inj same
    exact absurd up (none mem among)

/-- A step keeps all memory accounted for, and nothing is lost exactly if it gives up no task. -/
theorem step_accounted (accounted : AllAccounted s) (step : Steps next s act t) :
    AllAccounted t ∧ (AllGivenBack s → (AllGivenBack t ↔ GivesUpNone s act)) := by
  -- A step makes a task or is one of a single task, whose memory changes alone.
  obtain ⟨heap, rfl, all⟩ := accounted
  cases act with
  -- A new task is held.
  | new =>
    obtain ⟨mem, made, accounted, held, -⟩ := new_accounted
    have grown : t = some (heap ++ [mem]) := by
      rw [← Option.some.inj step, made]
      rfl
    have all' : ∀ mem' ∈ heap ++ [mem], mem'.Accounted := by
      intro mem' among
      rcases List.mem_append.mp among with before | new
      · exact all mem' before
      · rw [List.mem_singleton.mp new]
        exact accounted
    rw [grown]
    refine ⟨⟨_, rfl, all'⟩, fun back => iff_of_true ?_ trivial⟩
    rw [allGivenBack_iff all] at back
    rw [allGivenBack_iff all']
    intro mem' among
    rcases List.mem_append.mp among with before | new
    · exact back mem' before
    · rw [List.mem_singleton.mp new]
      exact fun up => absurd up.1 (by simp [held])
  | act id act =>
    obtain ⟨out, taken, rfl⟩ := Option.map_eq_some_iff.mp step
    obtain ⟨mem, found, taken⟩ := Option.bind_eq_some_iff.mp taken
    obtain ⟨after, rfl, accounted, up_iff⟩ :=
      (all mem (List.mem_of_getElem? found)).next taken
    obtain ⟨inside, -⟩ := List.getElem?_eq_some_iff.mp found
    -- Only the memory of the one task is written.
    have all' : ∀ mem' ∈ heap.set id after, mem'.Accounted := by
      intro mem' among
      rcases List.mem_or_eq_of_mem_set among with before | rfl
      · exact all mem' before
      · exact accounted
    have condition : GivesUpNone (some heap) (.act id act) ↔ ¬ mem.GivesUp act := by
      simp [GivesUpNone, found]
    refine ⟨⟨_, rfl, all'⟩, fun back => ?_⟩
    rw [allGivenBack_iff all] at back
    rw [Option.map_some, allGivenBack_iff all', condition, ← up_iff]
    constructor
    · exact fun none => none after (List.mem_set inside after)
    · intro stays mem' among
      rcases List.mem_or_eq_of_mem_set among with before | rfl
      · exact back mem' before
      · exact stays

/-- `Executor::poll` on a task: it is polled, and dropped if it is ready. -/
def executorPoll (id : TaskId) (uses : List WakerAction) (ready : Bool) : List TaskAction :=
  .act id .beginPoll :: uses.map (fun use => .act id (.useWaker use)) ++ [.act id .endPoll] ++
    if ready then [.act id .drop] else []

/-- `ExecHandle::spawn` whose send fails: the task comes back with the error, which is dropped. -/
def spawnFailed (id : TaskId) : List TaskAction := [.new, .act id .drop]

/-- `ExecHandle::spawn_blocking`: the task is run to completion, and then it goes out of scope. -/
def spawnBlocking (id : TaskId) (uses : List WakerAction) : List TaskAction :=
  .new :: .act id .beginPoll :: uses.map (fun use => .act id (.useWaker use)) ++
    [.act id .endPoll, .act id .drop]

/-- All references to what was allocated for the tasks of a heap. -/
def references (heap : TaskHeap) : Nat := (heap.map TaskMemory.references).sum

/-- Two references are left of every task, besides those of the wakers that are owned. -/
theorem references_eq {heap : TaskHeap} (accounted : ∀ mem ∈ heap, mem.Accounted) :
    heap.references = (heap.map fun mem => mem.wakers.owned.card).sum + 2 * heap.length := by
  -- The induction follows the tasks in the order of their making.
  induction heap with
  | nil => rfl
  | cons mem heap ih =>
    obtain ⟨first, rest⟩ := List.forall_mem_cons.mp accounted
    have counted := ih rest
    unfold references at counted ⊢
    rw [List.map_cons, List.sum_cons, List.map_cons, List.sum_cons, List.length_cons, counted,
      first.references]
    omega

/-- Nothing is accounted for before the first task is made. -/
theorem empty_accounted : AllAccounted (some []) := ⟨[], rfl, by simp⟩

/--
Throughout a run, what was allocated for the tasks that nobody uses any more is given back exactly
when no task is ever given up. What is left of a task that is given up are the references of the
two raw pointers that nothing drops, so the references grow by two with every task.
-/
theorem task_memory_given_back {acts : List TaskAction} {u : Option TaskHeap}
    (run : Run (Steps next) (some []) acts u) :
    (Throughout (Steps next) (some []) AllGivenBack acts ↔
      Run (Guarded GivesUpNone (Steps next)) (some []) acts u) ∧
    ∃ heap, u = some heap ∧
      (∀ mem ∈ heap, mem.GivenUp → mem.innerTask.strong = 1 ∧ mem.spareHeader.count.strong = 1 ∧
        mem.wakers.header.count.strong = 0) ∧
      heap.references = (heap.map fun mem => mem.wakers.owned.card).sum + 2 * heap.length := by
  -- Both parts rest on what is accounted for, in every state of the run.
  have keep : ∀ s act t, AllAccounted s → Steps next s act t → AllAccounted t :=
    fun _ _ _ accounted step => (step_accounted accounted step).1
  refine ⟨?_, ?_⟩
  · -- Whether everything is given back is decided step by step.
    refine run.throughout_iff_guarded steps_functional empty_accounted keep ?_
      fun _ _ _ accounted back step => (step_accounted accounted step).2 back
    rw [allGivenBack_iff (by simp)]
    simp
  · obtain ⟨heap, rfl, all⟩ := run.invariant empty_accounted keep
    refine ⟨heap, rfl, fun mem among up => ?_, references_eq all⟩
    have accounted := all mem among
    refine ⟨by rw [accounted.innerTask]; rfl, by rw [accounted.spareHeader]; rfl, ?_⟩
    rw [accounted.wakers.strong, up.2, Finset.card_empty]

/-- Three tasks that end in the three ways there are. -/
def threeEndings : List TaskAction :=
  .new :: executorPoll 0 [.clone 1, .wake 2] true ++ spawnFailed 1 ++ spawnBlocking 2 [.wakeByRef 1]

/-- Each of the three tasks leaves two of its three allocations behind. -/
theorem ended_tasks_leak :
    ∃ heap, Run (Steps next) (some []) threeEndings (some heap) ∧
      (∀ mem ∈ heap, mem.GivenUp ∧ ¬ mem.GivenBack) ∧ heap.references = 6 ∧
      ¬ Throughout (Steps next) (some []) AllGivenBack threeEndings := by
  -- All three tasks are given up when the run ends.
  have replayed : (replay next (some []) threeEndings).map (fun u =>
      decide (∃ heap ∈ u, heap.length = 3 ∧ (∀ mem ∈ heap, mem.GivenUp ∧ ¬ mem.GivenBack) ∧
        heap.references = 6)) = some true := by
    decide
  obtain ⟨u, run, reached⟩ := Run.of_replay_test replayed
  obtain ⟨heap, found, size, leaked, six⟩ := of_decide_eq_true reached
  obtain rfl : u = some heap := found
  refine ⟨heap, run, leaked, six, fun through => ?_⟩
  obtain ⟨mem, among⟩ := List.exists_mem_of_length_pos (by omega : 0 < heap.length)
  obtain ⟨up, kept⟩ := leaked mem among
  exact kept (through threeEndings (some heap) List.prefix_rfl run heap rfl mem among up)

/-- A task that has ended, but whose future has left a clone of the waker with somebody. -/
def wakerLeftBehind : List TaskAction := .new :: executorPoll 0 [.clone 1] true

/-- As long as somebody owns a waker of the task, nothing has to be given back. -/
theorem task_memory_given_back_waker :
    ∃ u, Run (Steps next) (some []) wakerLeftBehind u ∧
      Throughout (Steps next) (some []) AllGivenBack wakerLeftBehind := by
  -- Every step of the replay is tested against the condition.
  have replayed : (replay (checked GivesUpNone next) (some []) wakerLeftBehind).isSome =
      true := by
    decide
  obtain ⟨u, guarded⟩ := Run.of_checked replayed
  exact ⟨u, guarded.unguard, (task_memory_given_back guarded.unguard).1.mpr guarded⟩

end TaskHeap

end Imputio
