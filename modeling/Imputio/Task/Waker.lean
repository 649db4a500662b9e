import Mathlib.Algebra.GroupWithZero.Nat
import Mathlib.Data.Finset.Card
import Imputio.Lib.RefCount
import Imputio.Lib.Transition

/-! Wakers: raw pointers to a shared task header, and the references that they hold. -/

namespace Imputio

open Transition

/-- What the wakers of a task share. -/
structure ImputioTaskHeader where
  parked : Bool
  deriving DecidableEq, Repr

/-- `ImputioTaskHeader::default`. -/
def ImputioTaskHeader.default : ImputioTaskHeader := ⟨false⟩

/-! The functions behind a waker; a call without a result is undefined behaviour. -/

namespace ImputioWaker

/-- Mark a task as ready to go on. -/
def unpark (inner : ImputioTaskHeader) : ImputioTaskHeader := { inner with parked := false }

/-- The `clone` of the table: the pointer is used as a value for as long as the call takes. -/
def clone (rawWaker : ArcInner ImputioTaskHeader) : Option (ArcInner ImputioTaskHeader) := do
  let clonedWaker ← rawWaker.count.fromRaw
  let clonedWaker ← clonedWaker.clone
  -- The reference of the clone is the one that the new waker holds.
  let clonedWaker ← clonedWaker.forget
  let clonedWaker ← clonedWaker.intoRaw
  return { rawWaker with count := clonedWaker }

/-- The `wake` of the table, which consumes the waker. -/
def wake (rawWaker : ArcInner ImputioTaskHeader) : Option (ArcInner ImputioTaskHeader) := do
  let count ← rawWaker.count.fromRaw
  let inner ← { rawWaker with count := count }.modify unpark
  -- The temporary value is dropped at the end of the statement.
  let count ← inner.count.drop
  return { inner with count := count }

/-- The `wake_by_ref` of the table. -/
def wakeByRef (rawWaker : ArcInner ImputioTaskHeader) : Option (ArcInner ImputioTaskHeader) :=
  rawWaker.modify unpark

/-- The `drop` of the table. -/
def drop (rawWaker : ArcInner ImputioTaskHeader) : Option (ArcInner ImputioTaskHeader) := do
  let count ← rawWaker.count.fromRaw
  let count ← count.drop
  return { rawWaker with count := count }

/-- Make the first waker of a new header. -/
def newWaker : Option (ArcInner ImputioTaskHeader) := do
  let inner := RefCount.alloc
  let innerClone ← inner.clone
  let innerClone ← innerClone.intoRaw
  -- The local value is dropped when the function returns.
  let count ← innerClone.drop
  return ⟨count, .default⟩

/-- Make a waker, and another header that nothing but a raw pointer refers to. -/
def newWakerInnerPtr :
    Option (ArcInner ImputioTaskHeader × ArcInner ImputioTaskHeader) := do
  let waker ← newWaker
  let inner ← RefCount.alloc.intoRaw
  return (waker, ⟨inner, .default⟩)

variable (values raw : Nat) (header : ImputioTaskHeader)

/-- A clone of a waker holds one more reference. -/
@[simp] theorem clone_of :
    clone ⟨.of values (raw + 1), header⟩ = some ⟨.of values (raw + 2), header⟩ := by
  simp [clone]

/-- Waking consumes the reference of the waker. -/
@[simp] theorem wake_of :
    wake ⟨.of values (raw + 1), header⟩ = some ⟨.of values raw, unpark header⟩ := by
  simp [wake, ArcInner.modify, RefCount.of_freed_iff]

/-- Waking by reference consumes nothing. -/
@[simp] theorem wakeByRef_of :
    wakeByRef ⟨.of values (raw + 1), header⟩ =
      some ⟨.of values (raw + 1), unpark header⟩ := by
  simp [wakeByRef, ArcInner.modify, RefCount.of_freed_iff]

/-- Dropping consumes the reference of the waker. -/
@[simp] theorem drop_of :
    drop ⟨.of values (raw + 1), header⟩ = some ⟨.of values raw, header⟩ := by
  simp [drop]

/-- A new waker holds the only reference to its header. -/
theorem newWaker_eq : newWaker = some ⟨.of 0 1, .default⟩ := by
  simp [newWaker, RefCount.alloc]

end ImputioWaker

/-- Tells the wakers of one header apart. -/
abbrev WakerId := Nat

/-- One use of a waker. -/
inductive WakerAction where
  | clone (waker : WakerId)
  | wake (waker : WakerId)
  | wakeByRef (waker : WakerId)
  | drop (waker : WakerId)
  deriving DecidableEq, Repr

namespace WakerAction

/-- The waker that is used. -/
def waker : WakerAction → WakerId
  | .clone waker | .wake waker | .wakeByRef waker | .drop waker => waker

/-- How many wakers an action makes. -/
def created : WakerAction → Nat
  | .clone _ => 1
  | _ => 0

/-- How many wakers an action consumes. -/
def consumed : WakerAction → Nat
  | .wake _ | .drop _ => 1
  | _ => 0

end WakerAction

/-- The header of a task and the wakers that somebody owns. -/
structure WakerSystem where
  header : ArcInner ImputioTaskHeader
  owned : Finset WakerId
  nextWaker : WakerId
  deriving DecidableEq

namespace WakerSystem

/-- `ImputioWaker::new_waker`: its result is the only waker. -/
def new : Option WakerSystem := ImputioWaker.newWaker.map fun header => ⟨header, {0}, 1⟩

/-- Call the function of the table that an action stands for. -/
def call (s : WakerSystem) : WakerAction → Option WakerSystem
  | .clone _ =>
    (ImputioWaker.clone s.header).map fun header =>
      ⟨header, insert s.nextWaker s.owned, s.nextWaker + 1⟩
  | .wake waker =>
    (ImputioWaker.wake s.header).map fun header =>
      { s with header := header, owned := s.owned.erase waker }
  | .wakeByRef _ =>
    (ImputioWaker.wakeByRef s.header).map fun header => { s with header := header }
  | .drop waker =>
    (ImputioWaker.drop s.header).map fun header =>
      { s with header := header, owned := s.owned.erase waker }

/-- Only owned wakers are used; there is no state after undefined behaviour. -/
def next (s : Option WakerSystem) (act : WakerAction) : Option (Option WakerSystem) :=
  match s with
  | none => some none
  | some s => if act.waker ∈ s.owned then some (s.call act) else none

/--
`ImputioTask::poll_task`, with what the future does to the wakers while it is polled.

The waker of the task is cloned for the context, and the clone is dropped after the poll.
-/
def pollTask (s : WakerSystem) (own : WakerId) (uses : List WakerAction) : List WakerAction :=
  .clone own :: uses ++ [.drop s.nextWaker]

/-- The references to the header are those of the owned wakers. -/
structure Balanced (s : WakerSystem) : Prop where
  count : s.header.count = .of 0 s.owned.card
  fresh : ∀ waker ∈ s.owned, waker < s.nextWaker

variable {s t : WakerSystem} {act : WakerAction} {acts : List WakerAction}

/-- The strong count is the number of owned wakers. -/
theorem Balanced.strong (balanced : s.Balanced) : s.header.count.strong = s.owned.card := by
  rw [balanced.count, RefCount.of_strong, Nat.zero_add]

/-- The header is freed exactly when nobody owns a waker. -/
theorem Balanced.freed_iff (balanced : s.Balanced) : s.header.count.Freed ↔ s.owned = ∅ := by
  rw [balanced.count, RefCount.of_freed_iff, Finset.card_eq_zero, and_iff_right rfl]

/-- A new waker is the only one, and the header counts it. -/
theorem new_balanced : ∃ s, new = some s ∧ s.Balanced ∧ s.owned.card = 1 := by
  -- The local value of the function is gone when it returns.
  refine ⟨⟨⟨.of 0 1, .default⟩, {0}, 1⟩, by rw [new, ImputioWaker.newWaker_eq]; rfl, ?_, rfl⟩
  exact ⟨rfl, by simp⟩

/-- Owning a waker means that the header has a reference behind a raw pointer. -/
theorem Balanced.header_eq (balanced : s.Balanced) (owns : act.waker ∈ s.owned) :
    s.header = ⟨.of 0 ((s.owned.erase act.waker).card + 1), s.header.data⟩ := by
  rw [Finset.card_erase_add_one owns, ← balanced.count]

/-- A function of the table that is called on an owned waker keeps the references balanced. -/
theorem Balanced.call (balanced : s.Balanced) (owns : act.waker ∈ s.owned) :
    ∃ t, s.call act = some t ∧ t.Balanced ∧
      t.owned.card + act.consumed = s.owned.card + act.created := by
  -- In each case the count and the owned wakers change by the same number.
  have header := balanced.header_eq owns
  have size := Finset.card_erase_add_one owns
  -- A waker that is consumed leaves the others owned.
  have kept : ∀ waker ∈ s.owned.erase act.waker, waker < s.nextWaker :=
    fun waker among => balanced.fresh waker (Finset.mem_of_mem_erase among)
  cases act with
  -- The clone has a number of its own, and the header counts it.
  | clone waker =>
    have unused : s.nextWaker ∉ s.owned := fun among =>
      Nat.lt_irrefl _ (balanced.fresh _ among)
    have grown : (insert s.nextWaker s.owned).card = (s.owned.erase waker).card + 2 := by
      rw [Finset.card_insert_of_notMem unused, ← size]
      rfl
    refine ⟨_, by rw [WakerSystem.call, header, ImputioWaker.clone_of]; rfl, ⟨?_, ?_⟩, ?_⟩
    · exact congrArg (RefCount.of 0) grown.symm
    · intro other among
      rcases Finset.mem_insert.mp among with rfl | before
      · exact Nat.lt_succ_self _
      · exact Nat.lt_succ_of_lt (balanced.fresh other before)
    · exact Finset.card_insert_of_notMem unused
  | wake waker =>
    exact ⟨_, by rw [WakerSystem.call, header, ImputioWaker.wake_of]; rfl, ⟨rfl, kept⟩, size⟩
  | wakeByRef waker =>
    refine ⟨_, by rw [WakerSystem.call, header, ImputioWaker.wakeByRef_of]; rfl, ⟨?_, ?_⟩, ?_⟩
    · exact congrArg (RefCount.of 0) size
    · exact balanced.fresh
    · rfl
  | drop waker =>
    exact ⟨_, by rw [WakerSystem.call, header, ImputioWaker.drop_of]; rfl, ⟨rfl, kept⟩, size⟩

/-- The wakers that are owned after an action. -/
def ownedAfter (s : WakerSystem) : WakerAction → Finset WakerId
  | .clone _ => insert s.nextWaker s.owned
  | .wakeByRef _ => s.owned
  | .wake waker | .drop waker => s.owned.erase waker

/-- Every function of the table has its effect on who owns a waker. -/
theorem call_owned (called : s.call act = some t) : t.owned = s.ownedAfter act := by
  -- Whatever is called, the owners are set beside the new header.
  cases act with
  | _ =>
    obtain ⟨header, -, rfl⟩ := Option.map_eq_some_iff.mp called
    rfl

/-- A waker that an action does not consume is owned after it as before. -/
theorem mem_ownedAfter {id : WakerId} (owns : id ∈ s.owned)
    (kept : act.consumed = 1 → id ≠ act.waker) : id ∈ s.ownedAfter act := by
  -- Only the two consuming functions take a waker away.
  cases act with
  | clone waker => exact Finset.mem_insert_of_mem owns
  | wakeByRef waker => exact owns
  | wake waker => exact Finset.mem_erase.mpr ⟨kept rfl, owns⟩
  | drop waker => exact Finset.mem_erase.mpr ⟨kept rfl, owns⟩

/-- Nobody owns a waker any more exactly after the last one is consumed. -/
theorem ownedAfter_eq_empty_iff (owns : act.waker ∈ s.owned) :
    s.ownedAfter act = ∅ ↔ act.consumed = 1 ∧ s.owned = {act.waker} := by
  -- A waker that was used is still owned unless it was consumed.
  have some : s.owned ≠ ∅ := Finset.ne_empty_of_mem owns
  cases act with
  | clone waker => simp [ownedAfter, WakerAction.consumed]
  | wakeByRef waker => simpa [ownedAfter, WakerAction.consumed] using some
  | wake waker =>
    simp [ownedAfter, WakerAction.consumed, WakerAction.waker, Finset.erase_eq_empty_iff, some]
  | drop waker =>
    simp [ownedAfter, WakerAction.consumed, WakerAction.waker, Finset.erase_eq_empty_iff, some]

/-- The number of wakers that a list of actions makes. -/
def created (acts : List WakerAction) : Nat := (acts.map WakerAction.created).sum

/-- The number of wakers that a list of actions consumes. -/
def consumed (acts : List WakerAction) : Nat := (acts.map WakerAction.consumed).sum

/-- Whatever is done with the wakers, the references stay balanced and nothing is undefined. -/
theorem Balanced.run {u : Option WakerSystem} (balanced : s.Balanced)
    (run : Run (Steps next) (some s) acts u) :
    ∃ t, u = some t ∧ t.Balanced ∧
      t.owned.card + consumed acts = s.owned.card + created acts := by
  -- The induction follows the run; the call of each step is one of an owned waker.
  induction run with
  | nil => exact ⟨s, rfl, balanced, rfl⟩
  | @snoc acts mid last act _ taken ih =>
    obtain ⟨t, rfl, balanced', total⟩ := ih
    obtain ⟨owns, called⟩ := enabled_iff.mp taken
    obtain ⟨t', called', balanced'', change⟩ := balanced'.call owns
    refine ⟨t', by rw [← called, called'], balanced'', ?_⟩
    simp only [created, consumed, List.map_append, List.map_singleton, List.sum_append,
      List.sum_singleton] at total ⊢
    omega

/-- A poll consumes the one waker that it makes, besides what the future does. -/
theorem pollTask_net (own : WakerId) (uses : List WakerAction) :
    created (s.pollTask own uses) = created uses + 1 ∧
      consumed (s.pollTask own uses) = consumed uses + 1 := by
  -- The clone at the start and the drop at the end are counted.
  constructor
  · simp [created, pollTask, WakerAction.created, Nat.add_comm]
  · simp [consumed, pollTask, WakerAction.consumed]

/--
The strong count of a header is the number of wakers that were made for it and are not consumed
yet. It reaches zero exactly when the last of them is consumed, and a poll of the task changes it
only by what the future does with the wakers.
-/
theorem waker_ledger {u : Option WakerSystem} (run : Run (Steps next) new acts u) :
    ∃ s, u = some s ∧ s.header.count.strong = s.owned.card ∧
      s.header.count.strong + consumed acts = 1 + created acts ∧
      (s.header.count.Freed ↔ s.owned = ∅) ∧
      ∀ own uses v, Run (Steps next) u (s.pollTask own uses) v →
        ∃ t, v = some t ∧
          t.header.count.strong + consumed uses = s.header.count.strong + created uses := by
  -- The strong count is the number of owned wakers, so all four parts are about that.
  obtain ⟨first, made, firstBalanced, single⟩ := new_balanced
  rw [made] at run
  obtain ⟨s, rfl, balanced, total⟩ := firstBalanced.run run
  refine ⟨s, rfl, balanced.strong, ?_, balanced.freed_iff, fun own uses v poll => ?_⟩
  · rw [balanced.strong, total, single]
  · -- The poll is a run like any other, and the clone for the context is dropped in it.
    obtain ⟨t, rfl, balanced', change⟩ := balanced.run poll
    obtain ⟨makes, consumes⟩ := s.pollTask_net own uses
    refine ⟨t, rfl, ?_⟩
    rw [balanced.strong, balanced'.strong]
    omega

/-- A waker is cloned, both wakers are used, and the task is polled in between. -/
def clonedAndWoken : List WakerAction :=
  [.clone 0, .wakeByRef 1, .clone 0, .wakeByRef 2, .drop 2, .wake 1, .drop 0]

/-- The header of a waker that was cloned and polled with is freed by the last drop. -/
theorem waker_ledger_cloned :
    ∃ s, Run (Steps next) new clonedAndWoken (some s) ∧ s.header.count.strong = 0 := by
  -- The run is replayed, and its last state has no owner left.
  have replayed : (replay next new clonedAndWoken).map
      (fun u => decide (∃ s ∈ u, s.owned = ∅)) = some true := by
    decide
  obtain ⟨u, run, reached⟩ := Run.of_replay_test replayed
  obtain ⟨s, found, none⟩ := of_decide_eq_true reached
  obtain rfl : u = some s := found
  obtain ⟨_, same, strong, -⟩ := waker_ledger run
  obtain rfl := Option.some.inj same
  exact ⟨s, run, by rw [strong, none, Finset.card_empty]⟩

end WakerSystem

end Imputio
