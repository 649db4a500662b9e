import Mathlib.Data.List.Sort
import Imputio.Lib.Transition

/-! Queues that serve the least key first, and equal keys in the order of their arrival. -/

namespace StableQueue

open Transition

variable {α κ : Type*} [LinearOrder κ]

/-- Put an item behind all items of its own key or a lesser one. -/
def insert (key : α → κ) (items : List α) (item : α) : List α :=
  items.filter (fun other => key other ≤ key item) ++
    item :: items.filter fun other => key item < key other

/-- An item with the time at which it last entered the queue. -/
structure Entry (α : Type*) where
  item : α
  time : Nat

/-- Sort a list by its keys, and leave items of one key in their order. -/
def stableSort (key : α → κ) (items : List α) : List α :=
  items.mergeSort fun first second => key first ≤ key second

/-- Of all the turns in which an item was served, the first one of each item. -/
def firstTurns [DecidableEq α] : List (α × Bool) → List (α × Bool)
  | [] => []
  | turn :: turns => turn :: (firstTurns turns).filter fun later => later.1 ≠ turn.1

/-- One entry is served before another one: its key is less, or it came first. -/
def Before (key : α → κ) (first second : Entry α) : Prop :=
  key first.item < key second.item ∨
    key first.item = key second.item ∧ first.time < second.time

/-- The entries in the order in which they are served, and the time of the next arrival. -/
structure Queue (key : α → κ) where
  waiting : List (Entry α)
  clock : Nat
  sorted : waiting.Pairwise (Before key)
  past : ∀ entry ∈ waiting, entry.time < clock

/-- What is asked of a queue; a served item may be kept, and then it enters the queue again. -/
inductive Request (α : Type*) where
  | enqueue (item : α)
  | serve (keep : Bool)
  deriving DecidableEq, Repr

/-- The request takes an item from the front of the queue, if there is one. -/
def Request.serves : Request α → Bool
  | .enqueue _ => false
  | .serve _ => true

/-- An entry does not come after one that is served later, by its key alone. -/
theorem Before.key_le {key : α → κ} {first second : Entry α} (before : Before key first second) :
    key first.item ≤ key second.item := by
  -- The two ways of being first are looked at apart.
  rcases before with less | ⟨same, -⟩
  · exact less.le
  · exact same.le

/-- Where the keys ascend, an insertion splits the list in two without changing its order. -/
theorem filter_append_filter {key : α → κ} {items : List α} (bound : κ)
    (sorted : items.Pairwise fun first second => key first ≤ key second) :
    items.filter (fun other => key other ≤ bound) ++
      items.filter (fun other => bound < key other) = items := by
  -- By induction: once an item is too large, nothing behind it is small enough.
  induction items with
  | nil => rfl
  | cons first rest ih =>
    obtain ⟨least, ordered⟩ := List.pairwise_cons.mp sorted
    by_cases low : key first ≤ bound
    · simp [low, ih ordered]
    · -- Beyond the first item that is too large, all items are.
      have large : ∀ other ∈ rest, bound < key other := fun other member =>
        (not_le.mp low).trans_le (least other member)
      have none_low : rest.filter (fun other => key other ≤ bound) = [] :=
        List.filter_eq_nil_iff.mpr fun other member => by simpa using large other member
      have all_large : rest.filter (fun other => bound < key other) = rest :=
        List.filter_eq_self.mpr fun other member => by simpa using large other member
      simp [low, not_le.mp low, none_low, all_large]

/-- An insertion adds its item and nothing else. -/
theorem mem_insert {key : α → κ} {items : List α} {item other : α} :
    other ∈ insert key items item ↔ other = item ∨ other ∈ items := by
  -- An item of the list is on one side of the new one or on the other.
  rw [insert, List.mem_append, List.mem_cons, List.mem_filter, List.mem_filter]
  rcases le_or_gt (key other) (key item) with low | high
  · simp [low, not_lt.mpr low, or_comm]
  · simp [high, not_le.mpr high]

/-- Items whose keys are not larger stay in front of an inserted one. -/
theorem insert_append {key : α → κ} {front rest : List α} {item : α}
    (low : ∀ other ∈ front, key other ≤ key item) :
    insert key (front ++ rest) item = front ++ insert key rest item := by
  -- None of the front is moved behind the new item.
  have kept : front.filter (fun other => key other ≤ key item) = front :=
    List.filter_eq_self.mpr fun other member => by simpa using low other member
  have moved : front.filter (fun other => key item < key other) = [] :=
    List.filter_eq_nil_iff.mpr fun other member => by simpa using low other member
  simp [insert, kept, moved]

/-- An insertion forgets the times along with the items they belong to. -/
theorem map_insert {key : α → κ} (waiting : List (Entry α)) (entry : Entry α) :
    (insert (fun entry => key entry.item) waiting entry).map Entry.item =
      insert key (waiting.map Entry.item) entry.item := by
  simp [insert, List.filter_map, Function.comp_def]

/-- An insertion of another item leaves those that pass a test as they are. -/
theorem filter_insert {key : α → κ} {items : List α} {item : α} {test : α → Bool}
    (sorted : items.Pairwise fun first second => key first ≤ key second)
    (fails : test item = false) :
    (insert key items item).filter test = items.filter test := by
  -- The two parts of the list are tested one after the other.
  conv_rhs => rw [← filter_append_filter (key item) sorted]
  simp [insert, fails]

/-- An inserted item comes last among those of its own key. -/
theorem filter_key_insert {key : α → κ} {items : List α} {item : α} (level : κ)
    (sorted : items.Pairwise fun first second => key first ≤ key second) :
    (insert key items item).filter (fun other => key other = level) =
      items.filter (fun other => key other = level) ++
        [item].filter fun other => key other = level := by
  -- Only an item of the key in question changes what is kept.
  by_cases same : key item = level
  · -- Nothing behind the new item has its key.
    have behind : (items.filter fun other => key item < key other).filter
        (fun other => key other = level) = [] := by
      rw [List.filter_filter, List.filter_eq_nil_iff]
      intro other _
      simpa [same] using fun equal : key other = level => equal.le
    conv_rhs => rw [← filter_append_filter (key item) sorted]
    rw [insert, List.filter_append, List.filter_append, List.filter_cons, behind]
    simp [same]
  · rw [filter_insert sorted (by simpa using same)]
    simp [same]

/-- One list for each key: an item at the end of its own list is inserted behind its key. -/
theorem flatMap_push {key : α → κ} {levels : List κ} {buckets : κ → List α} {item : α}
    (ascending : levels.Pairwise (· < ·)) (level : key item ∈ levels)
    (own : ∀ level, ∀ other ∈ buckets level, key other = level) :
    levels.flatMap (Function.update buckets (key item) (buckets (key item) ++ [item])) =
      insert key (levels.flatMap buckets) item := by
  -- The lists before the item's own one have lesser keys, and those after it larger ones.
  induction levels with
  | nil => exact absurd level List.not_mem_nil
  | cons first levels ih =>
    obtain ⟨least, ascending⟩ := List.pairwise_cons.mp ascending
    rw [List.flatMap_cons, List.flatMap_cons]
    by_cases here : key item = first
    · have later : ∀ level ∈ levels, level ≠ key item := fun level member same =>
        (least level member).ne (here.symm.trans same.symm)
      have unchanged : levels.flatMap (Function.update buckets (key item)
          (buckets (key item) ++ [item])) = levels.flatMap buckets :=
        List.flatMap_congr fun level member => Function.update_of_ne (later level member) ..
      have large : ∀ other ∈ levels.flatMap buckets, key item < key other := by
        intro other member
        obtain ⟨level, among, inside⟩ := List.mem_flatMap.mp member
        rw [own level other inside, here]
        exact least level among
      rw [unchanged, ← here, Function.update_self, insert_append fun other member =>
        (own _ other member).le, List.append_assoc, List.singleton_append, insert]
      have none_low : (levels.flatMap buckets).filter (fun other => key other ≤ key item) = [] :=
        List.filter_eq_nil_iff.mpr fun other member => by simpa using large other member
      have all_large : (levels.flatMap buckets).filter (fun other => key item < key other) =
          levels.flatMap buckets :=
        List.filter_eq_self.mpr fun other member => by simpa using large other member
      rw [none_low, all_large, List.nil_append]
    · have member : key item ∈ levels := by simpa [here] using level
      rw [Function.update_of_ne (Ne.symm here), ih ascending member, insert_append]
      intro other inside
      rw [own first other inside]
      exact (least _ member).le

/-- Two lists with ascending keys are the same when they agree on the items of each key. -/
theorem eq_of_filter_key {key : α → κ} {items other : List α}
    (sorted : items.Pairwise fun first second => key first ≤ key second)
    (sorted' : other.Pairwise fun first second => key first ≤ key second)
    (agree : ∀ level, items.filter (fun item => key item = level) =
      other.filter fun item => key item = level) : items = other := by
  -- What is in one list is in the other one, among the items of its key.
  have shared : ∀ {left right : List α}, (∀ level, left.filter (fun item => key item = level) =
      right.filter fun item => key item = level) → ∀ item ∈ left, item ∈ right := by
    intro left right agree item member
    have found : item ∈ left.filter fun other => key other = key item :=
      List.mem_filter.mpr ⟨member, by simp⟩
    rw [agree] at found
    exact (List.mem_filter.mp found).1
  induction items generalizing other with
  | nil =>
    refine (List.eq_nil_iff_forall_not_mem.mpr fun item member => ?_).symm
    exact List.not_mem_nil (shared (fun level => (agree level).symm) item member)
  | cons first rest ih =>
    obtain ⟨least, ordered⟩ := List.pairwise_cons.mp sorted
    cases other with
    | nil => exact absurd (shared agree first (List.mem_cons_self ..)) List.not_mem_nil
    | cons first' rest' =>
      obtain ⟨least', ordered'⟩ := List.pairwise_cons.mp sorted'
      -- Both lists start with an item of the least key.
      have same : key first' = key first := by
        apply le_antisymm
        · rcases List.mem_cons.mp (shared agree first (List.mem_cons_self ..)) with equal | later
          · rw [equal]
          · exact least' first later
        · rcases List.mem_cons.mp (shared (fun level => (agree level).symm) first'
            (List.mem_cons_self ..)) with equal | later
          · rw [equal]
          · exact least first' later
      have heads := agree (key first)
      simp only [List.filter_cons, same, decide_true, if_true, List.cons.injEq] at heads
      obtain ⟨rfl, tails⟩ := heads
      rw [ih ordered ordered' fun level => ?_]
      by_cases here : key first = level
      · rw [← here]
        exact tails
      · simpa [here] using agree level

/-- A stable sort leaves the items of each key in their order. -/
theorem filter_key_stableSort {key : α → κ} {items : List α} (level : κ) :
    (stableSort key items).filter (fun item => key item = level) =
      items.filter fun item => key item = level := by
  -- The items of one key are in order already, and a stable sort keeps such a sublist.
  have ordered : (items.filter fun item => key item = level).Pairwise
      fun first second => decide (key first ≤ key second) = true := by
    refine List.pairwise_iff_forall_sublist.mpr fun {first second} sub => ?_
    have left := (List.mem_filter.mp (sub.subset (by simp : first ∈ [first, second]))).2
    have right := (List.mem_filter.mp (sub.subset (by simp : second ∈ [first, second]))).2
    simp only [decide_eq_true_eq] at left right ⊢
    rw [left, right]
  -- They are a sublist of the result, which has no more items of that key.
  have sub : (items.filter fun item => key item = level).Sublist (stableSort key items) :=
    List.sublist_mergeSort
      (fun a b c ab bc => by simp only [decide_eq_true_eq] at *; exact ab.trans bc)
      (fun a b => by simpa using le_total (key a) (key b)) ordered List.filter_sublist
  have filtered := sub.filter fun item => key item = level
  rw [List.filter_filter] at filtered
  simp only [Bool.and_self] at filtered
  exact (filtered.eq_of_length ((List.mergeSort_perm ..).filter _).length_eq.symm).symm

/-- The keys ascend in a sorted list. -/
theorem stableSort_sorted (key : α → κ) (items : List α) :
    (stableSort key items).Pairwise fun first second => key first ≤ key second := by
  -- Sorting compares by a test, which is turned into the order at the end.
  have sorted : (stableSort key items).Pairwise
      fun first second => decide (key first ≤ key second) = true :=
    List.pairwise_mergeSort
      (fun a b c ab bc => by simp only [decide_eq_true_eq] at *; exact ab.trans bc)
      (fun a b => by simpa using le_total (key a) (key b)) items
  exact sorted.imp fun le => by simpa using le

/-- Sorting what passes a test is the same before and after the test. -/
theorem filter_stableSort {key : α → κ} {items : List α} (test : α → Bool) :
    (stableSort key items).filter test = stableSort key (items.filter test) := by
  -- Both sides are sorted, so they are equal if they agree for every key.
  refine eq_of_filter_key ((stableSort_sorted key items).filter _) (stableSort_sorted ..) ?_
  -- The items of one key are tested in the same order on both sides.
  intro level
  rw [filter_key_stableSort, List.filter_filter]
  simp only [Bool.and_comm]
  rw [← List.filter_filter, filter_key_stableSort, List.filter_filter, List.filter_filter]
  simp only [Bool.and_comm]

/-- A sublist of distinct items is what is left when only its own items are kept. -/
theorem filter_mem_of_sublist [DecidableEq α] {chosen items : List α}
    (sub : chosen.Sublist items) (distinct : items.Nodup) :
    items.filter (fun item => item ∈ chosen) = chosen := by
  -- The induction follows the sublist; an item it skips is not in it, as items are distinct.
  induction sub with
  | slnil => rfl
  | @cons chosen items item sub ih =>
    obtain ⟨absent, distinct⟩ := List.nodup_cons.mp distinct
    rw [List.filter_cons_of_neg (by simpa using fun inside => absent (sub.subset inside))]
    exact ih distinct
  | @cons_cons chosen items item sub ih =>
    obtain ⟨absent, distinct⟩ := List.nodup_cons.mp distinct
    rw [List.filter_cons_of_pos (by simp)]
    refine congrArg (item :: ·) ((List.filter_congr fun other member => ?_).trans (ih distinct))
    have apart : other ≠ item := fun same => absent (same ▸ member)
    simp [apart]

namespace Queue

variable {key : α → κ}

/-- A queue that nothing has entered yet. -/
def empty : Queue key where
  waiting := []
  clock := 0
  sorted := .nil
  past := by simp

/-- The items in the order in which they are served. -/
def items (queue : Queue key) : List α := queue.waiting.map Entry.item

/-- An entry that comes now is served after those of its own key. -/
theorem sorted_insert (queue : Queue key) (item : α) :
    (insert (fun entry => key entry.item) queue.waiting ⟨item, queue.clock⟩).Pairwise
      (Before key) := by
  -- The new entry stands between those of smaller or equal and those of larger keys.
  rw [insert, List.pairwise_append, List.pairwise_cons]
  refine ⟨queue.sorted.filter _, ⟨fun later member => ?_, queue.sorted.filter _⟩,
    fun earlier member other others => ?_⟩
  · -- What is behind the new entry has a larger key.
    exact .inl (by simpa using (List.mem_filter.mp member).2)
  · obtain ⟨waits, low⟩ := List.mem_filter.mp member
    have low : key earlier.item ≤ key item := by simpa using low
    rcases List.mem_cons.mp others with rfl | member'
    · -- What has the same key came at an earlier time.
      rcases lt_or_eq_of_le low with less | same
      · exact .inl less
      · exact .inr ⟨same, queue.past earlier waits⟩
    · exact .inl (low.trans_lt (by simpa using (List.mem_filter.mp member').2))

/-- An item enters the queue. -/
def enqueue (queue : Queue key) (item : α) : Queue key where
  waiting := insert (fun entry => key entry.item) queue.waiting ⟨item, queue.clock⟩
  clock := queue.clock + 1
  sorted := queue.sorted_insert item
  past := by
    intro entry member
    rcases mem_insert.mp member with rfl | waits
    · exact Nat.lt_succ_self _
    · exact (queue.past entry waits).trans (Nat.lt_succ_self _)

/-- The queue without its first entry. -/
def rest (queue : Queue key) : Queue key where
  waiting := queue.waiting.tail
  clock := queue.clock
  sorted := queue.sorted.tail
  past := fun entry member => queue.past entry (List.mem_of_mem_tail member)

/-- Serve the first entry, if there is one; it enters the queue again if it is kept. -/
def serve (queue : Queue key) (keep : Bool) : Queue key :=
  match queue.waiting with
  | [] => queue
  | entry :: _ => if keep then queue.rest.enqueue entry.item else queue.rest

/-- What each request does to a queue. -/
def next (queue : Queue key) : Request α → Option (Queue key)
  | .enqueue item => some (queue.enqueue item)
  | .serve keep => some (queue.serve keep)

/-- The item that a request takes from the front of the queue, and whether it is kept. -/
def served (queue : Queue key) : Request α → Option (α × Bool)
  | .enqueue _ => none
  | .serve keep => queue.items.head?.map fun item => (item, keep)

@[simp] theorem items_empty : (empty : Queue key).items = [] := rfl

@[simp] theorem items_enqueue (queue : Queue key) (item : α) :
    (queue.enqueue item).items = insert key queue.items item :=
  map_insert ..

@[simp] theorem items_rest (queue : Queue key) : queue.rest.items = queue.items.tail :=
  List.map_tail

/-- The keys ascend along the queue. -/
theorem items_sorted (queue : Queue key) :
    queue.items.Pairwise fun first second => key first ≤ key second := by
  -- The order of service is an order by keys first of all.
  rw [items, List.pairwise_map]
  exact queue.sorted.imp Before.key_le

/-- Nothing happens to a queue that is served while it is empty. -/
theorem items_serve_nil {queue : Queue key} (keep : Bool) (none : queue.items = []) :
    (queue.serve keep).items = [] := by
  have waiting : queue.waiting = [] := List.map_eq_nil_iff.mp none
  simp [serve, items, waiting]

/-- The first item is taken off, and put behind those of its own key if it is kept. -/
theorem items_serve_cons {queue : Queue key} {item : α} {later : List α} (keep : Bool)
    (first : queue.items = item :: later) :
    (queue.serve keep).items = if keep then insert key later item else later := by
  -- The first entry is the one with the first item.
  obtain ⟨entry, rest, waiting, rfl, rfl⟩ := List.map_eq_cons_iff.mp first
  have tail : queue.rest.items = rest.map Entry.item := by simp [first]
  unfold serve
  rw [waiting]
  cases keep <;> simp [tail]

/-- What enters a queue is put where a stable sort of everything puts it. -/
theorem items_enqueue_all (batch : List α) (queue : Queue key) :
    (batch.foldl enqueue queue).items = stableSort key (queue.items ++ batch) := by
  -- Both sides are sorted, so it is enough to compare them for every key.
  refine eq_of_filter_key (items_sorted _) (stableSort_sorted ..) fun level => ?_
  rw [filter_key_stableSort]
  -- The batch enters item by item, each one last among those of its key.
  induction batch generalizing queue with
  | nil => simp
  | cons item batch ih =>
    rw [List.foldl_cons, ih, List.filter_append, items_enqueue,
      filter_key_insert level queue.items_sorted, List.append_assoc, ← List.filter_append,
      List.singleton_append, ← List.filter_append]

/-- Entering the queue takes nothing from it. -/
theorem observed_enqueue_all (batch : List α) (requests : List (Request α))
    (queue : Queue key) : observed next served queue (batch.map .enqueue ++ requests) =
      observed next served (batch.foldl enqueue queue) requests := by
  -- By induction on the batch, none of whose requests lets see anything.
  induction batch generalizing queue with
  | nil => rfl
  | cons item batch ih =>
    rw [List.map_cons, List.cons_append, observed_cons rfl, List.foldl_cons, ih]
    rfl

/-- Whatever waits in a queue has entered it. -/
theorem entered {requests : List (Request α)} {queue : Queue key}
    (run : Run (Steps next) empty requests queue) :
    ∀ item ∈ queue.items, .enqueue item ∈ requests := by
  -- An item that is served again is one that was there before.
  induction run with
  | nil => simp
  | @snoc requests mid last request earlier taken ih =>
    intro item member
    rw [List.mem_append, List.mem_singleton]
    cases request with
    | enqueue entering =>
      obtain rfl := Option.some.inj taken
      rw [items_enqueue] at member
      rcases mem_insert.mp member with rfl | old
      · exact .inr rfl
      · exact .inl (ih item old)
    | serve keep =>
      obtain rfl := Option.some.inj taken
      refine .inl (ih item ?_)
      cases present : mid.items with
      | nil => rwa [items_serve_nil keep present] at member
      | cons first rest =>
        rw [items_serve_cons keep present] at member
        cases keep with
        | false => exact List.mem_cons_of_mem _ member
        | true =>
          rcases mem_insert.mp member with rfl | old
          · exact List.mem_cons_self ..
          · exact List.mem_cons_of_mem _ old

/--
Items of one key at the front are served in turn, whatever is kept of them, if nothing that
enters meanwhile has a lesser key.
-/
theorem served_in_turn {level : κ} {requests : List (Request α)} {queue : Queue key}
    {front rest : List α} (split : queue.items = front ++ rest)
    (same : ∀ item ∈ front, key item = level)
    (behind : ∀ item, .enqueue item ∈ requests → level ≤ key item)
    (turns : requests.countP Request.serves = front.length) :
    (observed next served queue requests).map Prod.fst = front := by
  -- The front is what has not been served yet; it is never overtaken.
  induction requests generalizing queue front rest with
  | nil =>
    obtain rfl : front = [] := List.length_eq_zero_iff.mp turns.symm
    rfl
  | cons request requests ih =>
    have later : ∀ item, .enqueue item ∈ requests → level ≤ key item :=
      fun item member => behind item (List.mem_cons_of_mem _ member)
    cases request with
    | enqueue item =>
      rw [observed_cons rfl]
      have entered : (queue.enqueue item).items = front ++ insert key rest item := by
        rw [items_enqueue, split, insert_append]
        intro other member
        rw [same other member]
        exact behind item (List.mem_cons_self ..)
      exact ih entered same later (by simpa [Request.serves] using turns)
    | serve keep =>
      rw [observed_cons rfl]
      cases front with
      | nil => simp [Request.serves] at turns
      | cons item front =>
        have first : queue.items = item :: (front ++ rest) := split
        have among := fun other member => same other (List.mem_cons_of_mem item member)
        have level_item : key item = level := same item (List.mem_cons_self ..)
        have shown : queue.served (.serve keep) = some (item, keep) := by simp [served, first]
        rw [shown]
        rw [List.countP_cons_of_pos rfl, List.length_cons] at turns
        -- The item is gone, or it is behind the rest of the front.
        have left : (queue.serve keep).items =
            front ++ if keep then insert key rest item else rest := by
          rw [items_serve_cons keep first]
          cases keep with
          | false => rfl
          | true =>
            refine insert_append fun other member => ?_
            rw [among other member, level_item]
        exact congrArg (item :: ·) (ih left among later (Nat.succ.inj turns))

/-- Serving an item makes no difference for others, whether or not the item is kept. -/
theorem filter_items_serve [DecidableEq α] {queue : Queue key} {item : α} {rest others : List α}
    (keep : Bool) (present : queue.items = item :: rest) (absent : item ∉ others) :
    (queue.serve keep).items.filter (fun other => other ∈ others) =
      rest.filter fun other => other ∈ others := by
  -- If the item is kept it goes in again, and the test does not let it through.
  have sorted := queue.items_sorted
  rw [present] at sorted
  rw [items_serve_cons keep present]
  cases keep with
  | false => rfl
  | true => exact filter_insert (List.pairwise_cons.mp sorted).2 (by simpa using absent)

/-- If testing for one item more leaves exactly a list, so does testing for its own items. -/
theorem filter_mem_of_cons [DecidableEq α] {items batch : List α} {item : α}
    (left : items.filter (fun other => other ∈ item :: batch) = batch) :
    items.filter (fun other => other ∈ batch) = batch := by
  -- The narrower test is applied to both sides of what is known.
  have narrowed := congrArg (List.filter fun other => other ∈ batch) left
  have whole : batch.filter (fun other => other ∈ batch) = batch :=
    List.filter_eq_self.mpr (by simp)
  rw [List.filter_filter, whole] at narrowed
  conv_rhs => rw [← narrowed]
  -- Whatever is in the list passes the wider test too.
  refine List.filter_congr fun other _ => ?_
  by_cases inside : other ∈ batch <;> simp [inside]

/-- The turns of other items are found without those of one item, if it is none of them. -/
theorem filter_turns [DecidableEq α] {item : α} {wide batch : List α}
    (same : ∀ other ≠ item, other ∈ wide ↔ other ∈ batch) (absent : item ∉ batch)
    (turns : List (α × Bool)) :
    (turns.filter fun turn => turn.1 ≠ item).filter (fun turn => turn.1 ∈ wide) =
      turns.filter fun turn => turn.1 ∈ batch := by
  -- A turn of the one item passes neither test, and any other one passes both or none.
  rw [List.filter_filter]
  refine List.filter_congr fun turn _ => ?_
  by_cases equal : turn.1 = item
  · simp [equal, absent]
  · simp [equal, same turn.1 equal]

/-- Items that wait together have their first turns in the order in which they wait. -/
theorem firstTurns_prefix [DecidableEq α] {requests : List (Request α)} {queue : Queue key}
    {batch : List α} (distinct : batch.Nodup)
    (waiting : queue.items.filter (fun item => item ∈ batch) = batch)
    (fresh : ∀ item, .enqueue item ∈ requests → item ∉ batch) :
    ((firstTurns (observed next served queue requests)).filter
      fun turn => turn.1 ∈ batch).map Prod.fst <+: batch := by
  -- The batch is what has not had its first turn yet.
  induction requests generalizing queue batch with
  | nil => exact List.nil_prefix
  | cons request requests ih =>
    have later : ∀ item, .enqueue item ∈ requests → item ∉ batch :=
      fun item member => fresh item (List.mem_cons_of_mem _ member)
    cases request with
    | enqueue item =>
      rw [observed_cons rfl]
      refine ih distinct ?_ later
      have other := fresh item (List.mem_cons_self ..)
      rw [items_enqueue, filter_insert queue.items_sorted (by simpa using other), waiting]
    | serve keep =>
      rw [observed_cons rfl]
      cases present : queue.items with
      | nil =>
        have shown : queue.served (.serve keep) = none := by simp [served, present]
        rw [shown]
        refine ih distinct ?_ later
        rw [items_serve_nil keep present, ← present, waiting]
      | cons item rest =>
        have shown : queue.served (.serve keep) = some (item, keep) := by simp [served, present]
        rw [shown, Option.toList_some, List.singleton_append, firstTurns]
        rw [present] at waiting
        by_cases member : item ∈ batch
        · -- The first of the batch has its turn, and the rest of the batch waits on.
          rw [List.filter_cons_of_pos (by simpa using member)] at waiting
          obtain ⟨batch, rfl⟩ : ∃ tail, batch = item :: tail := ⟨_, waiting.symm⟩
          obtain ⟨absent, distinct⟩ := List.nodup_cons.mp distinct
          have rest_waits : rest.filter (fun other => other ∈ batch) = batch :=
            filter_mem_of_cons (List.cons.inj waiting).2
          have turns := ih distinct ((filter_items_serve keep present absent).trans rest_waits)
            fun other entered => List.not_mem_of_not_mem_cons (later other entered)
          have same : ∀ other ≠ item, other ∈ item :: batch ↔ other ∈ batch := by
            intro other apart
            simp [apart]
          rw [List.filter_cons_of_pos (by simp), filter_turns same absent, List.map_cons]
          exact List.cons_prefix_cons.mpr ⟨rfl, turns⟩
        · rw [List.filter_cons_of_neg (by simpa using member)] at waiting
          have turns := ih distinct ((filter_items_serve keep present member).trans waiting) later
          rw [List.filter_cons_of_neg (by simpa using member),
            filter_turns (fun _ _ => Iff.rfl) member]
          exact turns

/--
Items that enter together and leave after their first turn leave in the stable sort of the order
in which they have entered, whatever else is in the queue or enters later.
-/
theorem left_at_first_sorted [DecidableEq α] {requests : List (Request α)} {queue : Queue key}
    {batch left : List α} (distinct : batch.Nodup) (unknown : ∀ item ∈ queue.items, item ∉ batch)
    (fresh : ∀ item, .enqueue item ∈ requests → item ∉ batch)
    (first : left = ((firstTurns (observed next served queue
      (batch.map .enqueue ++ requests))).filter
        fun turn => turn.1 ∈ batch ∧ turn.2 = false).map Prod.fst) :
    left = stableSort key (batch.filter fun item => item ∈ left) := by
  -- What enters together waits sorted, and first turns are taken in the order of waiting.
  rw [observed_enqueue_all] at first
  have perm : (stableSort key batch).Perm batch := List.mergeSort_perm ..
  -- The batch waits in its sorted order, among whatever else waits.
  have waiting : (batch.foldl enqueue queue).items.filter
      (fun item => item ∈ stableSort key batch) = stableSort key batch := by
    have same : ∀ item, decide (item ∈ stableSort key batch) = decide (item ∈ batch) :=
      fun item => decide_eq_decide.mpr perm.mem_iff
    simp only [same]
    rw [items_enqueue_all, filter_stableSort, List.filter_append,
      List.filter_eq_nil_iff.mpr fun item member => by simpa using unknown item member,
      List.filter_eq_self.mpr (by simp), List.nil_append]
  have fresh' : ∀ item, .enqueue item ∈ requests → item ∉ stableSort key batch :=
    fun item entered inside => fresh item entered (perm.mem_iff.mp inside)
  have turns := firstTurns_prefix (perm.nodup_iff.mpr distinct) waiting fresh'
  have sub : left.Sublist (stableSort key batch) := by
    refine List.Sublist.trans ?_ turns.sublist
    rw [first]
    refine List.Sublist.map _ ?_
    refine List.monotone_filter_right _ fun turn kept => ?_
    have kept : turn.1 ∈ batch ∧ turn.2 = false := by simpa using kept
    simpa using perm.mem_iff.mpr kept.1
  conv_lhs => rw [← filter_mem_of_sublist sub (perm.nodup_iff.mpr distinct)]
  exact filter_stableSort _

end Queue

end StableQueue
