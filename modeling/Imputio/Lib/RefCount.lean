import Mathlib.Data.Nat.Basic

/-!
Reference counts of a shared allocation whose references may be turned into raw pointers.

An operation that the owner of no reference could not make has no result: it is undefined behaviour.
-/

/-- A strong count, and how many of the references counted are values rather than raw pointers. -/
@[ext] structure RefCount where
  strong : Nat
  values : Nat
  -- Every value holds a reference of its own.
  counted : values ≤ strong
  deriving DecidableEq, Repr

namespace RefCount

/-- The count with given numbers of values and of raw pointers that hold a reference. -/
def of (values raw : Nat) : RefCount := ⟨values + raw, values, Nat.le_add_right ..⟩

/-- Nothing refers to the allocation any more, and it is gone. -/
def Freed (count : RefCount) : Prop := count.strong = 0

instance (count : RefCount) : Decidable count.Freed := inferInstanceAs (Decidable (_ = 0))

/-- Allocate: there is one value that refers to the new allocation. -/
def alloc : RefCount := of 1 0

/-- Clone a value. -/
def clone (count : RefCount) : Option RefCount :=
  if 0 < count.values then
    some ⟨count.strong + 1, count.values + 1, Nat.succ_le_succ count.counted⟩
  else none

/-- Drop a value. -/
def drop (count : RefCount) : Option RefCount :=
  if 0 < count.values then
    some ⟨count.strong - 1, count.values - 1, Nat.sub_le_sub_right count.counted 1⟩
  else none

/-- Lose a value without dropping it, so that its reference stays counted. -/
def forget (count : RefCount) : Option RefCount :=
  if 0 < count.values then
    some ⟨count.strong, count.values - 1, Nat.le_trans (Nat.sub_le ..) count.counted⟩
  else none

/-- Turn a value into a raw pointer, which holds the reference from then on. -/
def intoRaw (count : RefCount) : Option RefCount := count.forget

/-- Turn a raw pointer back into a value, which takes over a reference that no value holds. -/
def fromRaw (count : RefCount) : Option RefCount :=
  if lost : count.values < count.strong then some ⟨count.strong, count.values + 1, lost⟩ else none

section Rules

variable (values raw : Nat)

@[simp] theorem of_strong : (of values raw).strong = values + raw := rfl

/-- An allocation is gone exactly when neither values nor raw pointers are left. -/
theorem of_freed_iff : (of values raw).Freed ↔ values = 0 ∧ raw = 0 :=
  Nat.add_eq_zero_iff

/-- A clone adds a value. -/
@[simp] theorem clone_of : (of (values + 1) raw).clone = some (of (values + 2) raw) := by
  simp only [clone, of, Nat.succ_pos, if_true, Option.some.injEq, mk.injEq, and_true]
  omega

/-- A drop takes a value away. -/
@[simp] theorem drop_of : (of (values + 1) raw).drop = some (of values raw) := by
  simp only [drop, of, Nat.succ_pos, if_true, Option.some.injEq, mk.injEq]
  omega

/-- A value that is forgotten leaves its reference behind. -/
@[simp] theorem forget_of : (of (values + 1) raw).forget = some (of values (raw + 1)) := by
  simp only [forget, of, Nat.succ_pos, if_true, Option.some.injEq, mk.injEq]
  omega

/-- A value that becomes a raw pointer leaves its reference to it. -/
@[simp] theorem intoRaw_of : (of (values + 1) raw).intoRaw = some (of values (raw + 1)) :=
  forget_of values raw

/-- A raw pointer that becomes a value brings its reference with it. -/
@[simp] theorem fromRaw_of : (of values (raw + 1)).fromRaw = some (of (values + 1) raw) := by
  -- There is a reference that no value holds.
  have lost : (of values (raw + 1)).values < (of values (raw + 1)).strong :=
    Nat.lt_add_of_pos_right raw.succ_pos
  rw [fromRaw, dif_pos lost, Option.some.injEq]
  ext
  · show values + (raw + 1) = values + 1 + raw
    omega
  · rfl

end Rules

end RefCount

/-- A shared allocation: its data, and the count of the references to it. -/
structure ArcInner (α : Type*) where
  count : RefCount
  data : α
  deriving DecidableEq, Repr

/-- Use the data through a reference, which must not outlive the allocation. -/
def ArcInner.modify {α : Type*} (cell : ArcInner α) (change : α → α) : Option (ArcInner α) :=
  if cell.count.Freed then none else some { cell with data := change cell.data }
