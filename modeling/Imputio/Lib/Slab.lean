import Mathlib.Data.Finset.Lattice.Fold
import Mathlib.Logic.Function.Basic
import Mathlib.Order.Lattice.Nat

/-! Slabs: storage that picks the key of each value it stores. -/

/-- How a slab picks the key of the next value, which is promised to be unused. -/
structure KeyPolicy where
  next : Finset Nat → Nat
  fresh : ∀ keys, next keys ∉ keys

/-- The policy of a slab from which nothing is ever removed: keys in their natural order. -/
def KeyPolicy.inOrder : KeyPolicy where
  next := fun keys => keys.sup Nat.succ
  fresh := by
    intro keys used
    -- A used key is below the next one, which is above all used keys.
    have below : (keys.sup Nat.succ).succ ≤ keys.sup Nat.succ := Finset.le_sup used
    omega

/-- Values under the keys that were picked for them. -/
structure Slab (α : Type*) where
  entries : Nat → Option α
  keys : Finset Nat
  mem_keys : ∀ key, key ∈ keys ↔ (entries key).isSome

namespace Slab

variable {α : Type*}

/-- The slab without values. -/
def empty : Slab α where
  entries := fun _ => none
  keys := ∅
  mem_keys := by simp

/-- The value under a key, if the key is occupied. -/
def get (slab : Slab α) (key : Nat) : Option α := slab.entries key

/-- The key that the next stored value is going to have. -/
def vacantKey (policy : KeyPolicy) (slab : Slab α) : Nat := policy.next slab.keys

/-- Store a value under the next key. -/
def insert (policy : KeyPolicy) (slab : Slab α) (value : α) : Slab α where
  entries := Function.update slab.entries (slab.vacantKey policy) (some value)
  keys := Insert.insert (slab.vacantKey policy) slab.keys
  mem_keys := by
    intro key
    rw [Finset.mem_insert, slab.mem_keys]
    by_cases same : key = slab.vacantKey policy <;> simp [same]

/-- Overwrite the value under an occupied key; indexing a vacant key has no result. -/
def set (slab : Slab α) (key : Nat) (value : α) : Option (Slab α) :=
  if occupied : (slab.entries key).isSome then
    some
      { entries := Function.update slab.entries key (some value)
        keys := slab.keys
        mem_keys := by
          intro other
          rw [slab.mem_keys]
          by_cases same : other = key
          · subst same; simp [occupied]
          · simp [same] }
  else none

/-- Nothing is stored under the next key yet. -/
@[simp] theorem get_vacantKey (policy : KeyPolicy) (slab : Slab α) :
    slab.get (slab.vacantKey policy) = none := by
  -- The policy picks a key outside of the keys in use.
  have unused := policy.fresh slab.keys
  rw [slab.mem_keys] at unused
  exact Option.not_isSome_iff_eq_none.mp unused

/-- Storing a value changes what is under its own key only. -/
theorem get_insert (policy : KeyPolicy) (slab : Slab α) (value : α) (key : Nat) :
    (slab.insert policy value).get key =
      if key = slab.vacantKey policy then some value else slab.get key :=
  Function.update_apply ..

/-- Overwriting works exactly on occupied keys. -/
theorem set_eq_none_iff {slab : Slab α} {key : Nat} {value : α} :
    slab.set key value = none ↔ slab.get key = none := by
  -- Both operations look up the entry of the key first.
  unfold set get
  split
  · rename_i occupied
    simp [Option.isSome_iff_ne_none.mp occupied]
  · rename_i vacant
    simp [Option.not_isSome_iff_eq_none.mp vacant]

/-- Overwriting changes what is under the one key only. -/
theorem get_set {slab after : Slab α} {key : Nat} {value : α}
    (written : slab.set key value = some after) (other : Nat) :
    after.get other = if other = key then some value else slab.get other := by
  -- A write that succeeds is the update of one entry.
  unfold set at written
  split at written
  · obtain rfl := Option.some.inj written
    exact Function.update_apply ..
  · simp at written

/-- A slab is determined by what is under its keys. -/
theorem eq_of_entries {slab other : Slab α} (same : slab.entries = other.entries) :
    slab = other := by
  -- The set of keys is determined by the entries, and a proof has no content.
  obtain ⟨entries, keys, mem⟩ := slab
  obtain ⟨entries', keys', mem'⟩ := other
  obtain rfl : entries = entries' := same
  -- The keys are those that something is stored under.
  obtain rfl : keys = keys' := by
    ext key
    rw [mem, mem']
  rfl

/-- Overwriting changes nothing exactly if the same value was there already. -/
theorem set_eq_self_iff {slab after : Slab α} {key : Nat} {value : α}
    (written : slab.set key value = some after) :
    after = slab ↔ slab.get key = some value := by
  -- One way, reading the key gives what was written; the other way all keys are compared.
  constructor
  · rintro rfl
    simpa using get_set written key
  · intro stored
    -- Two slabs are equal when they agree at every key.
    refine eq_of_entries (funext fun other => ?_)
    have now : after.get other = _ := get_set written other
    refine now.trans ?_
    split
    · rename_i same
      rw [same]
      exact stored.symm
    · rfl

end Slab
