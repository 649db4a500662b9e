import Mathlib.Data.Set.Card
import Mathlib.Order.CompletePartialOrder

/-! Allocators: names of a fixed universe that are handed out and given back. -/

namespace Allocator

variable {α : Type*} {all free used gone : Set α} {name : α}

/-- No name is lost: each one is free or in use. -/
def Covers (all free used : Set α) : Prop := all ⊆ free ∪ used

/-- Each name is either free or in use, and there are no others. -/
structure Partition (all free used : Set α) : Prop where
  apart : Disjoint free used
  whole : free ∪ used = all

/-- Handing out a free name loses none. -/
theorem Covers.allocate (covers : Covers all free used) (name : α) :
    Covers all (free \ {name}) (insert name used) := by
  -- The name that is handed out is in use now, and all others are where they were.
  intro other known
  by_cases same : other = name
  · exact .inr (.inl same)
  · -- Every other name stays where it was.
    exact (covers known).imp (fun there => ⟨there, same⟩) .inr

/-- Taking a name back loses none. -/
theorem Covers.release (covers : Covers all free used) (name : α) :
    Covers all (insert name free) (used \ {name}) := by
  -- The name that comes back is free now, and all others are where they were.
  intro other known
  by_cases same : other = name
  · exact .inl (.inl same)
  · exact (covers known).imp .inr fun there => ⟨there, same⟩

/--
Taking names out of use without freeing them loses no name exactly when none was in use.

Nothing else covers for such a name, since no name is both free and in use.
-/
theorem Covers.drop_iff (covers : Covers all free used) (apart : Disjoint free used)
    (inside : used ⊆ all) : Covers all free (used \ gone) ↔ Disjoint used gone := by
  -- A name that is dropped while in use is the one that would be lost.
  constructor
  · intro still
    rw [Set.disjoint_left]
    intro name taken dropped
    -- The name is known, so it would have to be free, and it is in use.
    rcases still (inside taken) with available | kept
    · exact Set.disjoint_left.mp apart available taken
    · exact kept.2 dropped
  · intro harmless
    rw [harmless.sdiff_eq_left]
    exact covers

/-- While fewer names are in use than there are, a free one is left. -/
theorem Covers.exists_free (covers : Covers all free used) (finite : used.Finite)
    (room : used.ncard < all.ncard) : free.Nonempty := by
  -- Otherwise every name would be in use.
  by_contra empty
  rw [Set.not_nonempty_iff_eq_empty] at empty
  have only : all ⊆ used := by simpa [Covers, empty] using covers
  exact absurd (Set.ncard_le_ncard only finite) (Nat.not_le.mpr room)

/-- A partition covers all names. -/
theorem Partition.covers (parts : Partition all free used) : Covers all free used :=
  parts.whole.symm.subset

/-- The names in use are among all names. -/
theorem Partition.used_subset (parts : Partition all free used) : used ⊆ all :=
  parts.whole ▸ Set.subset_union_right

/-- Handing out a free name keeps the partition. -/
theorem Partition.allocate (parts : Partition all free used) (available : name ∈ free) :
    Partition all (free \ {name}) (insert name used) where
  apart := by
    -- The name handed out is free no more, and the others were apart before.
    rw [Set.disjoint_insert_right]
    exact ⟨by simp, parts.apart.mono_left Set.sdiff_subset⟩
  whole := by
    rw [Set.union_insert, ← Set.insert_union, Set.insert_sdiff_singleton,
      Set.insert_eq_of_mem available, parts.whole]

/-- Taking a name back keeps the partition. -/
theorem Partition.release (parts : Partition all free used) (taken : name ∈ used) :
    Partition all (insert name free) (used \ {name}) where
  apart := by
    rw [Set.disjoint_insert_left]
    exact ⟨by simp, parts.apart.mono_right Set.sdiff_subset⟩
  whole := by
    rw [Set.insert_union, ← Set.union_insert, Set.insert_sdiff_singleton,
      Set.insert_eq_of_mem taken, parts.whole]

/-- All names are in use exactly when no name is free. -/
theorem Partition.exhausted_iff (parts : Partition all free used) (finite : all.Finite) :
    free = ∅ ↔ used.ncard = all.ncard := by
  -- The two parts make up the whole, so that one of them is empty when the other is full.
  constructor
  · rintro rfl
    rw [← parts.whole, Set.empty_union]
  · intro full
    -- As many names are in use as there are, so every name is, and a free one would be another.
    have everything : used = all :=
      Set.eq_of_subset_of_ncard_le parts.used_subset full.ge finite
    have whole : free ⊆ used := by
      rw [everything, ← parts.whole]
      exact Set.subset_union_left
    exact disjoint_self.mp (parts.apart.mono_right whole)

end Allocator
