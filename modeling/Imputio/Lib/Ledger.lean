import Mathlib.Algebra.BigOperators.Group.Finset.Basic
import Mathlib.Algebra.Order.BigOperators.Group.Finset
import Mathlib.Data.Fintype.BigOperators
import Mathlib.Algebra.Order.Group.Multiset

/-! Ledgers: things that are kept in finitely many places and move between them. -/

namespace Ledger

variable {ι α : Type*} [Fintype ι]

/-- Everything that is kept in some place. -/
def total (places : ι → Multiset α) : Multiset α := ∑ i, places i

/-- What a place gains or loses, the whole ledger gains or loses. -/
theorem total_update [DecidableEq ι] (places : ι → Multiset α) (i : ι) (now : Multiset α) :
    total (Function.update places i now) + places i = total places + now := by
  -- Both sides are the other places together with the old and the new content of this one.
  have before : total places = places i + ∑ j ∈ Finset.univ.erase i, places j :=
    (Finset.add_sum_erase _ places (Finset.mem_univ i)).symm
  have after : total (Function.update places i now) =
      now + ∑ j ∈ Finset.univ.erase i, places j := by
    have split := Finset.add_sum_erase Finset.univ (Function.update places i now)
      (Finset.mem_univ i)
    rw [Function.update_self] at split
    have others : ∑ j ∈ Finset.univ.erase i, Function.update places i now j =
        ∑ j ∈ Finset.univ.erase i, places j :=
      Finset.sum_congr rfl fun j apart => Function.update_of_ne (Finset.ne_of_mem_erase apart) ..
    rw [others] at split
    exact split.symm
  rw [before, after, add_right_comm, add_comm now, add_right_comm]

/-- What is counted once in the whole ledger is in exactly one place, and there only once. -/
theorem unique_place [DecidableEq α] {places : ι → Multiset α} {a : α}
    (once : (total places).count a = 1) :
    ∃ i, (places i).count a = 1 ∧ ∀ j, j ≠ i → (places j).count a = 0 := by
  -- Counts that sum to one are all zero but for one of them.
  classical
  rw [total, Multiset.count_sum'] at once
  obtain ⟨i, -, some⟩ : ∃ i ∈ Finset.univ, (places i).count a ≠ 0 := by
    by_contra nowhere
    push Not at nowhere
    rw [Finset.sum_eq_zero nowhere] at once
    omega
  have split := Finset.add_sum_erase Finset.univ (fun j => (places j).count a) (Finset.mem_univ i)
  have here : (places i).count a = 1 := by omega
  refine ⟨i, here, fun j apart => ?_⟩
  have others : ∑ j ∈ Finset.univ.erase i, (places j).count a = 0 := by omega
  exact Finset.sum_eq_zero_iff.mp others j (Finset.mem_erase.mpr ⟨apart, Finset.mem_univ j⟩)

end Ledger
