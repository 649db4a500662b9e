import Mathlib.Data.List.Basic
import Mathlib.Data.List.Infix

/-! Lists cut behind their first element that passes a test. -/

namespace FirstMatch

variable {α : Type*} {test : α → Bool} {quiet items more front : List α}

/-- Some element of a list passes the test. -/
def Matches (test : α → Bool) (items : List α) : Prop := ∃ item ∈ items, test item = true

/-- A list up to its first element that passes, and the whole list if none does. -/
def upTo (test : α → Bool) (items : List α) : List α := items.take (items.findIdx test + 1)

/-- What a list holds behind its first element that passes. -/
def behind (test : α → Bool) (items : List α) : List α := items.drop (items.findIdx test + 1)

/-- A match in two lists is one in the first or in the second. -/
theorem matches_append :
    Matches test (items ++ more) ↔ Matches test items ∨ Matches test more := by
  simp only [Matches, List.mem_append, or_and_right, exists_or]

/-- A list has a match exactly when its first one has a position. -/
theorem matches_iff_lt : Matches test items ↔ items.findIdx test < items.length :=
  List.findIdx_lt_length.symm

/-- Nothing lies behind the first match of a list that has none. -/
theorem behind_of_not_matches (none_match : ¬ Matches test items) : behind test items = [] := by
  -- Where nothing passes, the index is the length, and there is nothing left to drop.
  rw [matches_iff_lt, Nat.not_lt] at none_match
  apply List.drop_of_length_le
  omega

/-- The first match comes behind everything that does not match. -/
theorem findIdx_quiet (silent : ¬ Matches test quiet) :
    (quiet ++ items).findIdx test = quiet.length + items.findIdx test := by
  -- The search goes through the whole of the first list.
  rw [matches_iff_lt] at silent
  rw [List.findIdx_append, if_neg silent, Nat.add_comm]

/-- What does not match lies before the first match. -/
theorem upTo_quiet (silent : ¬ Matches test quiet) :
    upTo test (quiet ++ items) = quiet ++ upTo test items := by
  -- The cut moves by the length of what does not match.
  unfold upTo
  rw [findIdx_quiet silent, Nat.add_assoc, List.take_length_add_append]

/-- Nothing of what does not match lies behind the first match. -/
theorem behind_quiet (silent : ¬ Matches test quiet) :
    behind test (quiet ++ items) = behind test items := by
  -- The cut moves by the length of what does not match.
  unfold behind
  rw [findIdx_quiet silent, Nat.add_assoc, List.drop_length_add_append]

/-- Once there is a match, what is added does not move the first one. -/
theorem findIdx_of_matches (found : Matches test items) :
    (items ++ more).findIdx test = items.findIdx test := by
  rw [List.findIdx_append, if_pos (matches_iff_lt.mp found)]

/-- Once there is a match, what is added lies behind it. -/
theorem upTo_of_matches (found : Matches test items) :
    upTo test (items ++ more) = upTo test items := by
  -- The cut lies inside the first list, where nothing is added.
  have inside := matches_iff_lt.mp found
  unfold upTo
  rw [findIdx_of_matches found]
  exact List.take_append_of_le_length inside

/-- Once there is a match, everything that is added is behind it. -/
theorem behind_of_matches (found : Matches test items) :
    behind test (items ++ more) = behind test items ++ more := by
  -- The cut lies inside the first list, so that all that is added stays behind it.
  have inside := matches_iff_lt.mp found
  unfold behind
  rw [findIdx_of_matches found]
  exact List.drop_append_of_le_length inside

/-- The cut is the shortest of all prefixes that have a match. -/
theorem upTo_shortest (fits : front <+: items) (found : Matches test front) :
    upTo test items <+: front := by
  -- A prefix with a match has the same cut as the whole list.
  obtain ⟨rest, rfl⟩ := fits
  rw [upTo_of_matches found]
  exact List.take_prefix _ _

/-- At most one element is all of a match. -/
theorem behind_of_length_le_one (short : items.length ≤ 1) : behind test items = [] := by
  apply List.drop_of_length_le
  omega

/-- Nothing of one element is cut off. -/
theorem upTo_singleton (item : α) : upTo test [item] = [item] := by
  apply List.take_of_length_le
  simp

/-- A list that is cut at its last element, where the first match is. -/
theorem cut_snoc {hit : α} (silent : ¬ Matches test quiet) (passes : test hit = true) :
    upTo test (quiet ++ [hit] ++ more) = quiet ++ [hit] ∧
      behind test (quiet ++ [hit] ++ more) = more := by
  -- What does not match goes through, and the one that does is the last of the cut.
  have found : Matches test (quiet ++ [hit]) := ⟨hit, by simp, passes⟩
  have nothing : behind test [hit] = [] := behind_of_length_le_one (by simp)
  rw [upTo_of_matches found, behind_of_matches found, upTo_quiet silent, behind_quiet silent,
    upTo_singleton, nothing]
  exact ⟨rfl, List.nil_append more⟩

end FirstMatch
