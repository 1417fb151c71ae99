import Mathlib.Data.List.Sort
import Mathlib.Data.String.Basic
import PromptRunner.Text.NameSet

/-!
# Sets of names as increasing lists

The list of a set of names is strictly increasing. Two such lists with the same members are equal,
so an equation between sets of names is proved by membership alone.
-/

namespace PromptRunner.Text

theorem pairwise_insertName {x : String} {ys : List String} (h : ys.Pairwise (· < ·)) :
    (insertName x ys).Pairwise (· < ·) := by
  induction ys with
  | nil => exact List.pairwise_singleton _ _
  | cons y ys ih =>
    obtain ⟨hy, hys⟩ := List.pairwise_cons.mp h
    unfold insertName
    split_ifs with hxy hxy'
    · refine List.pairwise_cons.mpr ⟨?_, h⟩
      intro z hz
      rcases List.mem_cons.mp hz with rfl | hz
      · exact hxy
      · exact hxy.trans (hy z hz)
    · exact h
    · refine List.pairwise_cons.mpr ⟨?_, ih hys⟩
      intro z hz
      rcases mem_insertName.mp hz with rfl | hz
      · exact lt_of_le_of_ne (not_lt.mp hxy) (Ne.symm hxy')
      · exact hy z hz

theorem pairwise_nameSet (xs : List String) : (nameSet xs).Pairwise (· < ·) := by
  induction xs with
  | nil => exact List.Pairwise.nil
  | cons x xs ih => exact pairwise_insertName ih

theorem nameSet_eq_of_mem_iff {xs ys : List String} (hys : ys.Pairwise (· < ·))
    (h : ∀ name, name ∈ xs ↔ name ∈ ys) : nameSet xs = ys := by
  refine (pairwise_nameSet xs).eq_of_mem_iff hys fun name => ?_
  rw [mem_nameSet, h name]

/-- Members may be sorted out before or after a set is made of them. -/
theorem nameSet_filter (p : String → Bool) (xs : List String) :
    nameSet (xs.filter p) = (nameSet xs).filter p := by
  refine nameSet_eq_of_mem_iff ((pairwise_nameSet xs).filter p) fun name => ?_
  rw [List.mem_filter, List.mem_filter, mem_nameSet]

end PromptRunner.Text
