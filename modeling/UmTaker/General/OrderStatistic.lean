import Mathlib.Data.List.Count
import Mathlib.Data.List.Sort
import Mathlib.Order.Nat

/-!
# Order statistics

The element at a position of a sorted list, told by how many elements of the list lie at or below it
and at or above it. A middle element lies in every interval that holds more than half of the list.

## Main definitions

* `IsRank l k x`: `x` is an element of `l` that is at position `k` when `l` is sorted

## Main results

* `isRank_mergeSort`: sorting brings it there
* `IsRank.mem_of_majority`: the middle element of a list most of which lies in an interval
-/

namespace OrderStatistic

variable {α : Type*} [LinearOrder α] {l l' : List α} {k : ℕ} {x y : α}

/-- More than `k` elements lie at or below `x`, and all but `k` or more at or above it. -/
structure IsRank (l : List α) (k : ℕ) (x : α) : Prop where
  mem : x ∈ l
  below : k < l.countP fun y => decide (y ≤ x)
  above : l.length ≤ k + l.countP fun y => decide (x ≤ y)

/-- It does not depend on the order of the list. -/
theorem IsRank.perm (h : IsRank l k x) (hl : l.Perm l') : IsRank l' k x where
  mem := hl.mem_iff.mp h.mem
  below := by
    rw [← hl.countP_eq]
    exact h.below
  above := by
    rw [← hl.countP_eq, ← hl.length_eq]
    exact h.above

/-- The elements below a position of a sorted list are at most the one there. -/
theorem isRank_getElem (hsorted : l.Pairwise (· ≤ ·)) (hk : k < l.length) : IsRank l k l[k] where
  mem := List.getElem_mem hk
  below := by
    have htake : (l.take (k + 1)).countP (fun y => decide (y ≤ l[k])) = k + 1 := by
      rw [List.countP_eq_length.mpr, List.length_take_of_le hk]
      intro y hy
      obtain ⟨i, hi, rfl⟩ := List.getElem_of_mem hy
      rw [List.length_take_of_le hk] at hi
      rw [List.getElem_take, decide_eq_true_eq]
      rcases Nat.lt_succ_iff_lt_or_eq.mp hi with hi | rfl
      · exact List.pairwise_iff_getElem.mp hsorted i k _ hk hi
      · exact le_rfl
    have hle := (List.take_sublist (k + 1) l).countP_le (p := fun y => decide (y ≤ l[k]))
    omega
  above := by
    have hdrop : (l.drop k).countP (fun y => decide (l[k] ≤ y)) = l.length - k := by
      rw [List.countP_eq_length.mpr, List.length_drop]
      intro y hy
      obtain ⟨i, hi, rfl⟩ := List.getElem_of_mem hy
      rw [List.length_drop] at hi
      rw [List.getElem_drop, decide_eq_true_eq]
      rcases Nat.eq_zero_or_pos i with rfl | hpos
      · exact le_rfl
      · exact List.pairwise_iff_getElem.mp hsorted k (k + i) hk (by omega) (by omega)
    have hle := (List.drop_sublist k l).countP_le (p := fun y => decide (l[k] ≤ y))
    omega

/-- **Sorting brings the element to its position.** -/
theorem isRank_mergeSort (hk : k < l.length) (d : α) :
    IsRank l k ((l.mergeSort fun a b => decide (a ≤ b)).getD k d) := by
  have hlength : k < (l.mergeSort fun a b => decide (a ≤ b)).length := by
    rwa [List.length_mergeSort]
  have hsorted : (l.mergeSort fun a b => decide (a ≤ b)).Pairwise (· ≤ ·) := by
    refine (List.pairwise_mergeSort (fun a b c hab hbc => ?_) (fun a b => ?_) l).imp fun h => ?_
    · simp only [decide_eq_true_eq] at hab hbc ⊢
      exact hab.trans hbc
    · simpa using le_total a b
    · simpa using h
  rw [List.getD_eq_getElem?_getD, List.getElem?_eq_getElem hlength, Option.getD_some]
  exact (isRank_getElem hsorted hlength).perm (List.mergeSort_perm _ _)

omit [LinearOrder α] in
/-- Elements of two disjoint kinds. -/
theorem countP_add_le {p q : α → Bool} (h : ∀ y, p y = true → q y = false) :
    l.countP p + l.countP q ≤ l.length := by
  have hq : l.countP q ≤ l.countP fun y => !p y := by
    refine List.countP_mono_left fun y _ hy => ?_
    cases hp : p y with
    | false => rfl
    | true =>
      rw [h y hp] at hy
      cases hy
  have hp := List.length_eq_countP_add_countP p (l := l)
  simp only [Bool.not_eq_true, Bool.decide_eq_false] at hp
  omega

/-- **The middle element lies in every interval that holds more than half of the list.** -/
theorem IsRank.mem_of_majority (h : IsRank l (l.length / 2) x) {lo hi : α}
    (hmajority : l.length < 2 * l.countP fun y => decide (lo ≤ y ∧ y ≤ hi)) : lo ≤ x ∧ x ≤ hi := by
  constructor
  · by_contra! hlt
    have hdisjoint := countP_add_le (l := l) (p := fun y => decide (y ≤ x))
      (q := fun y => decide (lo ≤ y ∧ y ≤ hi)) fun y hy => by
        simp only [decide_eq_true_eq] at hy
        have := lt_of_le_of_lt hy hlt
        simp [this.not_ge]
    have := h.below
    omega
  · by_contra! hlt
    have hdisjoint := countP_add_le (l := l) (p := fun y => decide (x ≤ y))
      (q := fun y => decide (lo ≤ y ∧ y ≤ hi)) fun y hy => by
        simp only [decide_eq_true_eq] at hy
        have := lt_of_lt_of_le hlt hy
        simp [this.not_ge]
    have := h.above
    omega

end OrderStatistic
