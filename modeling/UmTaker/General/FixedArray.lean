import Mathlib.Data.Fin.Basic
import Mathlib.Data.Int.Basic
import Mathlib.Order.Basic
import Mathlib.Tactic.SplitIfs

/-!
# Arrays of a fixed size

Reading such an array at a signed index, and indices that are remainders of a signed number.

## Main definitions

* `readAt a i`: the element at a signed index, if there is one

## Main results

* `readAt_isSome_iff`, `readAt_update`: the indices with an element, and which one a change changes
* `tmod_inBounds_iff`: when a remainder that has the sign of the dividend is such an index
-/

namespace FixedArray

variable {α : Type*} {n : ℕ}

/-- The element at a signed index; outside the array there is none. -/
def readAt (a : Fin n → α) (i : ℤ) : Option α :=
  if h : 0 ≤ i ∧ i < n then some (a ⟨i.toNat, by omega⟩) else none

theorem readAt_isSome_iff {a : Fin n → α} {i : ℤ} : (readAt a i).isSome ↔ 0 ≤ i ∧ i < n := by
  unfold readAt
  split_ifs with h
  · simp [h]
  · simp [h]

/-- An element is changed for the index that stands for it alone. -/
theorem readAt_update (a : Fin n → α) (k : Fin n) (f : α → α) (i : ℤ) :
    readAt (Function.update a k (f (a k))) i =
      (readAt a i).map fun x => if ((k : ℕ) : ℤ) = i then f x else x := by
  unfold readAt
  by_cases h : 0 ≤ i ∧ i < n
  · rw [dif_pos h, dif_pos h, Option.map_some]
    by_cases hk : ((k : ℕ) : ℤ) = i
    · have hindex : (⟨i.toNat, by omega⟩ : Fin n) = k := by
        ext
        show i.toNat = k
        omega
      rw [if_pos hk, hindex, Function.update_self]
    · have hindex : (⟨i.toNat, by omega⟩ : Fin n) ≠ k := by
        rintro rfl
        exact hk (Int.toNat_of_nonneg h.1)
      rw [if_neg hk, Function.update_of_ne hindex]
  · rw [dif_neg h, dif_neg h, Option.map_none]

/-- **A remainder with the sign of the dividend is an index** exactly when the dividend is not
negative, or a multiple of the size. -/
theorem tmod_inBounds_iff (hn : 0 < n) (x : ℤ) :
    0 ≤ x.tmod n ∧ x.tmod n < n ↔ 0 ≤ x ∨ (n : ℤ) ∣ x := by
  have hlt : x.tmod n < n := Int.tmod_lt_of_pos x (by omega)
  rw [and_iff_left hlt]
  constructor
  · intro h
    rcases le_or_gt 0 x with hx | hx
    · exact Or.inl hx
    · have hneg : 0 ≤ (-x).tmod n := Int.tmod_nonneg _ (by omega)
      rw [Int.neg_tmod] at hneg
      exact Or.inr (Int.dvd_of_tmod_eq_zero (by omega))
  · rintro (hx | hx)
    · exact Int.tmod_nonneg _ hx
    · exact (Int.tmod_eq_zero_of_dvd hx).ge

end FixedArray
