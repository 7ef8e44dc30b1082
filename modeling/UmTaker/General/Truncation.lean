import Mathlib.Algebra.Order.Floor.Ring
import Mathlib.Algebra.Order.Field.Basic
import Mathlib.Order.Bounds.Basic
import Mathlib.Tactic.Positivity

/-!
# Truncation to a grid

Truncation toward zero, to the integers and to the multiples of `1 / s`. It keeps the bounds that
lie on the grid, and of a positive value it keeps no other lower bound.

## Main definitions

* `trunc`: truncation toward zero to an integer
* `truncTo s`: truncation toward zero to a multiple of `1 / s`
* `OnGrid s`: the multiples of `1 / s`

## Main results

* `truncTo_of_onGrid`: a point of the grid is its own truncation
* `le_truncTo_iff`: a positive bound is kept when a point of the grid separates it from the value
* `le_truncTo_self_iff`: truncation does not fall below the value it truncates exactly when this
  is not positive or lies on the grid
* `isGreatest_truncTo`: of a value that is not negative, truncation is the greatest point of the
  grid below it
* `abs_truncTo_le`, `abs_sub_truncTo_lt`: truncation does not raise the absolute value, and changes
  a value by less than the unit of the grid
* `truncTo_truncTo`: truncation to a grid absorbs truncation to a finer one
* `isGreatest_truncTo_of_le`: a truncation below another bound is that of the smaller of the two
-/

namespace Truncation

variable {K : Type*} [Field K] [LinearOrder K] [IsStrictOrderedRing K] [FloorRing K]

/-- Truncation toward zero. -/
def trunc (x : K) : ℤ := if 0 ≤ x then ⌊x⌋ else ⌈x⌉

/-- Truncation toward zero to a multiple of `1 / s`. -/
def truncTo (s x : K) : K := trunc (x * s) / s

/-- The multiples of `1 / s`. -/
def OnGrid (s x : K) : Prop := ∃ k : ℤ, x = k / s

omit [IsStrictOrderedRing K] in
theorem trunc_of_nonneg {x : K} (h : 0 ≤ x) : trunc x = ⌊x⌋ := if_pos h

omit [IsStrictOrderedRing K] in
theorem trunc_of_neg {x : K} (h : x < 0) : trunc x = ⌈x⌉ := if_neg h.not_ge

/-- Truncation raises what is not positive. -/
theorem le_trunc_of_nonpos {x : K} (h : x ≤ 0) : x ≤ trunc x := by
  rcases h.eq_or_lt with rfl | h
  · simp [trunc]
  · rw [trunc_of_neg h]
    exact Int.le_ceil x

/-- A positive integer bounds the truncation from below exactly when it bounds the value. -/
theorem le_trunc_iff {x : K} {k : ℤ} (hk : 0 < k) : k ≤ trunc x ↔ (k : K) ≤ x := by
  by_cases hx : 0 ≤ x
  · rw [trunc_of_nonneg hx]
    exact Int.le_floor
  · have hneg : x < 0 := not_le.mp hx
    rw [trunc_of_neg hneg]
    -- a negative value is raised to at most zero, so no positive bound holds on either side
    have hceil : ⌈x⌉ ≤ 0 := Int.ceil_nonpos.mpr hneg.le
    have hcast : (0 : K) < k := Int.cast_pos.mpr hk
    constructor
    · intro h
      omega
    · intro h
      linarith

variable {s : K}

/-- An integer is its own truncation. -/
theorem trunc_intCast (k : ℤ) : trunc (k : K) = k := by
  unfold trunc
  split_ifs
  · exact Int.floor_intCast k
  · exact Int.ceil_intCast k

/-- A point of the grid is its own truncation. -/
theorem truncTo_of_onGrid {s x : K} (hs : s ≠ 0) (h : OnGrid s x) : truncTo s x = x := by
  obtain ⟨k, rfl⟩ := h
  rw [truncTo, div_mul_cancel₀ _ hs, trunc_intCast]

omit [IsStrictOrderedRing K] in
theorem truncTo_onGrid (s x : K) : OnGrid s (truncTo s x) := ⟨trunc (x * s), rfl⟩

/-! ### Truncation to the integers -/

/-- Truncation is odd. -/
theorem trunc_neg (x : K) : trunc (-x) = -trunc x := by
  rcases lt_trichotomy x 0 with h | rfl | h
  · rw [trunc_of_neg h, trunc_of_nonneg (neg_nonneg.mpr h.le), Int.floor_neg]
  · simp [trunc]
  · rw [trunc_of_nonneg h.le, trunc_of_neg (neg_lt_zero.mpr h), Int.ceil_neg]

omit [IsStrictOrderedRing K] in
theorem trunc_nonneg {x : K} (h : 0 ≤ x) : 0 ≤ trunc x := by
  rw [trunc_of_nonneg h]
  exact Int.floor_nonneg.mpr h

omit [IsStrictOrderedRing K] in
/-- Truncation keeps the order. -/
theorem trunc_mono {x y : K} (h : x ≤ y) : trunc x ≤ trunc y := by
  rcases le_or_gt 0 x with hx | hx
  · rw [trunc_of_nonneg hx, trunc_of_nonneg (hx.trans h)]
    exact Int.floor_le_floor h
  · rcases le_or_gt 0 y with hy | hy
    · have hceil : trunc x ≤ 0 := by
        rw [trunc_of_neg hx]
        exact Int.ceil_nonpos.mpr hx.le
      exact hceil.trans (trunc_nonneg hy)
    · rw [trunc_of_neg hx, trunc_of_neg hy]
      exact Int.ceil_le_ceil h

omit [FloorRing K] in
/-- What holds of the numbers that are not negative, and of a number with its opposite, holds of
all. -/
theorem of_neg {P : K → Prop} (hneg : ∀ x, P (-x) → P x) (hnonneg : ∀ x, 0 ≤ x → P x) (x : K) :
    P x := by
  rcases le_total 0 x with h | h
  · exact hnonneg x h
  · exact hneg x (hnonneg (-x) (neg_nonneg.mpr h))

/-- Truncation does not raise the absolute value. -/
theorem abs_trunc_le (x : K) : |(trunc x : K)| ≤ |x| := by
  induction x using of_neg with
  | hneg x h => simpa [trunc_neg] using h
  | hnonneg x h =>
    rw [abs_of_nonneg (Int.cast_nonneg (trunc_nonneg h)), abs_of_nonneg h, trunc_of_nonneg h]
    exact Int.floor_le x

/-- Truncation changes a value by less than one. -/
theorem abs_sub_trunc_lt (x : K) : |x - trunc x| < 1 := by
  induction x using of_neg with
  | hneg x h =>
    rwa [trunc_neg, Int.cast_neg, ← neg_sub', abs_neg] at h
  | hnonneg x h =>
    rw [trunc_of_nonneg h, Int.self_sub_floor, abs_of_nonneg (Int.fract_nonneg x)]
    exact Int.fract_lt_one x

/-! ### Truncation to a grid -/

/-- A positive lower bound survives the truncation exactly when a point of the grid lies between
the bound and the value. -/
theorem le_truncTo_iff (hs : 0 < s) {g x : K} (hg : 0 < g) :
    g ≤ truncTo s x ↔ ∃ y, OnGrid s y ∧ g ≤ y ∧ y ≤ x := by
  constructor
  · intro h
    refine ⟨truncTo s x, truncTo_onGrid s x, h, ?_⟩
    -- the truncation is a positive point of the grid, so it is below the value
    have hpos : (0 : K) < trunc (x * s) := by
      have := hg.trans_le h
      unfold truncTo at this
      exact (div_pos_iff_of_pos_right hs).mp this
    have hle := (le_trunc_iff (Int.cast_pos.mp hpos)).mp (le_refl (trunc (x * s)))
    rwa [truncTo, div_le_iff₀ hs]
  · rintro ⟨_, ⟨k, rfl⟩, hgk, hkx⟩
    have hk : (0 : K) < k := (div_pos_iff_of_pos_right hs).mp (hg.trans_le hgk)
    have hkt : k ≤ trunc (x * s) :=
      (le_trunc_iff (Int.cast_pos.mp hk)).mpr ((div_le_iff₀ hs).mp hkx)
    calc g ≤ k / s := hgk
      _ ≤ trunc (x * s) / s := div_le_div_of_nonneg_right (Int.cast_le.mpr hkt) hs.le

/-- **Truncation loses nothing from below** exactly of what is not positive or on the grid. -/
theorem le_truncTo_self_iff (hs : 0 < s) {x : K} : x ≤ truncTo s x ↔ x ≤ 0 ∨ OnGrid s x := by
  rcases le_or_gt x 0 with hx | hx
  · refine iff_of_true ?_ (Or.inl hx)
    rw [truncTo, le_div_iff₀ hs]
    exact le_trunc_of_nonpos (mul_nonpos_of_nonpos_of_nonneg hx hs.le)
  · rw [le_truncTo_iff hs hx]
    constructor
    · rintro ⟨y, hy, hxy, hyx⟩
      rw [le_antisymm hxy hyx]
      exact Or.inr hy
    · rintro (h | h)
      · exact absurd h hx.not_ge
      · exact ⟨x, h, le_rfl, le_rfl⟩

/-- **Truncation of a value that is not negative** is the greatest point of the grid below it. -/
theorem isGreatest_truncTo (hs : 0 < s) {x : K} (hx : 0 ≤ x) :
    IsGreatest {y | OnGrid s y ∧ y ≤ x} (truncTo s x) := by
  have hfloor : truncTo s x = ⌊x * s⌋ / s := by
    rw [truncTo, trunc_of_nonneg (mul_nonneg hx hs.le)]
  constructor
  · refine ⟨truncTo_onGrid s x, ?_⟩
    rw [hfloor, div_le_iff₀ hs]
    exact Int.floor_le (x * s)
  · rintro _ ⟨⟨k, rfl⟩, hkx⟩
    have hk : k ≤ ⌊x * s⌋ := Int.le_floor.mpr ((div_le_iff₀ hs).mp hkx)
    rw [hfloor]
    exact div_le_div_of_nonneg_right (Int.cast_le.mpr hk) hs.le

/-- Truncation to a grid is odd. -/
theorem truncTo_neg (s x : K) : truncTo s (-x) = -truncTo s x := by
  rw [truncTo, truncTo, neg_mul, trunc_neg, Int.cast_neg, neg_div]

/-- Truncation to a grid keeps the order. -/
theorem truncTo_mono (hs : 0 < s) {x y : K} (h : x ≤ y) : truncTo s x ≤ truncTo s y := by
  have htrunc : trunc (x * s) ≤ trunc (y * s) :=
    trunc_mono (mul_le_mul_of_nonneg_right h hs.le)
  exact div_le_div_of_nonneg_right (Int.cast_le.mpr htrunc) hs.le

/-- Truncation to a grid does not raise the absolute value. -/
theorem abs_truncTo_le (hs : 0 < s) (x : K) : |truncTo s x| ≤ |x| := by
  rw [truncTo, abs_div, abs_of_pos hs, div_le_iff₀ hs]
  calc |(trunc (x * s) : K)| ≤ |x * s| := abs_trunc_le (x * s)
    _ = |x| * s := by rw [abs_mul, abs_of_pos hs]

/-- Truncation to a grid changes a value by less than the unit of the grid. -/
theorem abs_sub_truncTo_lt (hs : 0 < s) (x : K) : |x - truncTo s x| < 1 / s := by
  have hscale : (x - truncTo s x) * s = x * s - trunc (x * s) := by
    rw [sub_mul, truncTo, div_mul_cancel₀ _ hs.ne']
  rw [lt_div_iff₀ hs]
  calc |x - truncTo s x| * s = |(x - truncTo s x) * s| := by rw [abs_mul, abs_of_pos hs]
    _ = |x * s - trunc (x * s)| := by rw [hscale]
    _ < 1 := abs_sub_trunc_lt (x * s)

omit [FloorRing K] [LinearOrder K] [IsStrictOrderedRing K] in
/-- The points of a grid are on every finer grid. -/
theorem OnGrid.refine {x : K} (h : OnGrid s x) {n : ℕ} (hn : (n : K) ≠ 0) : OnGrid (s * n) x := by
  obtain ⟨k, rfl⟩ := h
  refine ⟨k * n, ?_⟩
  rw [Int.cast_mul, Int.cast_natCast, mul_div_mul_right _ _ hn]

/-- **Truncation to a grid after a finer one** is truncation to the grid. -/
theorem truncTo_truncTo (hs : 0 < s) {n : ℕ} (hn : 0 < n) (x : K) :
    truncTo s (truncTo (s * n) x) = truncTo s x := by
  have hn : (0 : K) < n := Nat.cast_pos.mpr hn
  have hfine : 0 < s * n := mul_pos hs hn
  induction x using of_neg with
  | hneg x h =>
    rw [truncTo_neg, truncTo_neg, truncTo_neg, neg_inj] at h
    exact h
  | hnonneg x hx =>
    obtain ⟨⟨-, hle⟩, hub⟩ := isGreatest_truncTo hfine hx
    have hpos : 0 ≤ truncTo (s * n) x :=
      div_nonneg (Int.cast_nonneg (trunc_nonneg (mul_nonneg hx hfine.le))) hfine.le
    have hsame : {y | OnGrid s y ∧ y ≤ truncTo (s * n) x} = {y | OnGrid s y ∧ y ≤ x} := by
      ext y
      constructor
      · rintro ⟨hy, hyx⟩
        exact ⟨hy, hyx.trans hle⟩
      · rintro ⟨hy, hyx⟩
        exact ⟨hy, hub ⟨hy.refine hn.ne', hyx⟩⟩
    have hgreatest := isGreatest_truncTo hs hpos
    rw [hsame] at hgreatest
    exact hgreatest.unique (isGreatest_truncTo hs hx)

/-- A truncation that another bound lies above is the greatest point of the grid below both. -/
theorem isGreatest_truncTo_of_le (hs : 0 < s) {x g : K} (hx : 0 ≤ x) (hg : truncTo s x ≤ g) :
    IsGreatest {y | OnGrid s y ∧ y ≤ min x g} (truncTo s x) := by
  obtain ⟨⟨hgrid, hle⟩, hub⟩ := isGreatest_truncTo hs hx
  constructor
  · exact ⟨hgrid, le_min hle hg⟩
  · rintro y ⟨hy, hyle⟩
    exact hub ⟨hy, hyle.trans (min_le_left x g)⟩

end Truncation
