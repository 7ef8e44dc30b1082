import Mathlib.Data.List.DropRight
import Mathlib.Order.Lattice

/-!
# Sliding windows

A queue that grows at the back and loses elements at the front: its recent elements are the last
ones, and eviction never removes one that stands behind another that stays. The hull of a list is
what a running minimum and maximum leave.

## Main definitions

* `Hull`: a minimum and a maximum, with `Hull.widen` and `Hull.widenAll`
* `Hull.Contains`: the value lies between them
* `Hull.Spans xs x`: some elements lie below and above the value

## Main results

* `mem_rtake_of_mem_drop`: eviction keeps the recent elements that stay in the queue
* `Hull.contains_widenAll`, `Hull.contains_widenAll_iff`: the hull of a list contains what the list
  spans, and nothing else when it starts from sentinels
* `Hull.widenAll_min_mem`, `Hull.widenAll_max_mem`: minimum and maximum are elements of the list
-/

namespace SlidingWindow

/-! ## Recent elements -/

section Recent

variable {α : Type*} {l : List α} {x : α} {k n : ℕ}

/-- An element found behind two cuts is found behind the later one. -/
theorem mem_drop_max {i j : ℕ} (hi : x ∈ l.drop i) (hj : x ∈ l.drop j) : x ∈ l.drop (max i j) := by
  rcases le_total i j with h | h
  · rwa [max_eq_right h]
  · rwa [max_eq_left h]

/-- The recent elements of what eviction leaves. -/
theorem rtake_drop (l : List α) (k n : ℕ) :
    (l.drop k).rtake n = l.drop (max k (l.length - n)) := by
  unfold List.rtake
  -- the last `n` are what is left of the first `length - n`, so both are cuts at the front
  rw [List.drop_drop, List.length_drop]
  congr 1
  omega

/-- Eviction keeps the recent elements that stay in the queue. -/
theorem mem_rtake_of_mem_drop (hx : x ∈ l.drop k) (hrecent : x ∈ l.rtake n) :
    x ∈ (l.drop k).rtake n := by
  rw [rtake_drop]
  exact mem_drop_max hx hrecent

/-- Eviction adds no recent elements. -/
theorem mem_rtake_of_mem_rtake_drop (h : x ∈ (l.drop k).rtake n) : x ∈ l.rtake n := by
  rw [rtake_drop] at h
  exact List.drop_subset_drop_left l (le_max_right k (l.length - n)) h

/-- A new element is recent, and so are those that were. -/
theorem mem_rtake_snoc (y : α) : x ∈ (l ++ [y]).rtake (n + 1) ↔ x ∈ l.rtake n ∨ x = y := by
  rw [List.rtake_concat_succ, List.mem_append, List.mem_singleton]

end Recent

end SlidingWindow

/-! ## Hulls -/

/-- What a running minimum and maximum hold. -/
structure Hull (K : Type*) where
  min : K
  max : K
  deriving DecidableEq

namespace Hull

variable {K : Type*} [LinearOrder K] {h : Hull K} {x : K} {xs : List K}

/-- One more value. -/
def widen (h : Hull K) (x : K) : Hull K where
  min := if x < h.min then x else h.min
  max := if h.max < x then x else h.max

/-- All values of a list. -/
def widenAll (h : Hull K) (xs : List K) : Hull K := xs.foldl widen h

/-- The value lies between minimum and maximum. -/
def Contains (h : Hull K) (x : K) : Prop := h.min ≤ x ∧ x ≤ h.max

instance (h : Hull K) (x : K) : Decidable (h.Contains x) := inferInstanceAs (Decidable (_ ∧ _))

theorem widen_min_le_iff {y : K} : (h.widen y).min ≤ x ↔ h.min ≤ x ∨ y ≤ x := by
  unfold widen
  dsimp only
  split_ifs with hy
  · exact ⟨Or.inr, fun h' => h'.elim (fun hx => hy.le.trans hx) id⟩
  · exact ⟨Or.inl, fun h' => h'.elim id fun hx => (not_lt.mp hy).trans hx⟩

theorem le_widen_max_iff {y : K} : x ≤ (h.widen y).max ↔ x ≤ h.max ∨ x ≤ y := by
  unfold widen
  dsimp only
  split_ifs with hy
  · exact ⟨Or.inr, fun h' => h'.elim (fun hx => hx.trans hy.le) id⟩
  · exact ⟨Or.inl, fun h' => h'.elim id fun hx => hx.trans (not_lt.mp hy)⟩

/-- The new value lies in the widened hull. -/
theorem contains_widen_self : (h.widen x).Contains x :=
  ⟨widen_min_le_iff.mpr (Or.inr le_rfl), le_widen_max_iff.mpr (Or.inr le_rfl)⟩

/-- What lay in the hull lies in the widened one. -/
theorem Contains.widen (hx : h.Contains x) (y : K) : (h.widen y).Contains x :=
  ⟨widen_min_le_iff.mpr (Or.inl hx.1), le_widen_max_iff.mpr (Or.inl hx.2)⟩

theorem widenAll_min_le_iff : (h.widenAll xs).min ≤ x ↔ h.min ≤ x ∨ ∃ y ∈ xs, y ≤ x := by
  induction xs generalizing h with
  | nil => simp [widenAll]
  | cons y ys ih =>
    rw [widenAll, List.foldl_cons, ← widenAll, ih, widen_min_le_iff, List.exists_mem_cons_iff,
      or_assoc]

theorem le_widenAll_max_iff : x ≤ (h.widenAll xs).max ↔ x ≤ h.max ∨ ∃ y ∈ xs, x ≤ y := by
  induction xs generalizing h with
  | nil => simp [widenAll]
  | cons y ys ih =>
    rw [widenAll, List.foldl_cons, ← widenAll, ih, le_widen_max_iff, List.exists_mem_cons_iff,
      or_assoc]

/-- A value with elements of the list below and above it. -/
def Spans (xs : List K) (x : K) : Prop := (∃ y ∈ xs, y ≤ x) ∧ ∃ y ∈ xs, x ≤ y

instance (xs : List K) (x : K) : Decidable (Spans xs x) := inferInstanceAs (Decidable (_ ∧ _))

theorem spans_of_mem (hx : x ∈ xs) : Spans xs x := ⟨⟨x, hx, le_rfl⟩, ⟨x, hx, le_rfl⟩⟩

/-- What a list spans lies in its hull, whatever the hull started from. -/
theorem contains_widenAll (hx : Spans xs x) : (h.widenAll xs).Contains x :=
  ⟨widenAll_min_le_iff.mpr (Or.inr hx.1), le_widenAll_max_iff.mpr (Or.inr hx.2)⟩

/-- Started from sentinels outside its elements, the hull of a list contains what the list spans and
nothing else. -/
theorem contains_widenAll_iff (hne : xs ≠ []) (hmin : ∀ y ∈ xs, y ≤ h.min)
    (hmax : ∀ y ∈ xs, h.max ≤ y) : (h.widenAll xs).Contains x ↔ Spans xs x := by
  refine ⟨fun hx => ?_, contains_widenAll⟩
  obtain ⟨y, hy⟩ := List.exists_mem_of_ne_nil xs hne
  constructor
  · rcases widenAll_min_le_iff.mp hx.1 with hsentinel | hseen
    · exact ⟨y, hy, (hmin y hy).trans hsentinel⟩
    · exact hseen
  · rcases le_widenAll_max_iff.mp hx.2 with hsentinel | hseen
    · exact ⟨y, hy, hsentinel.trans (hmax y hy)⟩
    · exact hseen

theorem widen_min_eq_or (h : Hull K) (x : K) : (h.widen x).min = h.min ∨ (h.widen x).min = x := by
  unfold widen
  dsimp only
  split_ifs
  · exact Or.inr rfl
  · exact Or.inl rfl

theorem widen_max_eq_or (h : Hull K) (x : K) : (h.widen x).max = h.max ∨ (h.widen x).max = x := by
  unfold widen
  dsimp only
  split_ifs
  · exact Or.inr rfl
  · exact Or.inl rfl

/-- Started from a sentinel above its elements, the minimum of a list is one of them. -/
theorem widenAll_min_mem (hne : xs ≠ []) (hmin : ∀ y ∈ xs, y ≤ h.min) :
    (h.widenAll xs).min ∈ xs := by
  obtain ⟨y, hy⟩ := List.exists_mem_of_ne_nil xs hne
  have hseen : ∃ z ∈ xs, z ≤ (h.widenAll xs).min := by
    rcases widenAll_min_le_iff.mp (le_refl (h.widenAll xs).min) with hsentinel | hseen
    · exact ⟨y, hy, (hmin y hy).trans hsentinel⟩
    · exact hseen
  obtain ⟨z, hz, hle⟩ := hseen
  have hge : (h.widenAll xs).min ≤ z := (contains_widenAll (spans_of_mem hz)).1
  rwa [le_antisymm hge hle]

/-- Started from a sentinel below its elements, the maximum of a list is one of them. -/
theorem widenAll_max_mem (hne : xs ≠ []) (hmax : ∀ y ∈ xs, h.max ≤ y) :
    (h.widenAll xs).max ∈ xs := by
  obtain ⟨y, hy⟩ := List.exists_mem_of_ne_nil xs hne
  have hseen : ∃ z ∈ xs, (h.widenAll xs).max ≤ z := by
    rcases le_widenAll_max_iff.mp (le_refl (h.widenAll xs).max) with hsentinel | hseen
    · exact ⟨y, hy, hsentinel.trans (hmax y hy)⟩
    · exact hseen
  obtain ⟨z, hz, hle⟩ := hseen
  have hge : z ≤ (h.widenAll xs).max := (contains_widenAll (spans_of_mem hz)).2
  rwa [le_antisymm hle hge]

end Hull
