import Mathlib.Data.List.Infix
import Mathlib.Order.Bounds.Basic

/-!
# The last occurrence of a pattern

The search for a pattern from the end of a list, and what it tells of the list's end.

## Main definitions

* `OccursAt pattern l i`: the pattern stands at a position of the list
* `rfind`: the last position at which it stands

## Main results

* `rfind_eq_some_iff`: the search finds the greatest position
* `rfind_eq_end_iff`: it finds the last one that leaves room exactly when the pattern is a suffix
* `split_unique`: a list is split in one way only at the last element of a kind
* `not_suffix_append`: of two lists, neither a suffix of the other, one ends what the other does not
-/

namespace LastOccurrence

variable {α : Type*}

/-- The pattern stands at the position. -/
def OccursAt (pattern l : List α) (i : ℕ) : Prop :=
  i + pattern.length ≤ l.length ∧ pattern <+: l.drop i

/-- At the last position that leaves room for it stands exactly a suffix. -/
theorem occursAt_end_iff {pattern l : List α} (hle : pattern.length ≤ l.length) :
    OccursAt pattern l (l.length - pattern.length) ↔ pattern <:+ l := by
  have hroom : (l.drop (l.length - pattern.length)).length = pattern.length := by
    rw [List.length_drop]
    omega
  constructor
  · rintro ⟨-, hoccurs⟩
    rw [hoccurs.eq_of_length hroom.symm]
    exact List.drop_suffix _ l
  · intro hsuffix
    refine ⟨by omega, ?_⟩
    rw [← List.suffix_iff_eq_drop.mp hsuffix]

/-- A list is split in one way only at the last element of a kind. -/
theorem split_unique {p : α → Prop} {l₀ l₀' l₁ l₁' : List α} {a a' : α}
    (h : l₀ ++ a :: l₁ = l₀' ++ a' :: l₁') (ha : p a) (ha' : p a') (hl : ∀ x ∈ l₁, ¬ p x)
    (hl' : ∀ x ∈ l₁', ¬ p x) : l₀ = l₀' ∧ a = a' ∧ l₁ = l₁' := by
  rcases List.append_eq_append_iff.mp h with ⟨more, rfl, hrest⟩ | ⟨more, rfl, hrest⟩
  · cases more with
    | nil => exact ⟨(List.append_nil l₀).symm, List.cons.inj hrest⟩
    | cons b more =>
      obtain ⟨-, rfl⟩ := List.cons.inj hrest
      exact absurd ha' (hl a' (by simp))
  · cases more with
    | nil =>
      obtain ⟨rfl, rfl⟩ := List.cons.inj hrest
      exact ⟨List.append_nil l₀', rfl, rfl⟩
    | cons b more =>
      obtain ⟨-, rfl⟩ := List.cons.inj hrest
      exact absurd ha (hl' a (by simp))

variable [DecidableEq α]

instance (pattern l : List α) (i : ℕ) : Decidable (OccursAt pattern l i) :=
  inferInstanceAs (Decidable (_ ∧ _))

/-- The search from a position down. -/
def rfindFrom (pattern l : List α) : ℕ → Option ℕ
  | 0 => if OccursAt pattern l 0 then some 0 else none
  | i + 1 => if OccursAt pattern l (i + 1) then some (i + 1) else rfindFrom pattern l i

/-- The last position of the pattern. -/
def rfind (pattern l : List α) : Option ℕ :=
  if pattern.length ≤ l.length then rfindFrom pattern l (l.length - pattern.length) else none

/-- The search finds the greatest position not above the one it starts from. -/
theorem rfindFrom_eq_some_iff {pattern l : List α} {start i : ℕ} :
    rfindFrom pattern l start = some i ↔
      IsGreatest {j | OccursAt pattern l j ∧ j ≤ start} i := by
  induction start with
  | zero =>
    unfold rfindFrom
    split_ifs with h
    · constructor
      · rintro ⟨⟩
        exact ⟨⟨h, le_rfl⟩, fun j hj => hj.2⟩
      · rintro ⟨⟨-, hle⟩, -⟩
        rw [Nat.le_zero.mp hle]
    · apply iff_of_false (by simp)
      rintro ⟨⟨hi, hle⟩, -⟩
      exact h (Nat.le_zero.mp hle ▸ hi)
  | succ start ih =>
    unfold rfindFrom
    split_ifs with h
    · constructor
      · rintro ⟨⟩
        exact ⟨⟨h, le_rfl⟩, fun j hj => hj.2⟩
      · rintro ⟨⟨-, hle⟩, hub⟩
        rw [le_antisymm (hub ⟨h, le_rfl⟩) hle]
    · rw [ih]
      have hsame : {j | OccursAt pattern l j ∧ j ≤ start + 1} =
          {j | OccursAt pattern l j ∧ j ≤ start} := by
        ext j
        refine and_congr_right fun hj => ⟨fun hle => ?_, fun hle => by omega⟩
        have hne : j ≠ start + 1 := by
          rintro rfl
          exact h hj
        omega
      rw [hsame]

/-- **The search finds the last position** of the pattern. -/
theorem rfind_eq_some_iff {pattern l : List α} {i : ℕ} :
    rfind pattern l = some i ↔ IsGreatest {j | OccursAt pattern l j} i := by
  unfold rfind
  split_ifs with hle
  · have hsame : {j | OccursAt pattern l j ∧ j ≤ l.length - pattern.length} =
        {j | OccursAt pattern l j} := by
      ext j
      refine ⟨And.left, fun hj => ⟨hj, ?_⟩⟩
      have hroom := hj.1
      omega
    rw [rfindFrom_eq_some_iff, hsame]
  · apply iff_of_false (by simp)
    rintro ⟨⟨hroom, -⟩, -⟩
    omega

/-- **The last position that leaves room is found** exactly when the pattern is a suffix. -/
theorem rfind_eq_end_iff {pattern l : List α} (hle : pattern.length ≤ l.length) :
    rfind pattern l = some (l.length - pattern.length) ↔ pattern <:+ l := by
  rw [rfind_eq_some_iff, ← occursAt_end_iff hle]
  refine ⟨And.left, fun h => ⟨h, fun j hj => ?_⟩⟩
  have hroom := hj.1
  omega

omit [DecidableEq α] in
/-- Of two lists, neither a suffix of the other, one does not end what the other ends. -/
theorem not_suffix_append {base s t : List α} (hst : ¬ s <:+ t) (hts : ¬ t <:+ s) :
    ¬ s <:+ base ++ t := by
  intro h
  rcases List.suffix_or_suffix_of_suffix h (List.suffix_append base t) with h | h
  · exact hst h
  · exact hts h

end LastOccurrence
