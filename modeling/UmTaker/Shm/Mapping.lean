import UmTaker.General.Cells
import UmTaker.Shm.Records
import Mathlib.Data.List.Induction
import Mathlib.Data.List.Sort
import Mathlib.Data.String.Basic

/-!
# Segments and slot mappings

A segment is created with a number of slots. Each process numbers the names of its configuration
on its own: it sorts them, and maps each to its position.

## Main definitions

* `Segment`, `writerCommonCreateShm`: a segment, and its creation
* `slotMapping`: the positions of the sorted names
* `SlotsInRange`: every mapped index is a slot of the segment

## Main results

* `slotsInRange_slotMapping`: the indexes are in range exactly when there are slots for all names
* `slotMapping_perm`, `slotMapping_distinct`, `slotMapping_range`: the mapping does not depend on
  the order of the names, gives different names different indexes, and leaves none out when no name
  occurs twice
-/

namespace UmTaker.Shm

/-- A shared-memory segment of records `α`. -/
structure Segment (α : Type) where
  path : String
  projectId : ℤ
  slots : ℕ

/-- `writer_common_create_shm`: a new segment of `count` records. -/
def writerCommonCreateShm (α : Type) (path : String) (projectId : ℤ) (count : ℕ) : Segment α where
  path := path
  projectId := projectId
  slots := count

/-- `mapping[names[i]] = i`, for each position in turn. The index of the code is an `int`, here it
is unbounded: the two agree on all lists of less than `2 ^ 31` names. -/
def indexNames (names : List String) : StringMap ℤ :=
  names.zipIdx.foldl (fun m p => m.set p.1 p.2) .empty

/-- The slot mapping of a list of names: their positions once sorted. -/
def slotMapping (names : List String) : StringMap ℤ := indexNames (names.insertionSort (· ≤ ·))

/-- Every index of the mapping is a slot of the segment. -/
def SlotsInRange {α : Type} (mapping : StringMap ℤ) (s : Segment α) : Prop :=
  ∀ name i, mapping name = some i → 0 ≤ i ∧ i < s.slots

theorem indexNames_concat (names : List String) (name : String) :
    indexNames (names ++ [name]) = (indexNames names).set name names.length := by
  simp [indexNames, List.zipIdx_append]

theorem indexNames_bounds (names : List String) {name : String} {i : ℤ}
    (h : indexNames names name = some i) : 0 ≤ i ∧ i < names.length := by
  induction names using List.reverseRecOn with
  | nil => cases h
  | append_singleton names last ih =>
    rw [indexNames_concat, StringMap.set_apply] at h
    rw [List.length_append, List.length_singleton]
    split_ifs at h with hn
    · obtain rfl := Option.some.inj h
      omega
    · have := ih h
      omega

/-- The last name has the last index, also when it occurs more than once. -/
theorem indexNames_last {names : List String} (h : names ≠ []) :
    ∃ name, indexNames names name = some ((names.length : ℤ) - 1) := by
  obtain ⟨initial, last, rfl⟩ := (List.eq_nil_or_concat names).resolve_left h
  refine ⟨last, ?_⟩
  rw [List.concat_eq_append, indexNames_concat, StringMap.set_self]
  simp

/-- **The indexes of a slot mapping are in range** exactly when the segment has a slot for every
name. -/
theorem slotsInRange_slotMapping {α : Type} (names : List String) (s : Segment α) :
    SlotsInRange (slotMapping names) s ↔ names.length ≤ s.slots := by
  have hlen : (names.insertionSort (· ≤ ·)).length = names.length := List.length_insertionSort _ _
  constructor
  · intro h
    rcases eq_or_ne names [] with rfl | hne
    · exact Nat.zero_le _
    · have hne' : names.insertionSort (· ≤ ·) ≠ [] := by
        rw [← List.length_pos_iff, hlen]
        exact List.length_pos_iff.mpr hne
      obtain ⟨name, hlast⟩ := indexNames_last hne'
      have := (h name _ hlast).2
      omega
  · intro h name i hi
    have := indexNames_bounds _ hi
    omega

/-! ## Agreement of the indexes -/

/-- **The mapping does not depend on the order of the names**, as they are sorted first. -/
theorem slotMapping_perm {names names' : List String} (h : names.Perm names') :
    slotMapping names = slotMapping names' := by
  have hperm : (names.insertionSort (· ≤ ·)).Perm (names'.insertionSort (· ≤ ·)) :=
    ((List.perm_insertionSort _ names).trans h).trans (List.perm_insertionSort _ names').symm
  have hsorted : names.insertionSort (· ≤ ·) = names'.insertionSort (· ≤ ·) :=
    hperm.eq_of_sortedLE (List.sortedLE_insertionSort ..) (List.sortedLE_insertionSort ..)
  unfold slotMapping
  rw [hsorted]

/-- The index of a name is a position of the name. -/
theorem getElem_of_indexNames {names : List String} {name : String} {i : ℤ}
    (h : indexNames names name = some i) : names[i.toNat]? = some name := by
  induction names using List.reverseRecOn with
  | nil => cases h
  | append_singleton names last ih =>
    rw [indexNames_concat, StringMap.set_apply] at h
    split_ifs at h with hn
    · obtain rfl := Option.some.inj h
      rw [hn]
      simp
    · have hbound := indexNames_bounds names h
      rw [List.getElem?_append_left (by omega)]
      exact ih h

/-- Exactly the names of the list are indexed. -/
theorem isSome_indexNames (names : List String) (name : String) :
    (indexNames names name).isSome ↔ name ∈ names := by
  induction names using List.reverseRecOn with
  | nil => simp [indexNames]
  | append_singleton names last ih =>
    rw [indexNames_concat, StringMap.set_apply, List.mem_append, List.mem_singleton]
    by_cases hn : name = last
    · simp [hn]
    · simpa [hn] using ih

/-- **Different names have different indexes.** -/
theorem slotMapping_distinct (names : List String) : Cells.Distinct (slotMapping names) := by
  intro name name' i h h'
  have hname := getElem_of_indexNames h
  rw [getElem_of_indexNames h'] at hname
  exact (Option.some.inj hname).symm

/-- **The indexes are exactly those below the number of names**, when no name occurs twice. -/
theorem slotMapping_range {names : List String} (h : names.Nodup) (i : ℤ) :
    (∃ name, slotMapping names name = some i) ↔ 0 ≤ i ∧ i < names.length := by
  have hperm := List.perm_insertionSort (· ≤ ·) names
  have hnodup : (names.insertionSort (· ≤ ·)).Nodup := hperm.nodup_iff.mpr h
  have hlen := hperm.length_eq
  constructor
  · rintro ⟨name, hname⟩
    have := indexNames_bounds _ hname
    omega
  · rintro ⟨hpos, hlt⟩
    have hbound : i.toNat < (names.insertionSort (· ≤ ·)).length := by omega
    set name := (names.insertionSort (· ≤ ·))[i.toNat] with hdef
    have hsome := (isSome_indexNames _ name).mpr (List.getElem_mem hbound)
    obtain ⟨j, hj⟩ := Option.isSome_iff_exists.mp hsome
    have hjbound := indexNames_bounds _ hj
    have hget := getElem_of_indexNames hj
    rw [List.getElem?_eq_getElem (by omega)] at hget
    have hij : j.toNat = i.toNat := hnodup.getElem_inj_iff.mp (Option.some.inj hget)
    have : j = i := by omega
    exact ⟨name, this ▸ hj⟩

end UmTaker.Shm
