import UmTaker.General.Run
import Mathlib.Data.List.Nodup
import Mathlib.Tactic.SplitIfs

/-!
# Tables with a unique key

A save inserts a row, or updates the row that already has its key. A row then goes back to two saves
of its key: to the first, which inserted it, and to the last, which updated it.

## Main definitions

* `upsert`: insert a row, or update the one with its key
* `tableAfter`: the table after saves
* `firstSave`, `lastSave`: the first and the last save of a key

## Main results

* `find_upsert`, `nodup_upsert`: what a save does to the rows of a key, and that keys stay unique
* `find_tableAfter`: the row of a key is that of its first save, updated by its last
-/

namespace KeyedTable

variable {ρ κ ε : Type*} [DecidableEq κ]

/-- Insert a row, or update the one with its key. -/
def upsert (key : ρ → κ) (new : ρ) (update : ρ → ρ) : List ρ → List ρ
  | [] => [new]
  | row :: rows =>
    if key row = key new then update row :: rows else row :: upsert key new update rows

section Upsert

variable {key : ρ → κ} {new : ρ} {update : ρ → ρ}

theorem find_upsert (hupdate : ∀ row, key (update row) = key row) (rows : List ρ) (k : κ) :
    (upsert key new update rows).find? (fun row => decide (key row = k)) =
      if key new = k then some ((rows.find? fun row => decide (key row = k)).elim new update)
      else rows.find? fun row => decide (key row = k) := by
  induction rows with
  | nil => split_ifs with hk <;> simp [upsert, hk]
  | cons row rows ih =>
    unfold upsert
    by_cases hrow : key row = key new
    · rw [if_pos hrow, List.find?_cons, List.find?_cons, hupdate, hrow]
      split_ifs with hk <;> simp [hk]
    · rw [if_neg hrow, List.find?_cons, List.find?_cons, ih]
      split_ifs with hk
      · have hne : key row ≠ k := fun h => hrow (h.trans hk.symm)
        simp [hne]
      · rfl

theorem mem_keys_upsert (hupdate : ∀ row, key (update row) = key row) {rows : List ρ} {k : κ}
    (h : k ∈ (upsert key new update rows).map key) : k = key new ∨ k ∈ rows.map key := by
  induction rows with
  | nil => exact Or.inl (List.mem_singleton.mp h)
  | cons row rows ih =>
    unfold upsert at h
    split_ifs at h
    · rw [List.map_cons, hupdate] at h
      exact Or.inr h
    · rcases List.mem_cons.mp h with hk | hk
      · exact Or.inr (List.mem_cons.mpr (Or.inl hk))
      · exact (ih hk).imp_right (List.mem_cons_of_mem _)

/-- Keys stay unique. -/
theorem nodup_upsert (hupdate : ∀ row, key (update row) = key row) {rows : List ρ}
    (h : (rows.map key).Nodup) : ((upsert key new update rows).map key).Nodup := by
  induction rows with
  | nil => exact List.nodup_singleton _
  | cons row rows ih =>
    obtain ⟨hrow, hrows⟩ := List.nodup_cons.mp h
    unfold upsert
    split_ifs with hkey
    · rw [List.map_cons, hupdate]
      exact h
    -- what is behind the row got no key but the new one, which is not the row's
    · refine List.nodup_cons.mpr ⟨fun hmem => ?_, ih hrows⟩
      rcases mem_keys_upsert hupdate hmem with hk | hk
      · exact hkey hk
      · exact hrow hk

/-- Where keys are unique, a row is in the table exactly when it is found under its key. -/
theorem mem_iff_find {rows : List ρ} (h : (rows.map key).Nodup) (row : ρ) :
    row ∈ rows ↔ rows.find? (fun r => decide (key r = key row)) = some row := by
  constructor
  · intro hmem
    cases hfind : rows.find? fun r => decide (key r = key row) with
    | none => exact absurd (List.find?_eq_none.mp hfind row hmem) (by simp)
    | some row' =>
      have hkey : key row' = key row := by simpa using List.find?_some hfind
      rw [List.inj_on_of_nodup_map h (List.mem_of_find?_eq_some hfind) hmem hkey]
  · exact List.mem_of_find?_eq_some

end Upsert

/-! ## Runs of saves -/

/-- The table after saves. -/
def tableAfter (key : ρ → κ) (new : ε → ρ) (update : ε → ρ → ρ) (saves : List ε) : List ρ :=
  Run.after (fun rows save => upsert key (new save) (update save) rows) [] saves

/-- The first save of a key. -/
def firstSave (k : ε → κ) (x : κ) (saves : List ε) : Option ε :=
  saves.find? fun save => decide (k save = x)

/-- The last save of a key. -/
def lastSave (k : ε → κ) (x : κ) (saves : List ε) : Option ε :=
  saves.reverse.find? fun save => decide (k save = x)

section Saves

variable {k : ε → κ} {x : κ}

theorem firstSave_snoc (saves : List ε) (save : ε) : firstSave k x (saves ++ [save]) =
    (firstSave k x saves).or (if k save = x then some save else none) := by
  rw [firstSave, firstSave, List.find?_append, List.find?_singleton]
  simp

theorem lastSave_snoc (saves : List ε) (save : ε) : lastSave k x (saves ++ [save]) =
    if k save = x then some save else lastSave k x saves := by
  rw [lastSave, List.reverse_append, List.reverse_singleton, List.singleton_append,
    List.find?_cons]
  split_ifs with h <;> simp [h, lastSave]

theorem key_of_firstSave {saves : List ε} {save : ε} (h : firstSave k x saves = some save) :
    k save = x := by
  simpa using List.find?_some h

theorem key_of_lastSave {saves : List ε} {save : ε} (h : lastSave k x saves = some save) :
    k save = x := by
  simpa using List.find?_some h

/-- Among the saves of some keys, the last one of such a key is the last one of all. -/
theorem lastSave_filter (p : κ → Bool) (saves : List ε) :
    lastSave k x (saves.filter fun save => p (k save)) =
      if p x then lastSave k x saves else none := by
  unfold lastSave
  rw [← List.filter_reverse, List.find?_filter]
  split_ifs with hx
  · refine congrArg (fun q => List.find? q saves.reverse) (funext fun save => ?_)
    by_cases h : k save = x <;> simp [h, hx]
  · apply List.find?_eq_none.mpr
    rintro save - h
    simp only [decide_eq_true_eq] at h
    exact hx (h.2 ▸ h.1)

theorem lastSave_eq_none_iff {saves : List ε} :
    lastSave k x saves = none ↔ firstSave k x saves = none := by
  simp [lastSave, firstSave]

end Saves

variable {key : ρ → κ} {new : ε → ρ} {update : ε → ρ → ρ}

/-- Keys are unique. -/
theorem nodup_tableAfter (hupdate : ∀ save row, key (update save row) = key row)
    (saves : List ε) : ((tableAfter key new update saves).map key).Nodup := by
  refine Run.after_invariant (P := fun rows : List ρ => (rows.map key).Nodup) ?_ ?_ saves
  · exact List.nodup_nil
  · exact fun _ save h => nodup_upsert (hupdate save) h

/-- **The row of a key** is that of its first save, updated by its last, where a later update
overrides an earlier one. -/
theorem find_tableAfter (hupdate : ∀ save row, key (update save row) = key row)
    (hself : ∀ save, update save (new save) = new save)
    (hoverride : ∀ save save' row, update save (update save' row) = update save row)
    (saves : List ε) (x : κ) :
    (tableAfter key new update saves).find? (fun row => decide (key row = x)) =
      (firstSave (fun save => key (new save)) x saves).map fun first =>
        update ((lastSave (fun save => key (new save)) x saves).getD first) (new first) := by
  induction saves using List.reverseRecOn with
  | nil => rfl
  | append_singleton saves save ih =>
    rw [tableAfter, Run.after_snoc, find_upsert (hupdate save), ← tableAfter, ih]
    rw [firstSave_snoc, lastSave_snoc]
    cases hfirst : firstSave (fun save => key (new save)) x saves with
    | none =>
      split_ifs
      · exact congrArg some (hself save).symm
      · rfl
    | some first =>
      split_ifs
      · exact congrArg some (hoverride save _ (new first))
      · rfl

end KeyedTable
