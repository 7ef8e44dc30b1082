import Mathlib.Data.List.Nodup
import Mathlib.Logic.Function.Basic
import Mathlib.Tactic.SplitIfs

/-!
# Numbered cells

An array of cells, and a numbering that gives some names a cell each. When different names have
different cells, what happens to the cell of a name is what is done under that name, in order.

## Main definitions

* `Distinct m`: different names have different cells
* `Enumerates entries m`: the entries of the numbering in some order, each once
* `fill`, `change`: the cells of all entries are set up in turn, the cell of a name is changed

## Main results

* `fill_apply`, `foldl_change_apply`: the cell of a name is set up for it, and then goes through
  the changes made under the name
-/

namespace Cells

variable {κ ι α υ : Type*}

/-- Different names have different cells. -/
def Distinct (m : κ → Option ι) : Prop := ∀ ⦃x y i⦄, m x = some i → m y = some i → x = y

/-- A list of the entries of a numbering, each once. -/
structure Enumerates (entries : List (κ × ι)) (m : κ → Option ι) : Prop where
  nodup : entries.Nodup
  mem_iff : ∀ x i, (x, i) ∈ entries ↔ m x = some i

variable [DecidableEq ι]

/-- Set up the cell of each entry for its name, one after the other. -/
def fill (init : α → κ → α) (entries : List (κ × ι)) (cells : ι → α) : ι → α :=
  entries.foldl (fun cells e => Function.update cells e.2 (init (cells e.2) e.1)) cells

/-- Change the cell of a name, if it has one. -/
def change (write : α → υ → α) (m : κ → Option ι) (cells : ι → α) (w : κ × υ) : ι → α :=
  match m w.1 with
  | some i => Function.update cells i (write (cells i) w.2)
  | none => cells

variable {m : κ → Option ι} {x : κ} {i : ι}

/-- Among some of the entries, only that of the name touches its cell. -/
theorem fill_apply_of_mem_imp (hm : Distinct m) (hx : m x = some i) (init : α → κ → α)
    {entries : List (κ × ι)} (hnodup : entries.Nodup) (hmem : ∀ e ∈ entries, m e.1 = some e.2)
    (cells : ι → α) :
    ((x, i) ∈ entries → fill init entries cells i = init (cells i) x) ∧
      ((x, i) ∉ entries → fill init entries cells i = cells i) := by
  induction entries generalizing cells with
  | nil =>
    refine ⟨fun h => ?_, fun _ => rfl⟩
    cases h
  | cons e rest ih =>
    obtain ⟨hfresh, hnodup⟩ := List.nodup_cons.mp hnodup
    have he : m e.1 = some e.2 := hmem e List.mem_cons_self
    obtain ⟨ihmem, ihnot⟩ := ih hnodup (fun e' h => hmem e' (List.mem_cons_of_mem e h))
      (Function.update cells e.2 (init (cells e.2) e.1))
    by_cases hi : e.2 = i
    · have hname : e.1 = x := hm (hi ▸ he) hx
      obtain rfl : e = (x, i) := Prod.ext hname hi
      refine ⟨fun _ => ?_, fun h => absurd List.mem_cons_self h⟩
      have h := ihnot hfresh
      rwa [Function.update_self] at h
    · have hne : (x, i) ≠ e := fun h => hi (congrArg Prod.snd h).symm
      rw [Function.update_of_ne (Ne.symm hi)] at ihmem ihnot
      constructor
      · intro h
        exact ihmem ((List.mem_cons.mp h).resolve_left hne)
      · intro h
        exact ihnot fun hrest => h (List.mem_cons_of_mem e hrest)

/-- **The cell of a name is set up for it**, in whatever order the entries come. -/
theorem fill_apply (hm : Distinct m) (hx : m x = some i) (init : α → κ → α)
    {entries : List (κ × ι)} (he : Enumerates entries m) (cells : ι → α) :
    fill init entries cells i = init (cells i) x := by
  have hall : ∀ e ∈ entries, m e.1 = some e.2 := fun e h => (he.mem_iff e.1 e.2).mp h
  exact (fill_apply_of_mem_imp hm hx init he.nodup hall cells).1 ((he.mem_iff x i).mpr hx)

/-- **The cell of a name goes through the changes made under the name**, in their order. -/
theorem foldl_change_apply [DecidableEq κ] (hm : Distinct m) (hx : m x = some i)
    (write : α → υ → α) (writes : List (κ × υ)) (cells : ι → α) :
    writes.foldl (change write m) cells i =
      ((writes.filter (·.1 = x)).map (·.2)).foldl write (cells i) := by
  induction writes generalizing cells with
  | nil => rfl
  | cons w rest ih =>
    rw [List.foldl_cons, ih]
    by_cases hw : w.1 = x
    · have hcell : change write m cells w i = write (cells i) w.2 := by
        simp [change, hw, hx]
      rw [hcell, List.filter_cons_of_pos (by simpa using hw)]
      rfl
    · have hcell : change write m cells w i = cells i := by
        unfold change
        cases hj : m w.1 with
        | some j =>
          have hne : i ≠ j := fun h => hw (hm (h ▸ hj) hx)
          exact Function.update_of_ne hne _ _
        | none => rfl
      rw [hcell, List.filter_cons_of_neg (by simpa using hw)]

end Cells
