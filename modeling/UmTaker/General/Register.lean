import Mathlib.Data.List.Induction
import Mathlib.Order.Lattice
import Mathlib.Order.MinMax
import Mathlib.Tactic.SplitIfs

/-!
# Registers of the newest value

A register is overwritten by values with a larger key only. After any sequence of writes it holds
one of the values written, or its first one, with the largest key of all; so neither the order of
the writes nor their repetition matters, where different values have different keys.

## Main definitions

* `write`: keep the value with the larger key
* `largest`: the largest key of a list of values, or a given one

## Main results

* `foldl_write_mem`, `le_foldl_write`: what the register holds after a sequence of writes
* `foldl_write_eq`: it holds the value with the largest key
-/

namespace Register

variable {α κ : Type*} [LinearOrder κ] (key : α → κ)

/-- A value with a larger key overwrites the register. -/
def write (r x : α) : α := if key r < key x then x else r

/-- The largest key of the values, or `k` if none is larger. -/
def largest (k : κ) (xs : List α) : κ := xs.foldl (fun m x => max m (key x)) k

@[simp] theorem largest_snoc (k : κ) (xs : List α) (x : α) :
    largest key k (xs ++ [x]) = max (largest key k xs) (key x) := by
  simp [largest]

variable {key} {r x : α} {xs : List α}

/-- The register holds its first value or one that was written. -/
theorem foldl_write_mem : xs.foldl (write key) r ∈ r :: xs := by
  induction xs using List.reverseRecOn with
  | nil => exact List.mem_cons_self
  | append_singleton xs last ih =>
    rw [List.foldl_append, List.foldl_cons, List.foldl_nil, ← List.cons_append]
    unfold write
    split_ifs
    · exact List.mem_append_right _ (List.mem_singleton_self last)
    · exact List.mem_append_left _ ih

/-- No value written, and not the first one, has a larger key. -/
theorem le_foldl_write (h : x ∈ r :: xs) : key x ≤ key (xs.foldl (write key) r) := by
  induction xs using List.reverseRecOn with
  | nil =>
    obtain rfl := List.mem_singleton.mp h
    exact le_rfl
  | append_singleton xs last ih =>
    rw [List.foldl_append, List.foldl_cons, List.foldl_nil]
    rw [← List.cons_append, List.mem_append, List.mem_singleton] at h
    unfold write
    split_ifs with hlast
    · rcases h with h | rfl
      · exact (ih h).trans hlast.le
      · exact le_rfl
    · rcases h with h | rfl
      · exact ih h
      · exact not_lt.mp hlast

/-- **The register ends with the value of the largest key**, if no other has this key. -/
theorem foldl_write_eq (hx : x ∈ r :: xs) (hmax : ∀ y ∈ r :: xs, key y ≤ key x)
    (hkey : ∀ y ∈ r :: xs, key y = key x → y = x) : xs.foldl (write key) r = x := by
  have hmem : xs.foldl (write key) r ∈ r :: xs := foldl_write_mem
  exact hkey _ hmem (le_antisymm (hmax _ hmem) (le_foldl_write hx))

end Register
