import Mathlib.Data.Nat.Notation
import Mathlib.Tactic.SplitIfs

/-!
# Strings that end with a zero byte

The string at the beginning of a memory goes up to the first zero byte. Bytes written into a memory
and ended with a zero byte are read back exactly when there is no zero byte among them.

## Main definitions

* `cString`: the string at the beginning of a memory
* `terminated`: bytes and the zero byte after them

## Main results

* `cString_append_zero_iff`: when bytes are read back
-/

namespace CString

/-- The string at the beginning of a memory: the bytes before the first zero byte. -/
def cString (memory : List UInt8) : List UInt8 := memory.takeWhile (· ≠ 0)

/-- The memory of a string: its bytes and a zero byte. -/
def terminated (bytes : List UInt8) : List UInt8 := bytes ++ [0]

theorem terminated_take (bytes : List UInt8) : (terminated bytes).take bytes.length = bytes := by
  simp [terminated]

/-- A string has no zero byte. -/
theorem zero_notMem_cString (memory : List UInt8) : 0 ∉ cString memory := by
  induction memory with
  | nil => simp [cString]
  | cons b memory ih =>
    unfold cString at ih ⊢
    rw [List.takeWhile_cons]
    split_ifs with hb
    · intro hmem
      rcases List.mem_cons.mp hmem with rfl | hmem
      · simp at hb
      · exact ih hmem
    · simp

/-- **Bytes followed by a zero byte are read back** exactly when none of them is zero. -/
theorem cString_append_zero_iff (bytes rest : List UInt8) :
    cString (bytes ++ 0 :: rest) = bytes ↔ 0 ∉ bytes := by
  constructor
  · intro h
    rw [← h]
    exact zero_notMem_cString _
  · intro h
    have hall : ∀ b ∈ bytes, decide (b ≠ 0) = true := by
      intro b hb
      rw [decide_eq_true_iff]
      rintro rfl
      exact h hb
    unfold cString
    rw [List.takeWhile_append_of_pos hall]
    simp

/-- Ending the bytes at the beginning of a memory. -/
theorem set_append_of_length {bytes memory : List UInt8} (h : bytes.length < memory.length) :
    (bytes ++ memory.drop bytes.length).set bytes.length 0 =
      bytes ++ 0 :: memory.drop (bytes.length + 1) := by
  rw [List.set_append_right _ _ (Nat.le_refl _), Nat.sub_self, List.drop_eq_getElem_cons h,
    List.set_cons_zero]

end CString
