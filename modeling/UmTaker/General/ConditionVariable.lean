import Mathlib.Data.Finset.Card

/-!
# Condition variables

Threads block on a condition variable until a notification lets them go on. A notified thread is
pending until it has the lock again; then it leaves, or blocks once more. If as many notifications
are pending as there is something to go on with, none of it waits for a thread that nothing wakes.

## Main definitions

* `ConditionVariable`: the blocked and the notified threads, which are others
* `wait`, `leave`, `notifyOne`, `notifyAll`: its operations
* `Covered slots c`: while a thread is blocked, no more slots are free than notifications pending

## Main results

* `Covered.notified_nonempty`: a free slot that is covered has a notification pending
* `covered_wait`, `Covered.leave`, `covered_leave_of_empty`, `Covered.leave_of_notMem`,
  `Covered.notifyOne`, `covered_notifyAll`: what the operations do to it
-/

/-- The threads at a condition variable. -/
structure ConditionVariable (T : Type*) where
  blocked : Finset T
  notified : Finset T
  disjoint : Disjoint blocked notified

namespace ConditionVariable

variable {T : Type*}

/-- No thread waits. -/
def empty : ConditionVariable T where
  blocked := ∅
  notified := ∅
  disjoint := Finset.disjoint_empty_left _

/-- The thread is in its wait. -/
def Waits (c : ConditionVariable T) (t : T) : Prop := t ∈ c.blocked ∨ t ∈ c.notified

/-- While a thread is blocked, no more slots are free than notifications pending. -/
def Covered (slots : ℕ) (c : ConditionVariable T) : Prop :=
  c.blocked.Nonempty → slots ≤ c.notified.card

variable {slots slots' : ℕ} {c : ConditionVariable T} {t : T}

/-- **A free slot that is covered has a notification pending.** -/
theorem Covered.notified_nonempty (h : Covered slots c) (hblocked : c.blocked.Nonempty)
    (hslots : 0 < slots) : c.notified.Nonempty :=
  Finset.card_pos.mp (hslots.trans_le (h hblocked))

theorem Covered.of_le (h : Covered slots c) (hle : slots' ≤ slots) : Covered slots' c :=
  fun hblocked => hle.trans (h hblocked)

variable [DecidableEq T]

instance (c : ConditionVariable T) (t : T) : Decidable (c.Waits t) :=
  inferInstanceAs (Decidable (_ ∨ _))

/-- A thread blocks. -/
def wait (c : ConditionVariable T) (t : T) : ConditionVariable T where
  blocked := insert t c.blocked
  notified := c.notified.erase t
  disjoint := Finset.disjoint_insert_left.mpr
    ⟨Finset.notMem_erase t _, c.disjoint.mono_right (Finset.erase_subset t _)⟩

/-- A thread goes on. -/
def leave (c : ConditionVariable T) (t : T) : ConditionVariable T where
  blocked := c.blocked.erase t
  notified := c.notified.erase t
  disjoint := c.disjoint.mono (Finset.erase_subset t _) (Finset.erase_subset t _)

/-- A notification may reach this thread: it is blocked, or none is. -/
def MayReach (c : ConditionVariable T) (t : T) : Prop := t ∈ c.blocked ∨ c.blocked = ∅

instance (c : ConditionVariable T) (t : T) : Decidable (c.MayReach t) :=
  inferInstanceAs (Decidable (_ ∨ _))

/-- Notify one thread, if one is blocked. -/
def notifyOne (c : ConditionVariable T) (t : T) : ConditionVariable T where
  blocked := c.blocked.erase t
  notified := if t ∈ c.blocked then insert t c.notified else c.notified
  disjoint := by
    have herase := c.disjoint.mono_left (Finset.erase_subset t c.blocked)
    split_ifs
    · exact Finset.disjoint_insert_right.mpr ⟨Finset.notMem_erase t _, herase⟩
    · exact herase

/-- Notify all threads. -/
def notifyAll (c : ConditionVariable T) : ConditionVariable T where
  blocked := ∅
  notified := c.blocked ∪ c.notified
  disjoint := Finset.disjoint_empty_left _

/-- A thread that finds no slot blocks. -/
theorem covered_wait (c : ConditionVariable T) (t : T) : Covered 0 (c.wait t) :=
  fun _ => Nat.zero_le _

/-- A notified thread takes a slot. -/
theorem Covered.leave (h : Covered slots c) (hle : slots' + 1 ≤ slots) :
    Covered slots' (c.leave t) := by
  intro hblocked
  have hcard := h (hblocked.mono (Finset.erase_subset t _))
  have herase := Finset.pred_card_le_card_erase (s := c.notified) (a := t)
  show slots' ≤ (c.notified.erase t).card
  omega

/-- A notified thread that takes none must be the last to wait. -/
theorem covered_leave_of_empty (h : c.blocked = ∅) : Covered slots (c.leave t) := by
  rintro ⟨x, hx⟩
  have hmem : x ∈ c.blocked := Finset.mem_of_mem_erase hx
  rw [h] at hmem
  cases hmem

/-- A thread that was not notified goes on, whether it takes a slot or not. -/
theorem Covered.leave_of_notMem (h : Covered slots c) (ht : t ∉ c.notified) :
    Covered slots (c.leave t) := by
  intro hblocked
  show slots ≤ (c.notified.erase t).card
  rw [Finset.erase_eq_of_notMem ht]
  exact h (hblocked.mono (Finset.erase_subset t _))

/-- A notification covers one slot more. -/
theorem Covered.notifyOne (h : Covered slots c) (ht : c.MayReach t) :
    Covered (slots + 1) (c.notifyOne t) := by
  intro hblocked
  have hbefore : c.blocked.Nonempty := hblocked.mono (Finset.erase_subset t _)
  have hmem : t ∈ c.blocked := ht.resolve_right hbefore.ne_empty
  have hfresh : t ∉ c.notified := Finset.disjoint_left.mp c.disjoint hmem
  have hcard : (c.notifyOne t).notified.card = c.notified.card + 1 := by
    show (if t ∈ c.blocked then insert t c.notified else c.notified).card = _
    rw [if_pos hmem, Finset.card_insert_of_notMem hfresh]
  rw [hcard]
  exact Nat.add_le_add_right (h hbefore) 1

theorem covered_notifyAll (c : ConditionVariable T) : Covered slots c.notifyAll :=
  fun hblocked => absurd hblocked Finset.not_nonempty_empty

end ConditionVariable
