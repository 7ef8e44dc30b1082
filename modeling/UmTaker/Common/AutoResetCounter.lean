import UmTaker.General.Quota
import UmTaker.Common.Basic
import Mathlib.Algebra.Order.Group.Int

/-!
# Counters that reset themselves

A semaphore count that a refresh thread resets at the end of each cycle. `AutoResetCounter` is one
such window; the order limiter keeps two.

## Main definitions

* `SemaphoreWindow`: a semaphore count with its cycle
* `SemaphoreWindow.resetIfCycleEnd`, `AutoResetCounter.getSemaphore`: the reset and the request
-/

namespace UmTaker

/-- A semaphore count, the length of its cycle and its latest reset. -/
structure SemaphoreWindow extends Quota ℤ where
  resetDurationMillis : ℕ
  latestResetMillis : ℕ
  deriving DecidableEq

namespace SemaphoreWindow

/-- A full window, reset now. -/
def init (semaphoreCount : ℤ) (resetDurationMillis now : ℕ) : SemaphoreWindow where
  initCount := semaphoreCount
  remainCount := semaphoreCount
  resetDurationMillis := resetDurationMillis
  latestResetMillis := now

/-- The cycle has ended: `latest_reset_millis + reset_duration_millis <= now`. -/
def cycleEnded (w : SemaphoreWindow) (now : ℕ) : Bool :=
  decide (u64 (w.latestResetMillis + w.resetDurationMillis) ≤ now)

/-- `reset_if_cycle_end` of one window. -/
def resetIfCycleEnd (w : SemaphoreWindow) (now : ℕ) : SemaphoreWindow :=
  if w.cycleEnded now then { w with toQuota := w.renew, latestResetMillis := now } else w

/-- Subtract a request that was granted. -/
def take (w : SemaphoreWindow) (requireCount : ℤ) : SemaphoreWindow :=
  { w with toQuota := w.toQuota.take requireCount }

/-- Add what is returned, up to the initial count. -/
def giveBack (w : SemaphoreWindow) (returnCount : ℤ) : SemaphoreWindow :=
  { w with toQuota := w.toQuota.giveBack returnCount }

@[simp] theorem resetIfCycleEnd_initCount (w : SemaphoreWindow) (now : ℕ) :
    (w.resetIfCycleEnd now).initCount = w.initCount := by
  unfold resetIfCycleEnd
  split_ifs
  · rfl
  · rfl

@[simp] theorem giveBack_initCount (w : SemaphoreWindow) (n : ℤ) :
    (w.giveBack n).initCount = w.initCount := by
  unfold giveBack Quota.giveBack
  split_ifs
  · rfl
  · rfl

/-- A ledger that starts again with each renewal stays balanced. -/
theorem resetIfCycleEnd_balanced {w : SemaphoreWindow} {out : ℕ} (h : w.Balanced out) (now : ℕ) :
    (w.resetIfCycleEnd now).Balanced ((if w.cycleEnded now then 0 else out : ℕ) : ℤ) := by
  unfold resetIfCycleEnd
  split_ifs
  · exact h.renew (Int.natCast_nonneg out)
  · exact h

end SemaphoreWindow

/-- A counter is a single window. -/
abbrev AutoResetCounter := SemaphoreWindow

/-- `get_semaphore`. -/
def AutoResetCounter.getSemaphore (counter : AutoResetCounter) (requireCount : ℤ) :
    Bool × AutoResetCounter :=
  if requireCount ≤ counter.remainCount then (true, SemaphoreWindow.take counter requireCount)
  else (false, counter)

end UmTaker
