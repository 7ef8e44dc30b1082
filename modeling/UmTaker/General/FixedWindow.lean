import Mathlib.Algebra.Order.Monoid.Defs
import Mathlib.Data.Nat.Notation
import Mathlib.Order.Basic

/-!
# Quotas that are renewed, and sliding windows

A quota `c` is renewed from time to time, no sooner than `d` after the renewal before. Of what is
granted in a window `[a, a + d)`, a part may belong to the quota before a renewal and a part to the
quota after it, but no third quota reaches into the window: at most `c + c` is granted there.

## Main definitions

* `WindowBound`: what is granted in a window, against what is out since the latest renewal

## Main results

* `WindowBound.grant`, `WindowBound.renew`, `WindowBound.wait`: what keeps the bound
-/

namespace FixedWindow

variable {M : Type*} [AddCommMonoid M] [PartialOrder M]

/-- What is granted in the window `[a, a + d)` up to now, against what is out since the latest
renewal. -/
structure WindowBound (c : M) (a d latest now : ℕ) (out inWindow : M) : Prop where
  early : now < a → inWindow = 0
  before : latest < a → inWindow ≤ out
  within : latest < a + d → inWindow ≤ c + out
  total : inWindow ≤ c + c

/-- The part of a grant that falls into the window. -/
def share (a d time : ℕ) (n : M) : M := if a ≤ time ∧ time < a + d then n else 0

namespace WindowBound

variable {c out inWindow : M} {a d latest now : ℕ}

/-- Time passes. -/
theorem wait (h : WindowBound c a d latest now out inWindow) {t : ℕ} (ht : now ≤ t) :
    WindowBound c a d latest t out inWindow :=
  { h with early := fun hlt => h.early (ht.trans_lt hlt) }

/-- **A renewal keeps the bound**: the renewal before it lies before every window that reaches it,
so what was granted there was out of one quota. -/
theorem renew (h : WindowBound c a d latest now out inWindow) {t : ℕ} (hspace : latest + d ≤ t)
    (ht : now ≤ t) (hquota : out ≤ c) : WindowBound c a d t t 0 inWindow where
  early hlt := h.early (ht.trans_lt hlt)
  before hlt := (h.early (ht.trans_lt hlt)).le
  within hlt := by
    have hbefore : latest < a := by omega
    simpa using (h.before hbefore).trans hquota
  total := h.total

variable [IsOrderedAddMonoid M]

/-- Nothing is granted at first. -/
theorem start (hc : 0 ≤ c) (t : ℕ) : WindowBound c a d t t 0 0 where
  early _ := rfl
  before _ := le_rfl
  within _ := by simpa using hc
  total := add_nonneg hc hc

/-- A grant out of the quota keeps the bound: the window it falls into reaches the latest
renewal. -/
theorem grant (h : WindowBound c a d latest now out inWindow) {t : ℕ} {n : M}
    (hlatest : latest ≤ t) (ht : now ≤ t) (hn : 0 ≤ n) (hquota : out + n ≤ c) :
    WindowBound c a d latest t (out + n) (inWindow + share a d t n) := by
  unfold share
  split_ifs with hin
  · constructor
    · intro hlt
      exact absurd hin.1 hlt.not_ge
    · intro hlt
      exact add_le_add_left (h.before hlt) n
    · intro hlt
      rw [← add_assoc]
      exact add_le_add_left (h.within hlt) n
    · calc inWindow + n ≤ c + out + n := add_le_add_left (h.within (hlatest.trans_lt hin.2)) n
        _ = c + (out + n) := add_assoc c out n
        _ ≤ c + c := add_le_add_right hquota c
  · have hout : out ≤ out + n := le_add_of_nonneg_right hn
    rw [add_zero]
    constructor
    · exact fun hlt => h.early (ht.trans_lt hlt)
    · exact fun hlt => (h.before hlt).trans hout
    · exact fun hlt => (h.within hlt).trans (add_le_add_right hout c)
    · exact h.total

end WindowBound

end FixedWindow
