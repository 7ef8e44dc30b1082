import Mathlib.Algebra.Order.Group.Defs
import Mathlib.Tactic.Abel

/-!
# Renewable quotas

A quota counts what is left of an initial count. Parts of it are taken and given back, and from
time to time it is renewed. Against a ledger of what is out, a quota is balanced: what is left and
what is out make up the initial count. Giving back is capped at the initial count, and the balance
is what shows that the cap never bites.

## Main definitions

* `Quota`: the initial count and what is left of it
* `Quota.take`, `Quota.giveBack`, `Quota.renew`
* `Quota.Balanced`: the quota against what is out

## Main results

* `Balanced.take`, `Balanced.giveBack`, `Balanced.renew`: the operations keep the balance
* `Balanced.out_le`: no more than the initial count is out
-/

/-- A count that is renewed, and what is left of it. -/
structure Quota (M : Type*) where
  initCount : M
  remainCount : M
  deriving DecidableEq

namespace Quota

variable {M : Type*} [AddCommGroup M] [LinearOrder M]

/-- Take a part of what is left. -/
def take (q : Quota M) (n : M) : Quota M := { q with remainCount := q.remainCount - n }

/-- Give a part back, unless this exceeds the initial count. -/
def giveBack (q : Quota M) (n : M) : Quota M :=
  if q.remainCount + n ≤ q.initCount then { q with remainCount := q.remainCount + n } else q

omit [AddCommGroup M] [LinearOrder M] in
/-- Start again from the initial count. -/
def renew (q : Quota M) : Quota M := { q with remainCount := q.initCount }

/-- What is left and what is out make up the initial count, and what is left is not negative. -/
structure Balanced (q : Quota M) (out : M) : Prop where
  nonneg : 0 ≤ q.remainCount
  total : q.remainCount + out = q.initCount

namespace Balanced

variable {q : Quota M} {out n : M} [IsOrderedAddMonoid M]

/-- Taking a part that is left moves it to what is out. -/
theorem take (h : q.Balanced out) (hn : n ≤ q.remainCount) :
    (q.take n).Balanced (out + n) where
  nonneg := sub_nonneg.mpr hn
  total := by
    calc q.remainCount - n + (out + n) = q.remainCount + out := by abel
      _ = q.initCount := h.total

/-- Giving back what is out is never capped. -/
theorem giveBack (h : q.Balanced (out + n)) (hout : 0 ≤ out) (hn : 0 ≤ n) :
    (q.giveBack n).Balanced out := by
  -- what is out beside the part given back leaves room for it
  have hroom : q.remainCount + n ≤ q.initCount := by
    calc q.remainCount + n ≤ q.remainCount + (out + n) := by
          gcongr
          exact le_add_of_nonneg_left hout
      _ = q.initCount := h.total
  rw [Quota.giveBack, if_pos hroom]
  refine ⟨add_nonneg h.nonneg hn, ?_⟩
  calc q.remainCount + n + out = q.remainCount + (out + n) := by rw [add_assoc, add_comm n out]
    _ = q.initCount := h.total

/-- After a renewal nothing is out. -/
theorem renew (h : q.Balanced out) (hout : 0 ≤ out) : q.renew.Balanced 0 where
  nonneg := by
    rw [show q.renew.remainCount = q.remainCount + out from h.total.symm]
    exact add_nonneg h.nonneg hout
  total := add_zero _

/-- No more than the initial count is out. -/
theorem out_le (h : q.Balanced out) : out ≤ q.initCount := by
  rw [← h.total]
  exact le_add_of_nonneg_left h.nonneg

end Balanced

/-- A full quota has nothing out. -/
theorem balanced_full {c : M} (h : 0 ≤ c) : (⟨c, c⟩ : Quota M).Balanced 0 := ⟨h, add_zero c⟩

end Quota
