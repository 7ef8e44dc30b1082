import UmTaker.Common.Basic
import Mathlib.Algebra.Order.Ring.Rat
import Mathlib.Data.Fintype.Pi
import Mathlib.Data.List.AList

/-!
# The order statistics in memory

`StatOrderFullInfoComposite` keeps the statistics of each recent order: its fill, and its price and
its profit at thirteen horizons. Fills arrive from other processes; whole records are written back
by the thread that samples the horizons.

## Main definitions

* `Horizon`, `StatOrderFullInfo`: the statistics of an order
* `updateWithLite`, `setFullInfo`, `eraseKeys`: what is done to the map behind its lock
* `loadStatOrders`: the map that the rows of the database leave

## Main results

* `lookup_updateWithLite`, `lookup_setFullInfo`, `lookup_of_eraseKeys`: what each leaves in the map
-/

namespace UmTaker.Evaluator

/-! ## The statistics of an order -/

/-- A fill of an order, as the other processes send it. -/
structure StatOrderLite where
  accountFlag : String
  symbol : String
  orderSide : String
  clientOrderId : String
  averagePrice : ℚ
  filledSize : ℚ
  commissionRate : ℚ
  systemTimestamp : ℕ
  deriving DecidableEq

/-- The horizons at which the price after an order is sampled. -/
inductive Horizon
  | after1s
  | after5s
  | after10s
  | after20s
  | after30s
  | after40s
  | after50s
  | after60s
  | after120s
  | after180s
  | after15min
  | after30min
  | after1hour
  deriving DecidableEq

namespace Horizon

/-- The age from which a horizon is sampled. -/
def seconds : Horizon → ℕ
  | after1s => 1
  | after5s => 5
  | after10s => 10
  | after20s => 20
  | after30s => 30
  | after40s => 40
  | after50s => 50
  | after60s => 60
  | after120s => 120
  | after180s => 180
  | after15min => 900
  | after30min => 1800
  | after1hour => 3600

/-- The horizons in the order of their tests. -/
def all : List Horizon :=
  [after1s, after5s, after10s, after20s, after30s, after40s, after50s, after60s, after120s,
    after180s, after15min, after30min, after1hour]

instance : Fintype Horizon where
  elems := all.toFinset
  complete h := by cases h <;> decide

end Horizon

/-- The statistics of an order; a price of zero is one not sampled yet. -/
structure StatOrderFullInfo where
  accountFlag : String
  symbol : String
  orderSide : String
  clientOrderId : String
  averagePrice : ℚ
  filledSize : ℚ
  commissionRate : ℚ
  systemTimestamp : ℕ
  propertyChanged : Bool := false
  priceAfter : Horizon → ℚ := fun _ => 0
  pnlPercentage : Horizon → ℚ := fun _ => 0
  deriving DecidableEq

namespace StatOrderFullInfo

/-- The statistics of an order seen for the first time. -/
def ofLite (lite : StatOrderLite) : StatOrderFullInfo where
  accountFlag := lite.accountFlag
  symbol := lite.symbol
  orderSide := lite.orderSide
  clientOrderId := lite.clientOrderId
  averagePrice := lite.averagePrice
  filledSize := lite.filledSize
  commissionRate := lite.commissionRate
  systemTimestamp := lite.systemTimestamp

/-- The fill of an order. -/
def fill (info : StatOrderFullInfo) : ℚ × ℚ := (info.filledSize, info.averagePrice)

/-- A later fill. -/
def withFill (lite : StatOrderLite) (info : StatOrderFullInfo) : StatOrderFullInfo :=
  { info with filledSize := lite.filledSize, averagePrice := lite.averagePrice }

/-- Too old to be written back. -/
def expired (info : StatOrderFullInfo) (now : ℕ) : Bool :=
  decide (u64 (info.systemTimestamp + 3600) < now)

/-- Old enough to be evicted. -/
def removable (info : StatOrderFullInfo) (now : ℕ) : Bool :=
  decide (u64 (info.systemTimestamp + 3600 + 10) < now)

end StatOrderFullInfo

/-! ## The map -/

/-- The statistics by client order id. -/
abbrev StatOrderMap := AList fun _ : String => StatOrderFullInfo

namespace StatOrderMap

/-- `update_with_lite`: the fill of a known order is replaced, an unknown one is added. -/
def updateWithLite (lite : StatOrderLite) (m : StatOrderMap) : StatOrderMap :=
  match m.lookup lite.clientOrderId with
  | some original => m.insert lite.clientOrderId (original.withFill lite)
  | none => m.insert lite.clientOrderId (.ofLite lite)

/-- `stat_order_map[info.client_order_id] = info`. -/
def setFullInfo (info : StatOrderFullInfo) (m : StatOrderMap) : StatOrderMap :=
  m.insert info.clientOrderId info

/-- `get_all_stat_orders`. -/
def getAllStatOrders (m : StatOrderMap) : List StatOrderFullInfo := m.entries.map (·.2)

/-- The ids that `remove_expired_stat_order` finds old enough. -/
def removableKeys (now : ℕ) (m : StatOrderMap) : List String :=
  (m.entries.filter fun e => e.2.removable now).map (·.1)

/-- The erasures of `remove_expired_stat_order`. -/
def eraseKeys (keys : List String) (m : StatOrderMap) : StatOrderMap :=
  keys.foldl (fun m key => m.erase key) m

/-- `update_with_full_info` at a clock reading: an expired record is ignored. -/
def updateWithFullInfo (info : StatOrderFullInfo) (now : ℕ) (m : StatOrderMap) : StatOrderMap :=
  if info.expired now then m else m.setFullInfo info

/-- The map that the rows of the database leave, each at its clock reading. -/
def loadStatOrders (rows : List (StatOrderFullInfo × ℕ)) : StatOrderMap :=
  rows.foldl (fun m row => m.updateWithFullInfo row.1 row.2) ∅

/-- Every order is kept under its own id. -/
def Keyed (m : StatOrderMap) : Prop :=
  ∀ id info, m.lookup id = some info → info.clientOrderId = id

theorem lookup_updateWithLite (lite : StatOrderLite) (m : StatOrderMap) (id : String) :
    (m.updateWithLite lite).lookup id =
      if id = lite.clientOrderId then some (((m.lookup id).getD (.ofLite lite)).withFill lite)
      else m.lookup id := by
  unfold updateWithLite
  split_ifs with h
  · subst h
    cases m.lookup lite.clientOrderId with
    | some original => exact AList.lookup_insert m
    | none => exact AList.lookup_insert m
  · cases m.lookup lite.clientOrderId <;> exact AList.lookup_insert_ne h

theorem lookup_setFullInfo (info : StatOrderFullInfo) (m : StatOrderMap) (id : String) :
    (m.setFullInfo info).lookup id =
      if id = info.clientOrderId then some info else m.lookup id := by
  unfold setFullInfo
  split_ifs with h
  · rw [h, AList.lookup_insert]
  · exact AList.lookup_insert_ne h

/-- What is left after erasures was there before. -/
theorem lookup_of_eraseKeys {keys : List String} {m : StatOrderMap} {id : String}
    {info : StatOrderFullInfo} (h : (m.eraseKeys keys).lookup id = some info) :
    m.lookup id = some info := by
  induction keys generalizing m with
  | nil => exact h
  | cons key keys ih =>
    have hrest : (m.erase key).lookup id = some info := ih h
    by_cases hkey : id = key
    · subst hkey
      simp at hrest
    · rwa [AList.lookup_erase_ne hkey] at hrest

/-- A record of the list is the one under its id. -/
theorem Keyed.lookup_of_mem {m : StatOrderMap} (hm : m.Keyed) {info : StatOrderFullInfo}
    (h : info ∈ m.getAllStatOrders) : m.lookup info.clientOrderId = some info := by
  obtain ⟨⟨id, info'⟩, hmem, rfl⟩ := List.mem_map.mp h
  have hlookup : m.lookup id = some info' := AList.mem_lookup_iff.mpr hmem
  rwa [hm id info' hlookup]

/-- The list holds every order once. -/
theorem Keyed.nodup {m : StatOrderMap} (hm : m.Keyed) :
    (m.getAllStatOrders.map (·.clientOrderId)).Nodup := by
  have hkeys : m.getAllStatOrders.map (·.clientOrderId) = m.keys := by
    rw [getAllStatOrders, List.map_map]
    refine List.map_congr_left fun e he => ?_
    exact hm e.1 e.2 (AList.mem_lookup_iff.mpr he)
  rw [hkeys]
  exact m.keys_nodup

theorem Keyed.empty : (∅ : StatOrderMap).Keyed := by
  intro id info h
  simp at h

theorem Keyed.setFullInfo {m : StatOrderMap} (hm : m.Keyed) (info : StatOrderFullInfo) :
    (m.setFullInfo info).Keyed := by
  intro id info' h
  rw [lookup_setFullInfo] at h
  split_ifs at h with hid
  · rw [← Option.some.inj h, hid]
  · exact hm id info' h

theorem Keyed.updateWithLite {m : StatOrderMap} (hm : m.Keyed) (lite : StatOrderLite) :
    (m.updateWithLite lite).Keyed := by
  intro id info h
  rw [lookup_updateWithLite] at h
  split_ifs at h with hid
  · obtain rfl := Option.some.inj h
    cases hlookup : m.lookup id with
    | none => exact hid.symm
    | some original => exact hm id original hlookup
  · exact hm id info h

theorem Keyed.eraseKeys {m : StatOrderMap} (hm : m.Keyed) (keys : List String) :
    (m.eraseKeys keys).Keyed :=
  fun id info h => hm id info (lookup_of_eraseKeys h)

theorem Keyed.updateWithFullInfo {m : StatOrderMap} (hm : m.Keyed) (info : StatOrderFullInfo)
    (now : ℕ) : (m.updateWithFullInfo info now).Keyed := by
  unfold StatOrderMap.updateWithFullInfo
  split_ifs
  · exact hm
  · exact hm.setFullInfo info

/-- The rows of the database are kept under their own ids. -/
theorem keyed_loadStatOrders (rows : List (StatOrderFullInfo × ℕ)) :
    (loadStatOrders rows).Keyed := by
  suffices H : ∀ m : StatOrderMap, m.Keyed →
      (rows.foldl (fun m row => m.updateWithFullInfo row.1 row.2) m).Keyed from H ∅ .empty
  induction rows with
  | nil => exact fun m hm => hm
  | cons row rows ih => exact fun m hm => ih _ (hm.updateWithFullInfo row.1 row.2)

end StatOrderMap

end UmTaker.Evaluator
