import UmTaker.Actuary.Config
import Mathlib.Data.List.Induction
import Mathlib.Tactic.Linarith

/-!
# The account stores

What the exchange says of the account: its meta data, its balances, its positions and the
thresholds derived from the positions. The REST poll and the event stream write the same records,
each through its own function; a record for a key that was not initialised is refused.

## Main definitions

* `AccountMetaInfo`, `AccountBalanceInfo`, `AccountPositionInfo`, `PositionThresholdInfo`
* `updateExistPosition`, `updateExistPositionEvent`, `copyPosition`: the position store
* `PositionUpdate`, `positionStore`: updates of the position store from either source
* `AccountPositionInfo.OneWay`: a position record as one-way mode leaves it

## Main results

* `oneWay_of_updates`: one-way updates, from both sources and in any order, leave one-way records
-/

namespace UmTaker.Actuary

/-! ## Records -/

structure AccountMetaInfo where
  multiAssetsMargin : Bool
  totalInitialMargin : ℚ := 0
  totalMaintMargin : ℚ := 0
  totalWalletBalance : ℚ := 0
  totalUnrealizedProfit : ℚ := 0
  totalCrossWalletBalance : ℚ := 0
  totalCrossUnPnl : ℚ := 0
  updateTimeMillis : ℕ := 0

structure AccountBalanceInfo where
  asset : String := ""
  walletBalance : ℚ := 0
  crossWalletBalance : ℚ := 0
  crossUnPnl : ℚ := 0
  updateTimeMillis : ℕ := 0

structure AccountPositionInfo where
  symbol : String := ""
  initialMargin : ℚ := 0
  maintMargin : ℚ := 0
  unrealizedProfit : ℚ := 0
  entryPrice : ℚ := 0
  positionSide : PositionSide := .unset
  positionAmount : ℚ := 0
  positionAmountAbs : ℚ := 0
  updateTimeMillis : ℕ := 0

structure PositionThresholdInfo where
  symbol : String := ""
  positionSide : PositionSide := .unset
  positionReduceRatioV1 : ℚ := 0
  positionReduceRatio : ℚ := 0
  positionFullRate : ℚ := 0
  totalNotional : ℚ := 0
  reachMaxPosition : Bool := false
  updateTimeMillis : ℕ := 0

/-- A position in a REST account response. -/
structure FuturesAccountPosition where
  symbol : String
  initialMargin : ℚ
  maintMargin : ℚ
  unrealizedProfit : ℚ
  entryPrice : ℚ
  positionSide : PositionSide
  positionAmt : ℚ
  updateTime : ℕ

/-- A position in a websocket account update. -/
structure WsFuturesAccountUpdatePositionEvent where
  symbol : String
  unrealizedPnL : ℚ
  entryPrice : ℚ
  positionSide : PositionSide
  positionAmout : ℚ

/-! ## The position store -/

/-- The side stored for a position: in one-way mode it is that of the signed amount. -/
def storedSide (side : PositionSide) (amount : ℚ) : PositionSide :=
  if side = .both then
    if amount < 0 then .short else if 0 < amount then .long else .both
  else side

/-- Every instrument starts with an empty position record. -/
def initPositions (instIds : List String) : StringMap AccountPositionInfo :=
  instIds.foldl (fun m inst => m.insert inst {}) .empty

/-- A map of empty records has those of its keys. -/
theorem isSome_init {V : Type} {v : V} (keys : List String) (key : String) :
    (keys.foldl (fun m k => StringMap.insert m k v) .empty key).isSome ↔ key ∈ keys := by
  have hmap := StringMap.foldl_insert_apply id v keys key
  rw [List.map_id] at hmap
  rw [show keys.foldl (fun m k => StringMap.insert m k v) .empty key = _ from hmap]
  split_ifs with hkey <;> simp [hkey]

/-- `update_exist_position`: the record of a REST response. -/
def updateExistPosition (m : StringMap AccountPositionInfo) (position : FuturesAccountPosition) :
    StringMap AccountPositionInfo × Bool :=
  match m position.symbol with
  | some _ =>
    (m.set position.symbol
      { symbol := position.symbol
        initialMargin := position.initialMargin
        maintMargin := position.maintMargin
        unrealizedProfit := position.unrealizedProfit
        entryPrice := position.entryPrice
        positionSide := storedSide position.positionSide position.positionAmt
        positionAmount := position.positionAmt
        positionAmountAbs := |position.positionAmt|
        updateTimeMillis := position.updateTime }, true)
  | none => (m, false)

/-- `update_exist_position_event`: the record of a websocket event, stamped with the local
clock. -/
def updateExistPositionEvent (m : StringMap AccountPositionInfo)
    (event : WsFuturesAccountUpdatePositionEvent) (now : ℕ) :
    StringMap AccountPositionInfo × Bool :=
  match m event.symbol with
  | some _ =>
    (m.set event.symbol
      { symbol := event.symbol
        unrealizedProfit := event.unrealizedPnL
        entryPrice := event.entryPrice
        positionSide := storedSide event.positionSide event.positionAmout
        positionAmount := event.positionAmout
        positionAmountAbs := |event.positionAmout|
        updateTimeMillis := now }, true)
  | none => (m, false)

/-- `copy_position`: every field of the record, or nothing for an unknown instrument. -/
def copyPosition (m : StringMap AccountPositionInfo) (instId : String) :
    Option AccountPositionInfo :=
  (m instId).map fun item =>
    { symbol := item.symbol
      initialMargin := item.initialMargin
      maintMargin := item.maintMargin
      unrealizedProfit := item.unrealizedProfit
      entryPrice := item.entryPrice
      positionSide := item.positionSide
      positionAmount := item.positionAmount
      positionAmountAbs := item.positionAmountAbs
      updateTimeMillis := item.updateTimeMillis }

@[simp] theorem copyPosition_eq (m : StringMap AccountPositionInfo) (instId : String) :
    copyPosition m instId = m instId := by
  cases h : m instId <;> simp [copyPosition, h]

/-- An update of the position store, from the REST poll or from the event stream. -/
inductive PositionUpdate
  | rest (position : FuturesAccountPosition)
  | event (e : WsFuturesAccountUpdatePositionEvent) (now : ℕ)

/-- The position side an update carries. -/
def PositionUpdate.positionSide : PositionUpdate → PositionSide
  | .rest position => position.positionSide
  | .event e _ => e.positionSide

/-- The store after an update. -/
def applyPosition (m : StringMap AccountPositionInfo) :
    PositionUpdate → StringMap AccountPositionInfo
  | .rest position => (updateExistPosition m position).1
  | .event e now => (updateExistPositionEvent m e now).1

/-- The store after a run of updates. -/
def positionStore (instIds : List String) (updates : List PositionUpdate) :
    StringMap AccountPositionInfo :=
  updates.foldl applyPosition (initPositions instIds)

/-! ## One-way positions -/

/-- A position record as one-way mode leaves it: its side is that of the signed amount, and a flat
position has no side. -/
structure AccountPositionInfo.OneWay (p : AccountPositionInfo) : Prop where
  abs : p.positionAmountAbs = |p.positionAmount|
  long_iff : p.positionSide = .long ↔ 0 < p.positionAmount
  short_iff : p.positionSide = .short ↔ p.positionAmount < 0

theorem storedSide_both_eq_long (amount : ℚ) : storedSide .both amount = .long ↔ 0 < amount := by
  unfold storedSide
  split_ifs with h h₁ h₂
  · simp [h₁.le]
  · simp [h₂]
  · simp [h₂]
  · exact absurd rfl h

theorem storedSide_both_eq_short (amount : ℚ) : storedSide .both amount = .short ↔ amount < 0 := by
  unfold storedSide
  split_ifs with h h₁ h₂
  · simp [h₁]
  · simp [h₂.le]
  · simp [h₁]
  · exact absurd rfl h

/-- An empty record is flat. -/
theorem AccountPositionInfo.oneWay_empty : AccountPositionInfo.OneWay {} :=
  ⟨by simp, by simp, by simp⟩

/-- Every record of the store is one-way. -/
def OneWayStore (m : StringMap AccountPositionInfo) : Prop :=
  ∀ instId p, m instId = some p → p.OneWay

theorem oneWayStore_init (instIds : List String) : OneWayStore (initPositions instIds) := by
  -- the loop adds empty records to whatever one-way store it has reached
  suffices h : ∀ m, OneWayStore m →
      OneWayStore (instIds.foldl (fun m inst => m.insert inst {}) m) from
    h _ fun _ _ h => by cases h
  induction instIds with
  | nil => exact fun _ h => h
  | cons inst rest ih =>
    refine fun m hm => ih _ fun instId p h => ?_
    simp only [StringMap.insert_apply] at h
    split_ifs at h with he
    · cases hi : m inst with
      | none =>
        obtain rfl : ({} : AccountPositionInfo) = p := by simpa [hi] using h
        exact AccountPositionInfo.oneWay_empty
      | some q =>
        obtain rfl : q = p := by simpa [hi] using h
        exact hm inst q hi
    · exact hm instId p h

/-- Storing a one-way record keeps the store one-way. -/
theorem OneWayStore.set {m : StringMap AccountPositionInfo} (hm : OneWayStore m) {key : String}
    {p : AccountPositionInfo} (hp : p.OneWay) : OneWayStore (m.set key p) := by
  intro instId q h
  rw [StringMap.set_apply] at h
  split_ifs at h
  · exact Option.some.inj h ▸ hp
  · exact hm instId q h

/-- One one-way update keeps the store one-way. -/
theorem OneWayStore.apply {m : StringMap AccountPositionInfo} (hm : OneWayStore m)
    {u : PositionUpdate} (hu : u.positionSide = .both) : OneWayStore (applyPosition m u) := by
  cases u with
  | rest position =>
    simp only [PositionUpdate.positionSide] at hu
    simp only [applyPosition, updateExistPosition]
    split
    · refine hm.set ⟨rfl, ?_, ?_⟩ <;> simp only [hu]
      · exact storedSide_both_eq_long _
      · exact storedSide_both_eq_short _
    · exact hm
  | event e now =>
    simp only [PositionUpdate.positionSide] at hu
    simp only [applyPosition, updateExistPositionEvent]
    split
    · refine hm.set ⟨rfl, ?_, ?_⟩ <;> simp only [hu]
      · exact storedSide_both_eq_long _
      · exact storedSide_both_eq_short _
    · exact hm

/-- **One-way updates leave one-way records**, in any order and from both sources. -/
theorem oneWay_of_updates (instIds : List String) (updates : List PositionUpdate)
    (h : ∀ u ∈ updates, u.positionSide = .both) :
    OneWayStore (positionStore instIds updates) := by
  induction updates using List.reverseRecOn with
  | nil => exact oneWayStore_init instIds
  | append_singleton us u ih =>
    rw [positionStore, List.foldl_append]
    exact (ih fun v hv => h v (by simp [hv])).apply (h u (by simp))

end UmTaker.Actuary
