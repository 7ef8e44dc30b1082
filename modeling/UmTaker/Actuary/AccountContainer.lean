import UmTaker.Actuary.AccountProcessor
import UmTaker.General.KnownKeys

/-!
# The account container

The four account stores behind one object: meta data, balances, positions and thresholds. Each kind
of record is copied field by field on its way in and again on its way out.

## Main definitions

* `FuturesAccount`, `FuturesAccountAsset`: the meta data and a balance of a REST response
* `AccountBalancePositionComposite`: the stores, with `update` for the four ways to update them
* `view`: the stores as one store of known keys
* `Carries`, `Lossless`: a copy has every value of an update, and does so after a run

## Main results

* `update_refines`: the four stores are one store of known keys
* `carries_of_ne_threshold`: meta data, balances and positions come back as they were given
* `lossless_iff`: the stores are lossless exactly while the last threshold of each instrument has
  nothing but a ratio and a notional
-/

namespace UmTaker.Actuary

open KeyedTable (lastSave)
open KnownKeys

/-! ## Updates and copies -/

/-- The meta data of a REST account response. -/
structure FuturesAccount where
  multiAssetsMargin : Bool
  totalInitialMargin : ℚ
  totalMaintMargin : ℚ
  totalWalletBalance : ℚ
  totalUnrealizedProfit : ℚ
  totalCrossWalletBalance : ℚ
  totalCrossUnPnl : ℚ

/-- A balance in a REST account response. -/
structure FuturesAccountAsset where
  asset : String
  walletBalance : ℚ
  crossWalletBalance : ℚ
  crossUnPnl : ℚ

/-- `update_meta`: the meta data, stamped with the local clock. -/
def updateMeta (account : FuturesAccount) (now : ℕ) : AccountMetaInfo × Bool :=
  ({ multiAssetsMargin := account.multiAssetsMargin
     totalInitialMargin := account.totalInitialMargin
     totalMaintMargin := account.totalMaintMargin
     totalWalletBalance := account.totalWalletBalance
     totalUnrealizedProfit := account.totalUnrealizedProfit
     totalCrossWalletBalance := account.totalCrossWalletBalance
     totalCrossUnPnl := account.totalCrossUnPnl
     updateTimeMillis := now }, true)

/-- Every asset starts with an empty balance record. -/
def initBalances (assets : List String) : StringMap AccountBalanceInfo :=
  assets.foldl (fun m asset => m.insert asset {}) .empty

/-- The balance record of a response. -/
def FuturesAccountAsset.item (balance : FuturesAccountAsset) (now : ℕ) : AccountBalanceInfo where
  asset := balance.asset
  walletBalance := balance.walletBalance
  crossWalletBalance := balance.crossWalletBalance
  crossUnPnl := balance.crossUnPnl
  updateTimeMillis := now

/-- `update_exist_balance`: the balance, stamped with the local clock. -/
def updateExistBalance (m : StringMap AccountBalanceInfo) (balance : FuturesAccountAsset)
    (now : ℕ) : StringMap AccountBalanceInfo × Bool :=
  match m balance.asset with
  | some _ => (m.set balance.asset (balance.item now), true)
  | none => (m, false)

/-- `copy_meta`: every field of the meta data. -/
def copyMeta (accountMeta : AccountMetaInfo) : AccountMetaInfo where
  multiAssetsMargin := accountMeta.multiAssetsMargin
  totalInitialMargin := accountMeta.totalInitialMargin
  totalMaintMargin := accountMeta.totalMaintMargin
  totalWalletBalance := accountMeta.totalWalletBalance
  totalUnrealizedProfit := accountMeta.totalUnrealizedProfit
  totalCrossWalletBalance := accountMeta.totalCrossWalletBalance
  totalCrossUnPnl := accountMeta.totalCrossUnPnl
  updateTimeMillis := accountMeta.updateTimeMillis

/-- `copy_balance`: every field of the record, or nothing for an unknown asset. -/
def copyBalance (m : StringMap AccountBalanceInfo) (asset : String) : Option AccountBalanceInfo :=
  (m asset).map fun item =>
    { asset := item.asset
      walletBalance := item.walletBalance
      crossWalletBalance := item.crossWalletBalance
      crossUnPnl := item.crossUnPnl
      updateTimeMillis := item.updateTimeMillis }

/-- `copy_position_threshold`: symbol, ratio, notional and time of the record, or nothing for an
unknown instrument. -/
def copyPositionThreshold (m : StringMap PositionThresholdInfo) (instId : String) :
    Option PositionThresholdInfo :=
  (m instId).map fun item =>
    -- the side is in the store, and is not copied
    { symbol := item.symbol
      positionReduceRatio := item.positionReduceRatio
      totalNotional := item.totalNotional
      updateTimeMillis := item.updateTimeMillis }

@[simp] theorem copyBalance_eq (m : StringMap AccountBalanceInfo) (asset : String) :
    copyBalance m asset = m asset := by
  cases h : m asset <;> simp [copyBalance, h]

/-! ## The container -/

/-- The four stores. -/
structure AccountBalancePositionComposite where
  accountMeta : AccountMetaInfo
  balances : StringMap AccountBalanceInfo
  positions : StringMap AccountPositionInfo
  thresholds : StringMap PositionThresholdInfo

/-- A call of one of the four functions that update the stores; `now` is the local clock. -/
inductive AccountUpdate
  | updateMeta (account : FuturesAccount) (now : ℕ)
  | updateBalance (balance : FuturesAccountAsset) (now : ℕ)
  | updatePosition (position : FuturesAccountPosition)
  | updateThreshold (threshold : PositionThresholdInfo)

/-- What an update is for. -/
inductive AccountKey
  | accountMeta
  | balance (asset : String)
  | position (instId : String)
  | threshold (instId : String)
  deriving DecidableEq

/-- The key of an update. -/
def AccountUpdate.key : AccountUpdate → AccountKey
  | .updateMeta _ _ => .accountMeta
  | .updateBalance balance _ => .balance balance.asset
  | .updatePosition position => .position position.symbol
  | .updateThreshold threshold => .threshold threshold.symbol

/-- The key is one of the initial sets; that of the meta data always is. -/
def AccountKey.Initial (assets instIds : List String) : AccountKey → Prop
  | .accountMeta => True
  | .balance asset => asset ∈ assets
  | .position instId => instId ∈ instIds
  | .threshold instId => instId ∈ instIds

namespace AccountBalancePositionComposite

/-- `init`, of a new container; the flag of its meta data has no initial value. -/
def init (multiAssetsMargin : Bool) (assets instIds : List String) :
    AccountBalancePositionComposite where
  accountMeta := { multiAssetsMargin := multiAssetsMargin }
  balances := initBalances assets
  positions := initPositions instIds
  thresholds := initPositionThresholds instIds

/-- The container after an update, and what the update returns. -/
def update (s : AccountBalancePositionComposite) :
    AccountUpdate → AccountBalancePositionComposite × Bool
  | .updateMeta account now =>
    let result := Actuary.updateMeta account now
    ({ s with accountMeta := result.1 }, result.2)
  | .updateBalance balance now =>
    let result := updateExistBalance s.balances balance now
    ({ s with balances := result.1 }, result.2)
  | .updatePosition position =>
    let result := updateExistPosition s.positions position
    ({ s with positions := result.1 }, result.2)
  | .updateThreshold threshold =>
    let result := updateExistPositionThreshold s.thresholds threshold
    ({ s with thresholds := result.1 }, result.2)

/-- The container after a run of updates. -/
def afterUpdates (s : AccountBalancePositionComposite) (us : List AccountUpdate) :
    AccountBalancePositionComposite := Run.after (next update) s us

end AccountBalancePositionComposite

/-! ## What a copy has to carry -/

/-- The meta data have every value of the response, except for the stamp. -/
structure AccountMetaInfo.Carries (item : AccountMetaInfo) (account : FuturesAccount) : Prop where
  multiAssetsMargin : item.multiAssetsMargin = account.multiAssetsMargin
  totalInitialMargin : item.totalInitialMargin = account.totalInitialMargin
  totalMaintMargin : item.totalMaintMargin = account.totalMaintMargin
  totalWalletBalance : item.totalWalletBalance = account.totalWalletBalance
  totalUnrealizedProfit : item.totalUnrealizedProfit = account.totalUnrealizedProfit
  totalCrossWalletBalance : item.totalCrossWalletBalance = account.totalCrossWalletBalance
  totalCrossUnPnl : item.totalCrossUnPnl = account.totalCrossUnPnl

/-- The balance has every value of the response, except for the stamp. -/
structure AccountBalanceInfo.Carries (item : AccountBalanceInfo) (balance : FuturesAccountAsset) :
    Prop where
  asset : item.asset = balance.asset
  walletBalance : item.walletBalance = balance.walletBalance
  crossWalletBalance : item.crossWalletBalance = balance.crossWalletBalance
  crossUnPnl : item.crossUnPnl = balance.crossUnPnl

/-- The position has every value of the response, the absolute amount, and for the side `BOTH` that
of an amount that is not zero. -/
structure AccountPositionInfo.Carries (item : AccountPositionInfo)
    (position : FuturesAccountPosition) : Prop where
  symbol : item.symbol = position.symbol
  initialMargin : item.initialMargin = position.initialMargin
  maintMargin : item.maintMargin = position.maintMargin
  unrealizedProfit : item.unrealizedProfit = position.unrealizedProfit
  entryPrice : item.entryPrice = position.entryPrice
  positionSide : position.positionSide ≠ .both ∨ position.positionAmt = 0 →
    item.positionSide = position.positionSide
  long : position.positionSide = .both → 0 < position.positionAmt → item.positionSide = .long
  short : position.positionSide = .both → position.positionAmt < 0 → item.positionSide = .short
  positionAmount : item.positionAmount = position.positionAmt
  positionAmountAbs : item.positionAmountAbs = |position.positionAmt|
  updateTimeMillis : item.updateTimeMillis = position.updateTime

namespace AccountBalancePositionComposite

/-- The copy for the key of an update has the values of the update. -/
def Carries (s : AccountBalancePositionComposite) : AccountUpdate → Prop
  | .updateMeta account _ => (copyMeta s.accountMeta).Carries account
  | .updateBalance balance _ =>
    ∃ item, copyBalance s.balances balance.asset = some item ∧ item.Carries balance
  | .updatePosition position =>
    ∃ item, copyPosition s.positions position.symbol = some item ∧ item.Carries position
  | .updateThreshold threshold =>
    copyPositionThreshold s.thresholds threshold.symbol = some threshold

/-- Every copy carries the last accepted update for its key; an update is accepted if its key is in
the initial sets, and changes nothing if it is not. -/
structure Lossless (multiAssetsMargin : Bool) (assets instIds : List String)
    (us : List AccountUpdate) : Prop where
  carries : ∀ key u,
    lastSave AccountUpdate.key key (accepted update (init multiAssetsMargin assets instIds) us) =
      some u → ((init multiAssetsMargin assets instIds).afterUpdates us).Carries u
  accepts : ∀ before u, before ++ [u] <+: us → u.key.Initial assets instIds →
    (((init multiAssetsMargin assets instIds).afterUpdates before).update u).2 = true
  rejects : ∀ before u, before ++ [u] <+: us → ¬ u.key.Initial assets instIds →
    ((init multiAssetsMargin assets instIds).afterUpdates before).update u =
      ((init multiAssetsMargin assets instIds).afterUpdates before, false)

end AccountBalancePositionComposite

/-! ## One store of known keys -/

/-- The position record of a response. -/
def FuturesAccountPosition.item (position : FuturesAccountPosition) : AccountPositionInfo where
  symbol := position.symbol
  initialMargin := position.initialMargin
  maintMargin := position.maintMargin
  unrealizedProfit := position.unrealizedProfit
  entryPrice := position.entryPrice
  positionSide := storedSide position.positionSide position.positionAmt
  positionAmount := position.positionAmt
  positionAmountAbs := |position.positionAmt|
  updateTimeMillis := position.updateTime

/-- The threshold record that is stored: symbol, side, ratio, notional and time. -/
def PositionThresholdInfo.item (threshold : PositionThresholdInfo) : PositionThresholdInfo where
  symbol := threshold.symbol
  positionSide := threshold.positionSide
  positionReduceRatio := threshold.positionReduceRatio
  totalNotional := threshold.totalNotional
  updateTimeMillis := threshold.updateTimeMillis

theorem updateExistBalance_eq (m : StringMap AccountBalanceInfo) (balance : FuturesAccountAsset)
    (now : ℕ) : updateExistBalance m balance now = offer m balance.asset (balance.item now) := by
  cases h : m balance.asset <;> simp [updateExistBalance, offer, StringMap.set, h]

theorem updateExistPosition_eq (m : StringMap AccountPositionInfo)
    (position : FuturesAccountPosition) :
    updateExistPosition m position = offer m position.symbol position.item := by
  cases h : m position.symbol <;>
    simp [updateExistPosition, offer, StringMap.set, FuturesAccountPosition.item, h]

theorem updateExistPositionThreshold_eq (m : StringMap PositionThresholdInfo)
    (threshold : PositionThresholdInfo) :
    updateExistPositionThreshold m threshold = offer m threshold.symbol threshold.item := by
  cases h : m threshold.symbol <;>
    simp [updateExistPositionThreshold, offer, StringMap.set, PositionThresholdInfo.item, h]

/-- A record of one of the four stores. -/
inductive AccountRecord
  | accountMeta (item : AccountMetaInfo)
  | balance (item : AccountBalanceInfo)
  | position (item : AccountPositionInfo)
  | threshold (item : PositionThresholdInfo)

/-- The record an update stores. -/
def AccountUpdate.record : AccountUpdate → AccountRecord
  | .updateMeta account now => .accountMeta (Actuary.updateMeta account now).1
  | .updateBalance balance now => .balance (balance.item now)
  | .updatePosition position => .position position.item
  | .updateThreshold threshold => .threshold threshold.item

namespace AccountBalancePositionComposite

/-- The records of the four stores. -/
def view (s : AccountBalancePositionComposite) : AccountKey → Option AccountRecord
  | .accountMeta => some (.accountMeta s.accountMeta)
  | .balance asset => (s.balances asset).map .balance
  | .position instId => (s.positions instId).map .position
  | .threshold instId => (s.thresholds instId).map .threshold

/-- **The four stores are one store of known keys.** -/
theorem update_refines :
    Refines update view AccountUpdate.key AccountUpdate.record := by
  intro s u
  cases u with
  | updateMeta account now =>
    refine (offer_of_known rfl).trans (Prod.ext (funext fun key => ?_) rfl)
    cases key <;> rfl
  | updateBalance balance now =>
    -- the balances are the part behind their keys, and the other keys keep their records
    simp only [update, updateExistBalance_eq]
    refine offer_part s.balances AccountRecord.balance (fun _ _ => AccountKey.balance.inj)
      (fun _ => rfl) (fun _ => rfl) ?_
    intro key hkey
    cases key with
    | balance asset => exact absurd rfl (hkey asset)
    | accountMeta | position | threshold => rfl
  | updatePosition position =>
    simp only [update, updateExistPosition_eq]
    refine offer_part s.positions AccountRecord.position (fun _ _ => AccountKey.position.inj)
      (fun _ => rfl) (fun _ => rfl) ?_
    intro key hkey
    cases key with
    | position instId => exact absurd rfl (hkey instId)
    | accountMeta | balance | threshold => rfl
  | updateThreshold threshold =>
    simp only [update, updateExistPositionThreshold_eq]
    refine offer_part s.thresholds AccountRecord.threshold (fun _ _ => AccountKey.threshold.inj)
      (fun _ => rfl) (fun _ => rfl) ?_
    intro key hkey
    cases key with
    | threshold instId => exact absurd rfl (hkey instId)
    | accountMeta | balance | position => rfl

/-- An update for an unknown key is refused and leaves the stores as they are. -/
theorem update_of_unknown {s : AccountBalancePositionComposite} {u : AccountUpdate}
    (h : s.view u.key = none) : s.update u = (s, false) := by
  cases u with
  | updateMeta account now => cases h
  | updateBalance balance now =>
    have hbalance : s.balances balance.asset = none := Option.map_eq_none_iff.mp h
    simp only [update, updateExistBalance_eq, offer_of_unknown hbalance]
  | updatePosition position =>
    have hposition : s.positions position.symbol = none := Option.map_eq_none_iff.mp h
    simp only [update, updateExistPosition_eq, offer_of_unknown hposition]
  | updateThreshold threshold =>
    have hthreshold : s.thresholds threshold.symbol = none := Option.map_eq_none_iff.mp h
    simp only [update, updateExistPositionThreshold_eq, offer_of_unknown hthreshold]

/-- The keys known are those of the initial sets. -/
theorem isSome_view_init (multiAssetsMargin : Bool) (assets instIds : List String)
    (key : AccountKey) :
    ((init multiAssetsMargin assets instIds).view key).isSome ↔ key.Initial assets instIds := by
  cases key with
  | accountMeta => exact ⟨fun _ => trivial, fun _ => rfl⟩
  | balance asset =>
    rw [view, Option.isSome_map]
    exact isSome_init assets asset
  | position instId =>
    rw [view, Option.isSome_map]
    exact isSome_init instIds instId
  | threshold instId =>
    rw [view, Option.isSome_map]
    exact isSome_init instIds instId

end AccountBalancePositionComposite

/-! ## What comes back -/

/-- The threshold has nothing but a ratio and a notional. -/
structure PositionThresholdInfo.Plain (threshold : PositionThresholdInfo) : Prop where
  positionSide : threshold.positionSide = .unset
  positionReduceRatioV1 : threshold.positionReduceRatioV1 = 0
  positionFullRate : threshold.positionFullRate = 0
  reachMaxPosition : threshold.reachMaxPosition = false

theorem FuturesAccountPosition.carries_item (position : FuturesAccountPosition) :
    position.item.Carries position where
  symbol := rfl
  initialMargin := rfl
  maintMargin := rfl
  unrealizedProfit := rfl
  entryPrice := rfl
  positionSide h := by
    show storedSide position.positionSide position.positionAmt = position.positionSide
    unfold storedSide
    rcases h with hside | hamount
    · exact if_neg hside
    · split_ifs with hside hneg hpos
      · exact absurd hamount hneg.ne
      · exact absurd hamount hpos.ne'
      · exact hside.symm
      · rfl
  long hside hamount := by
    show storedSide position.positionSide position.positionAmt = .long
    rw [hside]
    exact (storedSide_both_eq_long _).mpr hamount
  short hside hamount := by
    show storedSide position.positionSide position.positionAmt = .short
    rw [hside]
    exact (storedSide_both_eq_short _).mpr hamount
  positionAmount := rfl
  positionAmountAbs := rfl
  updateTimeMillis := rfl

namespace AccountBalancePositionComposite

variable {s : AccountBalancePositionComposite} {u : AccountUpdate}

/-- **Meta data, balances and positions** come back as they were given. -/
theorem carries_of_ne_threshold (h : s.view u.key = some u.record)
    (hu : ∀ threshold, u ≠ .updateThreshold threshold) : s.Carries u := by
  cases u with
  | updateMeta account now =>
    have hmeta : s.accountMeta = (Actuary.updateMeta account now).1 :=
      AccountRecord.accountMeta.inj (Option.some.inj h)
    show (copyMeta s.accountMeta).Carries account
    rw [hmeta]
    exact ⟨rfl, rfl, rfl, rfl, rfl, rfl, rfl⟩
  | updateBalance balance now =>
    obtain ⟨item, hitem, hrecord⟩ := Option.map_eq_some_iff.mp h
    obtain rfl := AccountRecord.balance.inj hrecord
    exact ⟨balance.item now, (copyBalance_eq _ _).trans hitem, rfl, rfl, rfl, rfl⟩
  | updatePosition position =>
    obtain ⟨item, hitem, hrecord⟩ := Option.map_eq_some_iff.mp h
    obtain rfl := AccountRecord.position.inj hrecord
    exact ⟨position.item, (copyPosition_eq _ _).trans hitem, position.carries_item⟩
  | updateThreshold threshold => exact absurd rfl (hu threshold)

/-- **A threshold** comes back as it was given if it has nothing but a ratio and a notional. -/
theorem carries_threshold_iff {threshold : PositionThresholdInfo}
    (h : s.view (.threshold threshold.symbol) = some (.threshold threshold.item)) :
    s.Carries (.updateThreshold threshold) ↔ threshold.Plain := by
  obtain ⟨item, hitem, hrecord⟩ := Option.map_eq_some_iff.mp h
  obtain rfl := AccountRecord.threshold.inj hrecord
  show copyPositionThreshold s.thresholds threshold.symbol = some threshold ↔ threshold.Plain
  rw [copyPositionThreshold, hitem, Option.map_some, Option.some_inj]
  cases threshold with
  | mk symbol positionSide ratioV1 ratio fullRate notional reach now =>
    constructor
    · intro heq
      obtain ⟨-, hside, hratioV1, -, hfullRate, -, hreach, -⟩ :=
        PositionThresholdInfo.mk.inj heq
      exact ⟨hside.symm, hratioV1.symm, hfullRate.symm, hreach.symm⟩
    · rintro ⟨rfl, rfl, rfl, rfl⟩
      rfl

/-- After a run the last accepted update for a key is what its store holds. -/
theorem view_afterUpdates {us : List AccountUpdate} {key : AccountKey}
    (hu : lastSave AccountUpdate.key key (accepted update s us) = some u) :
    (s.afterUpdates us).view u.key = some u.record :=
  update_refines.view_of_lastAccepted hu

/-- The keys known after a run are those of the initial sets. -/
theorem isSome_view_afterUpdates (multiAssetsMargin : Bool) (assets instIds : List String)
    (us : List AccountUpdate) (key : AccountKey) :
    (((init multiAssetsMargin assets instIds).afterUpdates us).view key).isSome ↔
      key.Initial assets instIds := by
  rw [afterUpdates, update_refines.isSome_after]
  exact isSome_view_init multiAssetsMargin assets instIds key

/-- The last accepted update for a key of the initial sets is the last update for it. -/
theorem lastSave_accepted_iff (multiAssetsMargin : Bool) (assets instIds : List String)
    (us : List AccountUpdate) (key : AccountKey) :
    lastSave AccountUpdate.key key (accepted update (init multiAssetsMargin assets instIds) us) =
        some u ↔ key.Initial assets instIds ∧ lastSave AccountUpdate.key key us = some u := by
  rw [update_refines.lastSave_accepted, ← isSome_view_init multiAssetsMargin]
  split_ifs with hknown
  · simp [hknown]
  · simp [hknown]

/-- **The stores are lossless** exactly while the last threshold of each instrument has nothing but
a ratio and a notional. -/
theorem lossless_iff (multiAssetsMargin : Bool) (assets instIds : List String)
    (us : List AccountUpdate) :
    Lossless multiAssetsMargin assets instIds us ↔
      ∀ instId ∈ instIds, ∀ threshold, lastSave AccountUpdate.key (.threshold instId) us =
        some (.updateThreshold threshold) → threshold.Plain := by
  constructor
  · intro h instId hinst threshold hlast
    have haccepted := (lastSave_accepted_iff multiAssetsMargin assets instIds us
      (.threshold instId)).mpr ⟨hinst, hlast⟩
    have hcarries := h.carries _ _ haccepted
    exact (carries_threshold_iff (view_afterUpdates haccepted)).mp hcarries
  · intro hplain
    refine ⟨fun key u hu => ?_, fun before u _ hu => ?_, fun before u _ hu => ?_⟩
    · by_cases hthreshold : ∃ threshold, u = .updateThreshold threshold
      · obtain ⟨threshold, rfl⟩ := hthreshold
        apply (carries_threshold_iff (view_afterUpdates hu)).mpr
        obtain rfl : AccountUpdate.key (.updateThreshold threshold) = key :=
          KeyedTable.key_of_lastSave hu
        obtain ⟨hinst, hlast⟩ := (lastSave_accepted_iff _ _ _ _ _).mp hu
        exact hplain threshold.symbol hinst threshold hlast
      · exact carries_of_ne_threshold (view_afterUpdates hu) (not_exists.mp hthreshold)
    · rw [update_refines.accepts]
      exact (isSome_view_afterUpdates _ _ _ before u.key).mpr hu
    · apply update_of_unknown
      rw [← Option.not_isSome_iff_eq_none, isSome_view_afterUpdates]
      exact hu

/-- The side and the rate of a threshold do not come back. -/
theorem lossless_drops_threshold :
    ¬ ∀ (multiAssetsMargin : Bool) (assets instIds : List String) (us : List AccountUpdate),
      Lossless multiAssetsMargin assets instIds us := by
  intro h
  have hcarries := (h true [] ["BTCUSDT"] [.updateThreshold
    { symbol := "BTCUSDT", positionSide := .long, positionFullRate := 1 / 2 }]).carries
      (.threshold "BTCUSDT") _ rfl
  have hside := congrArg (Option.map (·.positionSide)) hcarries
  revert hside
  decide

end AccountBalancePositionComposite

end UmTaker.Actuary
