import UmTaker.Actuary.StatPublisher
import UmTaker.Common.Basic
import UmTaker.Common.Tools
import UmTaker.General.KeyedTable

/-!
# The order events of the actuary

An event of the user data stream about an order of the strategy is saved into `tb_bnum_order` and
passed on as a record of texts. After a start the recent rows of the table are passed on as well.

## Main definitions

* `TextLibrary`: what the libraries do with texts, and what is relied on of it
* `FuturesOrderTradeUpdateEvent`, `recordsOrder`: an event, and whether it is saved
* `IsStrategyOrder`: the events that are meant to be saved
* `OrderRow`, `orderTable`: a row, and the table after saves
* `orderLite`, `rowLite`: the records made of an event and of a selected row

## Main results

* `recordsOrder_iff`: exactly the events that are meant are saved
* `isStrategyOrder_genClientOrderId`: an order of the strategy is saved unless nothing of it was
  filled
* `find_orderTable`: a row goes back to the first and the last save of its order
-/

namespace UmTaker.Actuary

open KeyedTable

/-! ## Texts -/

/-- What the libraries do with texts: the tests of `strHelper`, how numbers become texts by its
`toString` and in the columns of a select, and how the evaluator reads them. -/
structure TextLibrary where
  startsWith : String → String → Bool
  endsWith : String → String → Bool
  toString : ℚ → String
  column : ℚ → String
  strToDouble : String → ℚ

/-- What is relied on of the tests. -/
structure TextLibrary.Documented (texts : TextLibrary) : Prop where
  startsWith_iff : ∀ str start, texts.startsWith str start = true ↔ start.toList <+: str.toList
  endsWith_iff : ∀ str suffix, texts.endsWith str suffix = true ↔ suffix.toList <:+ str.toList

/-! ## Events -/

/-- The settings that saves and records depend on. -/
structure OrderStatConfig where
  accountFlag : String
  followerQuoteAsset : String
  enableSaveNoVolumeOrder : Bool
  dtGroupMainNode : Bool
  enableLoadOrderToZmq : Bool

/-- The commission rates of a symbol, and whether the last change raised one of them. -/
structure CommissionRate where
  symbol : String
  makerRate : ℚ
  takerRate : ℚ
  rateRaised : Bool := false

/-- `update_commission_rate`. -/
def updateCommissionRate (rate : CommissionRate) (commissionMap : StringMap CommissionRate) :
    StringMap CommissionRate :=
  let rateRaised := match commissionMap rate.symbol with
    | some original =>
      decide (original.makerRate < rate.makerRate ∨ original.takerRate < rate.takerRate)
    | none => false
  commissionMap.set rate.symbol { rate with rateRaised := rateRaised }

/-- An event about an order. -/
structure FuturesOrderTradeUpdateEvent where
  symbol : String
  clientOrderId : String
  id : String
  side : String
  originalOrderType : String
  orderStatus : String
  volume : ℚ
  filledVolume : ℚ
  price : ℚ
  averagePrice : ℚ

/-- The tests that an event passes before it is saved. -/
def recordsOrder (texts : TextLibrary) (config : OrderStatConfig)
    (event : FuturesOrderTradeUpdateEvent) : Bool :=
  if texts.startsWith event.clientOrderId "temp" then false
  else if !texts.startsWith event.clientOrderId "s" &&
      !texts.startsWith event.clientOrderId "b" then
    false
  else if !texts.endsWith event.symbol config.followerQuoteAsset then false
  else if !config.enableSaveNoVolumeOrder && event.filledVolume == 0 then false
  else config.dtGroupMainNode

/-- The event is about an order of the strategy: its id begins as those of the strategy do and not
as those of test orders, its symbol ends as those of the follower do, and something of it was filled
or such orders are saved as well; and this is the main node. -/
structure IsStrategyOrder (config : OrderStatConfig) (event : FuturesOrderTradeUpdateEvent) :
    Prop where
  notTest : ¬ "temp".toList <+: event.clientOrderId.toList
  side : "s".toList <+: event.clientOrderId.toList ∨ "b".toList <+: event.clientOrderId.toList
  quote : config.followerQuoteAsset.toList <:+ event.symbol.toList
  filled : config.enableSaveNoVolumeOrder = true ∨ event.filledVolume ≠ 0
  mainNode : config.dtGroupMainNode = true

/-- **An event is saved** exactly when it is about an order of the strategy. -/
theorem recordsOrder_iff {texts : TextLibrary} (htexts : texts.Documented)
    {config : OrderStatConfig} {event : FuturesOrderTradeUpdateEvent} :
    recordsOrder texts config event = true ↔ IsStrategyOrder config event := by
  have hstart := fun start => htexts.startsWith_iff event.clientOrderId start
  have hend := htexts.endsWith_iff event.symbol config.followerQuoteAsset
  have hfilled : (!config.enableSaveNoVolumeOrder && event.filledVolume == 0) = true ↔
      ¬ (config.enableSaveNoVolumeOrder = true ∨ event.filledVolume ≠ 0) := by
    cases config.enableSaveNoVolumeOrder <;> simp
  unfold recordsOrder
  constructor
  · intro h
    split_ifs at h with htest hside hquote hvolume
    refine ⟨fun hpre => htest ((hstart _).mpr hpre), ?_, ?_, ?_, h⟩
    · rw [← hstart, ← hstart]
      simpa [or_iff_not_imp_left] using hside
    · rw [← hend]
      simpa using hquote
    · exact not_not.mp (mt hfilled.mpr hvolume)
  · intro h
    have htest : ¬ texts.startsWith event.clientOrderId "temp" = true := by
      rw [hstart]
      exact h.notTest
    have hside := h.side
    rw [← hstart, ← hstart] at hside
    rw [if_neg htest, if_neg (by simpa [or_iff_not_imp_left] using hside),
      if_neg (by simpa using hend.mpr h.quote), if_neg (mt hfilled.mp (not_not.mpr h.filled))]
    exact h.mainNode

/-- **An order that the strategy named** is meant to be saved by the main node, unless nothing of it
was filled and such orders are not saved. -/
theorem isStrategyOrder_genClientOrderId {config : OrderStatConfig}
    {event : FuturesOrderTradeUpdateEvent} {isBuySide adjustedPrice isClosePosition : Bool}
    {tickerDelayMillis : ℤ} {now : ℕ} {baseAsset orderDelay : String}
    (hid : event.clientOrderId =
      genClientOrderId isBuySide adjustedPrice tickerDelayMillis isClosePosition now ++ "_" ++
        orderDelay)
    (hsymbol : event.symbol = baseAsset ++ config.followerQuoteAsset) :
    IsStrategyOrder config event ↔
      config.dtGroupMainNode = true ∧
        (config.enableSaveNoVolumeOrder = true ∨ event.filledVolume ≠ 0) := by
  obtain ⟨rest, hrest⟩ : ∃ rest, event.clientOrderId.toList =
      (if isBuySide then 'b' else 's') :: '_' :: rest := by
    rw [hid, genClientOrderId]
    simp only [String.append_assoc, String.toList_append]
    cases isBuySide
    · exact ⟨_, rfl⟩
    · exact ⟨_, rfl⟩
  constructor
  · exact fun h => ⟨h.mainNode, h.filled⟩
  · rintro ⟨hmain, hfilled⟩
    refine ⟨?_, ?_, ?_, hfilled, hmain⟩
    · rw [hrest]
      cases isBuySide <;> simp
    · rw [hrest]
      cases isBuySide <;> simp
    · rw [hsymbol, String.toList_append]
      exact List.suffix_append _ _

/-! ## The table -/

/-- A row of `tb_bnum_order`. -/
structure OrderRow where
  accountFlag : String
  symbol : String
  orderSide : String
  orderId : String
  clientOrderId : String
  orderType : String
  orderStatus : String
  orderSize : ℚ
  filledSize : ℚ
  averagePrice : ℚ
  systemTimestamp : ℕ
  commissionRate : ℚ
  hasTradingVolume : String
  deriving DecidableEq

/-- The price that is saved: an order without a fill has its limit price. -/
def orderPrice (event : FuturesOrderTradeUpdateEvent) : ℚ :=
  if 0 < event.filledVolume then event.averagePrice else event.price

/-- The row that the insert of an event writes. -/
def orderRow (config : OrderStatConfig) (event : FuturesOrderTradeUpdateEvent)
    (commissionRate : ℚ) (now : ℕ) : OrderRow where
  accountFlag := config.accountFlag
  symbol := event.symbol
  orderSide := event.side
  orderId := event.id
  clientOrderId := event.clientOrderId
  orderType := event.originalOrderType
  orderStatus := event.orderStatus
  orderSize := event.volume
  filledSize := event.filledVolume
  averagePrice := orderPrice event
  systemTimestamp := now
  commissionRate := commissionRate
  hasTradingVolume := if 0 < event.filledVolume then "Y" else "N"

/-- What the insert makes of a row that has its key. -/
def OrderRow.update (save row : OrderRow) : OrderRow :=
  { row with
    orderStatus := save.orderStatus
    filledSize := save.filledSize
    averagePrice := save.averagePrice
    hasTradingVolume := save.hasTradingVolume }

/-- The table after saves. -/
def orderTable (saves : List OrderRow) : List OrderRow :=
  tableAfter OrderRow.clientOrderId id OrderRow.update saves

/-- The rows of an account from a time on. -/
def selectOrders (since : ℕ) (accountFlag : String) (table : List OrderRow) : List OrderRow :=
  table.filter fun row => decide (since ≤ row.systemTimestamp) && row.accountFlag == accountFlag

theorem nodup_orderTable (saves : List OrderRow) :
    ((orderTable saves).map OrderRow.clientOrderId).Nodup := by
  have hupdate : ∀ save row : OrderRow, (save.update row).clientOrderId = row.clientOrderId :=
    fun _ _ => rfl
  exact nodup_tableAfter hupdate saves

/-- **The row of an order** is that of its first save, updated by the last. -/
theorem find_orderTable (saves : List OrderRow) (clientOrderId : String) :
    (orderTable saves).find? (fun row => decide (row.clientOrderId = clientOrderId)) =
      (firstSave OrderRow.clientOrderId clientOrderId saves).map fun first =>
        ((lastSave OrderRow.clientOrderId clientOrderId saves).getD first).update first := by
  have hupdate : ∀ save row : OrderRow, (save.update row).clientOrderId = row.clientOrderId :=
    fun _ _ => rfl
  have hself : ∀ save : OrderRow, save.update (id save) = id save := fun _ => rfl
  have hoverride : ∀ save save' row : OrderRow, save.update (save'.update row) = save.update row :=
    fun _ _ _ => rfl
  exact find_tableAfter hupdate hself hoverride saves clientOrderId

theorem mem_orderTable_iff {saves : List OrderRow} {row : OrderRow} :
    row ∈ orderTable saves ↔
      ∃ first, firstSave OrderRow.clientOrderId row.clientOrderId saves = some first ∧
        ∃ last, lastSave OrderRow.clientOrderId row.clientOrderId saves = some last ∧
          row = last.update first := by
  rw [mem_iff_find (nodup_orderTable saves), find_orderTable, Option.map_eq_some_iff]
  refine exists_congr fun first => and_congr_right fun hfirst => ?_
  cases hlast : lastSave OrderRow.clientOrderId row.clientOrderId saves with
  | none => simp [lastSave_eq_none_iff.mp hlast] at hfirst
  | some last => simp [eq_comm]

/-! ## Records -/

/-- The record of an event that was saved. -/
def orderLite (texts : TextLibrary) (config : OrderStatConfig)
    (event : FuturesOrderTradeUpdateEvent) (commissionRate : ℚ) (now : ℕ) : StatOrderLite where
  accountFlag := config.accountFlag
  symbol := event.symbol
  orderSide := event.side
  clientOrderId := event.clientOrderId
  averagePrice := texts.toString (orderPrice event)
  filledSize := texts.toString event.filledVolume
  commissionRate := texts.toString commissionRate
  systemTimestamp := now

/-- The record of a selected row. -/
def rowLite (texts : TextLibrary) (row : OrderRow) : StatOrderLite where
  accountFlag := row.accountFlag
  symbol := row.symbol
  orderSide := row.orderSide
  clientOrderId := row.clientOrderId
  averagePrice := texts.column row.averagePrice
  filledSize := texts.column row.filledSize
  commissionRate := texts.column row.commissionRate
  systemTimestamp := row.systemTimestamp

end UmTaker.Actuary
