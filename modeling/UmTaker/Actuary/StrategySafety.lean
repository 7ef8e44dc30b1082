import UmTaker.Actuary.RiskControl
import UmTaker.Actuary.Strategy

/-!
# Safety of the written orders

What the orders of the strategy respect: the position they close, the stops of the watchdogs and
of the configuration, the price threshold, and the position cap.

## Main definitions

* `ReducesPosition`: executing the order moves the position toward zero without crossing it
* `WithheldAtCap`: the stop that the position cap asks for

## Main results

* `marginLimited_order_iff`: while opening is stopped for the margin, a written order reduces the
  position exactly when its full size fits into it
* `closeOnly_order_reduces`: when positions are only closed, every written order reduces one
* `sellPrice_guard_iff`: when the price of a sell is defined and not below its threshold
* `buyPrice_isGreatest`: the price of a buy is the greatest of the grid below its two bounds
* `capGate_iff`: when the position cap withholds exactly the orders it should
-/

namespace UmTaker.Actuary

open Concurrency Concurrency.System.Move LoopBody Shm Truncation

/-! ## Orders that reduce the position -/

/-- Executing the order moves the position toward zero without crossing it. -/
def ReducesPosition (o : OrderShm) (p : AccountPositionInfo) : Prop :=
  ((o.side = .buy ∧ p.positionAmount < 0) ∨ (o.side = .sell ∧ 0 < p.positionAmount)) ∧
    o.volume ≤ |p.positionAmount|

instance (o : OrderShm) (p : AccountPositionInfo) : Decidable (ReducesPosition o p) :=
  inferInstanceAs (Decidable (_ ∧ _))

/-- The position after the order is executed. -/
def executedPosition (o : OrderShm) (p : AccountPositionInfo) : ℚ :=
  if o.side = .buy then p.positionAmount + o.volume else p.positionAmount - o.volume

/-- A reducing order of a volume leaves a position of the same sign that is no larger. -/
theorem ReducesPosition.executedPosition {o : OrderShm} {p : AccountPositionInfo}
    (h : ReducesPosition o p) (hv : 0 ≤ o.volume) :
    0 ≤ p.positionAmount * executedPosition o p ∧
      |executedPosition o p| ≤ |p.positionAmount| := by
  obtain ⟨⟨hside, hneg⟩ | ⟨hside, hpos⟩, hle⟩ := h
  · rw [abs_of_neg hneg] at hle ⊢
    have he : Actuary.executedPosition o p = p.positionAmount + o.volume := if_pos hside
    rw [he, abs_of_nonpos (by linarith)]
    exact ⟨mul_nonneg_of_nonpos_of_nonpos hneg.le (by linarith), by linarith⟩
  · rw [abs_of_pos hpos] at hle ⊢
    have he : Actuary.executedPosition o p = p.positionAmount - o.volume :=
      if_neg (by simp [hside])
    rw [he, abs_of_nonneg (by linarith)]
    exact ⟨mul_nonneg hpos.le (by linarith), by linarith⟩

section Orders

variable {ctx : StrategyContext} {snap : Snapshot} {st : LoopState} {m : Market} {q : Quote}
  {o : OrderShm} {p : AccountPositionInfo}

/-- The side a position must be on for an order of this side to close it. -/
def closedSide : OrderSide → PositionSide
  | .buy => .short
  | _ => .long

/-- A signalled quote is the buy or the sell, and is sized to the position on the other side. -/
theorem signalledQuote_sizing (h : signalledQuote ctx m = some q) :
    (q.side = .buy ∨ q.side = .sell) ∧
      (q.volume, q.positionClose, q.reduceOnly) = sizing ctx m.position (closedSide q.side) := by
  unfold signalledQuote at h
  split_ifs at h
  · obtain rfl := Option.some.inj h
    exact ⟨Or.inl rfl, rfl⟩
  · obtain rfl := Option.some.inj h
    exact ⟨Or.inr rfl, rfl⟩

/-- Only an order against the position closes it. -/
theorem sizing_positionClose {closes : PositionSide} :
    (sizing ctx p closes).2.1 = true ↔ p.positionSide = closes := by
  unfold sizing
  split_ifs with h h' <;> simp [h]

/-- An order that closes has its full size, or the position's when positions are only closed. -/
theorem sizing_volume {closes : PositionSide} (h : p.positionSide = closes) :
    (sizing ctx p closes).1 =
      if ctx.closeOnly = true then min ctx.orderSize p.positionAmountAbs else ctx.orderSize := by
  unfold sizing
  rw [if_pos h]
  by_cases hc : ctx.closeOnly = true
  · by_cases hs : ctx.orderSize > p.positionAmountAbs
    · rw [if_pos ⟨hc, hs⟩, if_pos hc, min_eq_right hs.le]
    · rw [if_neg (fun h => hs h.2), if_pos hc, min_eq_left (not_lt.mp hs)]
  · rw [if_neg (fun h => hc h.1), if_neg hc]

/-- An order that may only close positions closes the one the iteration read. -/
theorem closing_order (ho : writtenOrder ctx snap st = some o) (hp : snap.position = some p)
    (hstop : ctx.exchangeInfo.positionCloseOnly = true ∨
      snap.configMakeOpenPositionOrder = false) :
    (o.side = .buy ∨ o.side = .sell) ∧ p.positionSide = closedSide o.side ∧
      o.volume =
        if ctx.closeOnly = true then min ctx.orderSize p.positionAmountAbs else ctx.orderSize := by
  obtain ⟨m, q, hm, hq, hgate, -, rfl⟩ := writtenOrder_eq_some.mp ho
  obtain rfl : m.position = p := Option.some.inj (hm.position.symm.trans hp)
  obtain ⟨hside, hsizing⟩ := signalledQuote_sizing hq
  have hclose : q.positionClose = true := by
    unfold writeGate at hgate
    rcases hstop with h | h <;> simp_all
  have hposition : m.position.positionSide = closedSide q.side := by
    rw [Prod.ext_iff, Prod.ext_iff] at hsizing
    exact sizing_positionClose.mp (hsizing.2.1.symm.trans hclose)
  refine ⟨hside, hposition, ?_⟩
  rw [← sizing_volume hposition, ← hsizing]
  rfl

/-- A closing order reduces a one-way position when its volume fits into it. -/
theorem reducesPosition_iff (hp : p.OneWay) (hside : o.side = .buy ∨ o.side = .sell)
    (hclosed : p.positionSide = closedSide o.side) :
    ReducesPosition o p ↔ o.volume ≤ |p.positionAmount| := by
  have hopposite : (o.side = .buy ∧ p.positionAmount < 0) ∨
      (o.side = .sell ∧ 0 < p.positionAmount) := by
    rcases hside with h | h
    · rw [h] at hclosed
      exact Or.inl ⟨h, hp.short_iff.mp hclosed⟩
    · rw [h] at hclosed
      exact Or.inr ⟨h, hp.long_iff.mp hclosed⟩
  exact ⟨fun h => h.2, fun h => ⟨hopposite, h⟩⟩

end Orders

/-! ## A sample iteration -/

/-- What a computed value is seen to satisfy. -/
theorem exists_of_any {α : Type} {P : α → Prop} [DecidablePred P] {x : Option α}
    (h : x.any (fun a => decide (P a)) = true) : ∃ a, x = some a ∧ P a := by
  obtain ⟨a, ha, hP⟩ := (Option.any_eq_true _ _).mp h
  exact ⟨a, ha, of_decide_eq_true hP⟩

/-- Exchange information of a sample instrument. -/
def sampleExchangeInfo (baseAsset : String) : ExchangeInfoLite where
  symbol := baseAsset ++ "USDC"
  baseAsset := baseAsset
  pricePrecision := 1
  quantityPrecision := 3

/-- Settings of a sample instrument, with orders of size two and a cap of ten. -/
def sampleInstConfig (baseAsset : String) : InstConfigItem where
  asset := baseAsset
  minTickerNotional := 0
  minTickerNotionalMultiple := 0
  orderSize := 2
  maxPosition := 10

def sampleContext : StrategyContext where
  config := sampleConfig
  followerInstId := "BTCUSDC"
  exchangeInfo := sampleExchangeInfo "BTC"
  instConfig := sampleInstConfig "BTC"

/-- The first ticker of an instrument. -/
def sampleTicker (bid ask : ℚ) : TickerInfoShm where
  bidPrice := bid
  bidSize := 1
  askPrice := ask
  askSize := 1
  versionNumber := 1

/-- A REST update in one-way mode. -/
def sampleUpdate (symbol : String) (amount : ℚ) : PositionUpdate :=
  .rest
    { symbol := symbol, initialMargin := 0, maintMargin := 0, unrealizedProfit := 0
      entryPrice := 0, positionSide := .both, positionAmt := amount, updateTime := 0 }

/-- The record it leaves. -/
def samplePosition (symbol : String) (amount : ℚ) : AccountPositionInfo where
  symbol := symbol
  positionSide := storedSide .both amount
  positionAmount := amount
  positionAmountAbs := |amount|

theorem copyPosition_sample (symbol : String) (amount : ℚ) :
    copyPosition (positionStore [symbol] [sampleUpdate symbol amount]) symbol =
      some (samplePosition symbol amount) := by
  simp [positionStore, initPositions, StringMap.insert, applyPosition, updateExistPosition,
    sampleUpdate, samplePosition]

/-- A snapshot at time zero, with the first thresholds. -/
def sampleSnapshot (benchmark follower : TickerInfoShm) (position : AccountPositionInfo)
    (makeOpenPosition stopBuyMemory : Bool) : Snapshot where
  now := 0
  nowMicros := 1
  benchmarkTicker := some benchmark
  followerTicker := some follower
  earlyRun := some { versionNumber := 1 }
  benchmarkBeta := some { versionNumber := 1 }
  followerBeta := some { versionNumber := 1 }
  position := some position
  positionThreshold := none
  configMakeOrder := true
  configMakeOpenPositionOrder := makeOpenPosition
  clientIdMillis := 0
  slotUpdateTime := 0
  stopBuyMemory := stopBuyMemory

/-- A benchmark ask no higher than the follower's bid signals a sell. -/
def sampleSell (benchmarkAsk followerBid : ℚ) (position : AccountPositionInfo)
    (makeOpenPosition : Bool) : Snapshot :=
  sampleSnapshot (sampleTicker 99 benchmarkAsk) (sampleTicker followerBid 102) position
    makeOpenPosition false

/-- A benchmark bid above the follower's ask signals a buy. -/
def sampleBuy (position : AccountPositionInfo) (stopBuyMemory : Bool) : Snapshot :=
  sampleSnapshot (sampleTicker 103 104) (sampleTicker 101 102) position true stopBuyMemory

/-! ## Opening stopped for the margin -/

section Margin

variable {ctx : StrategyContext} {snap : Snapshot} {st : LoopState} {o : OrderShm}
  {p : AccountPositionInfo}

/-- **While opening is stopped for the margin**, and neither the configuration nor the instrument
is close-only, a written order reduces the position exactly when its full size fits into it: the
size is limited to the position only in the close-only modes. -/
theorem marginLimited_order_iff {d : DynamicConfig}
    (hmargin : .marginLimited ∈ d.openOrder.reasons)
    (hconfig : ctx.config.makePositionCloseOnly = false)
    (hinst : ctx.exchangeInfo.positionCloseOnly = false)
    {instIds : List String} {updates : List PositionUpdate}
    (honeWay : ∀ u ∈ updates, u.positionSide = .both)
    (hp : copyPosition (positionStore instIds updates) ctx.followerInstId = some p)
    (hread : snap.position = some p)
    (hflag : snap.configMakeOpenPositionOrder = dynamicCouldMakeOpenPositionOrder d)
    (ho : writtenOrder ctx snap st = some o) :
    ReducesPosition o p ↔ ctx.orderSize ≤ |p.positionAmount| := by
  have hstop : snap.configMakeOpenPositionOrder = false :=
    hflag.trans (openPosition_stopped hmargin)
  have hopen : ctx.closeOnly = false := by simp [StrategyContext.closeOnly, hconfig, hinst]
  obtain ⟨hside, hclosed, hvolume⟩ := closing_order ho hread (Or.inr hstop)
  have hp' : p.OneWay := oneWay_of_updates instIds updates honeWay _ p (by simpa using hp)
  rw [reducesPosition_iff hp' hside hclosed, hvolume, hopen]
  rfl

end Margin

/-- The meta data of an account that uses its whole wallet as margin. -/
def sampleMarginCall : AccountMetaInfo where
  multiAssetsMargin := true
  totalInitialMargin := 1
  totalCrossWalletBalance := 1

/-- One round of the meta watchdog on this account records the margin reason, and leaves orders
possible. -/
theorem reachable_marginLimited :
    ∃ c, WatchReachable sampleConfig c ∧ .marginLimited ∈ c.shared.openOrder.reasons ∧
      dynamicCouldMakeOrder c.shared = true := by
  let moves : List (System.Move Watchdog Round) := wholeCall .accountMeta ⟨sampleMarginCall, 0⟩ 3
  exact System.exists_of_schedule moves (by decide +kernel)

/-- The sell of a long of one, while opening is stopped for the margin: it is written with its
full size of two, and executing it leaves a short. -/
theorem marginLimited_order_crosses :
    ∃ c o, WatchReachable sampleConfig c ∧ .marginLimited ∈ c.shared.openOrder.reasons ∧
      dynamicCouldMakeOrder c.shared = true ∧
      dynamicCouldMakeOpenPositionOrder c.shared = false ∧
      writtenOrder sampleContext (sampleSell 100 101 (samplePosition "BTCUSDC" 1) false) {} =
        some o ∧
      ¬ ReducesPosition o (samplePosition "BTCUSDC" 1) ∧
      executedPosition o (samplePosition "BTCUSDC" 1) = -1 := by
  obtain ⟨c, hc, hmargin, horder⟩ := reachable_marginLimited
  obtain ⟨o, ho, h⟩ : ∃ o, writtenOrder sampleContext
      (sampleSell 100 101 (samplePosition "BTCUSDC" 1) false) {} = some o ∧
      ¬ ReducesPosition o (samplePosition "BTCUSDC" 1) ∧
      executedPosition o (samplePosition "BTCUSDC" 1) = -1 :=
    exists_of_any (by decide +kernel)
  exact ⟨c, o, hc, hmargin, horder, openPosition_stopped hmargin, ho, h⟩

/-- The sell of a long of five has room for its full size. -/
theorem marginLimited_order_iff_long :
    ∃ o, writtenOrder sampleContext (sampleSell 100 101 (samplePosition "BTCUSDC" 5) false) {} =
        some o ∧
      ReducesPosition o (samplePosition "BTCUSDC" 5) := by
  obtain ⟨c, -, hmargin, -⟩ := reachable_marginLimited
  have hrun : (writtenOrder sampleContext
      (sampleSell 100 101 (samplePosition "BTCUSDC" 5) false) {}).isSome = true := by
    decide +kernel
  obtain ⟨o, ho⟩ := Option.isSome_iff_exists.mp hrun
  refine ⟨o, ho, (marginLimited_order_iff hmargin rfl rfl (by simp [sampleUpdate,
    PositionUpdate.positionSide]) (copyPosition_sample _ 5) rfl
    (openPosition_stopped hmargin).symm ho).mpr ?_⟩
  decide +kernel

/-! ## Close-only mode -/

/-- What the context of a loop takes from the configuration and the global context. -/
theorem strategyContext_eq_some {config : ActuaryConfig} {context : GlobalContext}
    {baseAsset : String} {ctx : StrategyContext}
    (h : strategyContext config context baseAsset = some ctx) :
    ctx.config = config ∧ ctx.followerInstId = baseAsset ++ config.followerQuoteAsset ∧
      context.followerExchangeInfo ctx.followerInstId = some ctx.exchangeInfo := by
  unfold strategyContext at h
  simp only [Option.bind_eq_bind, Option.bind_eq_some_iff] at h
  obtain ⟨info, hinfo, h⟩ := h
  split_ifs at h with hindex
  simp only [Option.bind_eq_some_iff] at h
  obtain ⟨item, -, h⟩ := h
  obtain rfl := Option.some.inj h
  exact ⟨rfl, rfl, hinfo⟩

/-- **When positions are only closed**, by configuration or for the asset, every order an iteration
writes reduces the position it read, whatever the watchdogs did before. -/
theorem closeOnly_order_reduces {config : ActuaryConfig} {infoList : List InstConfigItem}
    {lites : List ExchangeInfoLite} {baseAsset : String} {ctx : StrategyContext}
    (hctx : strategyContext config (.init config infoList lites) baseAsset = some ctx)
    (hclose : config.makePositionCloseOnly = true ∨ baseAsset ∈ config.nodeCloseBaseAssets)
    {c} (hc : WatchReachable config c) {instIds : List String} {updates : List PositionUpdate}
    (honeWay : ∀ u ∈ updates, u.positionSide = .both) {p : AccountPositionInfo}
    (hp : copyPosition (positionStore instIds updates) ctx.followerInstId = some p)
    {snap : Snapshot} (hread : snap.position = some p)
    (hflag : snap.configMakeOpenPositionOrder = dynamicCouldMakeOpenPositionOrder c.shared)
    {st : LoopState} {o : OrderShm} (ho : writtenOrder ctx snap st = some o) :
    p.positionAmount ≠ 0 ∧ ReducesPosition o p := by
  obtain ⟨hconfig, hinst, hinfo⟩ := strategyContext_eq_some hctx
  have hp' : p.OneWay := oneWay_of_updates instIds updates honeWay _ p (by simpa using hp)
  have hmode : ctx.closeOnly = true ∧ (ctx.exchangeInfo.positionCloseOnly = true ∨
      snap.configMakeOpenPositionOrder = false) := by
    rcases hclose with hmake | hbase
    · -- the reason recorded by the constructor has no owner, so no watchdog ever removes it
      have hstatic : .staticConfig ∈ c.shared.openOrder.reasons := by
        have h := reachable_unowned hc (k := .openOrder) (r := .staticConfig)
          (by rintro (_ | _) <;> rfl)
        refine h.mpr ?_
        simp [DynamicConfig.init, hmake]
      exact ⟨by simp [StrategyContext.closeOnly, hconfig, hmake],
        Or.inr (hflag.trans (openPosition_stopped hstatic))⟩
    · have hmem : ctx.followerInstId ∈ followerCloseInstIdsSet config := by
        rw [hinst]
        exact List.mem_map_of_mem hbase
      have hmarked := positionCloseOnly_of_close hmem hinfo
      exact ⟨by simp [StrategyContext.closeOnly, hmarked], Or.inl hmarked⟩
  obtain ⟨hside, hclosed, hvolume⟩ := closing_order ho hread hmode.2
  have hreduces : ReducesPosition o p := by
    rw [reducesPosition_iff hp' hside hclosed, hvolume, if_pos hmode.1, ← hp'.abs]
    exact min_le_right _ _
  refine ⟨?_, hreduces⟩
  rcases hreduces.1 with ⟨-, h⟩ | ⟨-, h⟩
  · exact h.ne
  · exact h.ne'

/-- The sell of a long of one, of an asset that is only closed. -/
theorem closeOnly_order_reduces_long :
    ∃ ctx o, strategyContext sampleConfig
        (.init sampleConfig [sampleInstConfig "CRV"] [sampleExchangeInfo "CRV"]) "CRV" =
          some ctx ∧
      writtenOrder ctx (sampleSell 100 101 (samplePosition "CRVUSDC" 1) true) {} = some o ∧
      ReducesPosition o (samplePosition "CRVUSDC" 1) := by
  have hrun : ((strategyContext sampleConfig
      (.init sampleConfig [sampleInstConfig "CRV"] [sampleExchangeInfo "CRV"]) "CRV").bind
      fun ctx => writtenOrder ctx (sampleSell 100 101 (samplePosition "CRVUSDC" 1) true)
        {}).isSome = true := by
    decide +kernel
  obtain ⟨o, h⟩ := Option.isSome_iff_exists.mp hrun
  obtain ⟨ctx, hctx, ho⟩ := Option.bind_eq_some_iff.mp h
  have hinst : ctx.followerInstId = "CRVUSDC" := (strategyContext_eq_some hctx).2.1
  have hp : copyPosition (positionStore ["CRVUSDC"] [sampleUpdate "CRVUSDC" 1])
      ctx.followerInstId = some (samplePosition "CRVUSDC" 1) := by
    rw [hinst]
    exact copyPosition_sample _ 1
  exact ⟨ctx, o, hctx, ho, (closeOnly_order_reduces hctx (Or.inr (by decide)) .refl
    (by simp [sampleUpdate, PositionUpdate.positionSide]) hp rfl rfl ho).2⟩

/-! ## The price threshold of a sell -/

/-- The price of a sell keeps the threshold when the original price does, or the threshold
survives being cut to the price precision. -/
theorem threshold_le_pricing {ctx : StrategyContext} (hmargin : 0 < ctx.config.orderPriceMargin)
    (original threshold : ℚ) :
    threshold ≤ (pricing ctx original threshold (· > ·)).1 ↔
      threshold ≤ decimalProcess original ctx.exchangeInfo.pricePrecision ∨
      threshold ≤ decimalProcess threshold ctx.exchangeInfo.pricePrecision := by
  unfold pricing
  by_cases h : threshold > decimalProcess original ctx.exchangeInfo.pricePrecision
  · rw [if_pos ⟨hmargin, h⟩]
    exact ⟨Or.inr, fun hor => hor.resolve_left h.not_ge⟩
  · rw [if_neg (fun hand => h hand.2)]
    exact iff_of_true (not_lt.mp h) (Or.inl (not_lt.mp h))

/-- A written order is the quote signalled for the tickers and the early-run threshold read. -/
theorem signalledQuote_of_written {ctx : StrategyContext} {snap : Snapshot} {st : LoopState}
    {o : OrderShm} {benchmark follower : TickerInfoShm} {earlyRun : EarlyRunThresholdShm}
    (hb : snap.benchmarkTicker = some benchmark) (hf : snap.followerTicker = some follower)
    (he : snap.earlyRun = some earlyRun) (ho : writtenOrder ctx snap st = some o) :
    ∃ m q, m.benchmark = benchmark ∧ m.follower = follower ∧ m.earlyRun = earlyRun ∧
      signalledQuote ctx m = some q ∧ o = orderOf ctx snap m q := by
  obtain ⟨m, q, hm, hq, -, -, ho⟩ := writtenOrder_eq_some.mp ho
  have hbenchmark : m.benchmark = benchmark := Option.some.inj (hm.benchmark.symm.trans hb)
  have hfollower : m.follower = follower := Option.some.inj (hm.follower.symm.trans hf)
  have hearlyRun : m.earlyRun = earlyRun := Option.some.inj (hm.earlyRun.symm.trans he)
  exact ⟨m, q, hbenchmark, hfollower, hearlyRun, hq, ho⟩

/-- The price of a sell has a value exactly when the prices can be cut. -/
theorem sellPriceSigned_eq_some_iff {ctx : StrategyContext} {benchmark follower : TickerInfoShm}
    {earlyRun : EarlyRunThresholdShm} :
    sellPriceSigned ctx benchmark follower earlyRun =
        some (pricing ctx (follower.bidPrice * (1 - ctx.config.orderPriceMargin))
          (sellThreshold ctx benchmark earlyRun) (· > ·)).1 ↔
      PricesFit ctx (follower.bidPrice * (1 - ctx.config.orderPriceMargin))
        (sellThreshold ctx benchmark earlyRun) (· > ·) := by
  unfold sellPriceSigned
  constructor
  · intro h
    obtain ⟨price, hprice, -⟩ := Option.map_eq_some_iff.mp h
    exact (pricingSigned_eq_some_iff.mp hprice).1
  · intro hfits
    rw [pricingSigned_eq_some_iff.mpr ⟨hfits, rfl⟩]
    rfl

/-- **The price of a sell keeps its threshold** exactly when the price that the margin asks for fits
the integers it is cut by, and the threshold is not positive, is a point of the price grid that fits
them, or has a point of the grid between it and the price that the margin asks for. -/
theorem sellPrice_guard_iff {ctx : StrategyContext} {snap : Snapshot} {st : LoopState}
    {o : OrderShm} {benchmark follower : TickerInfoShm} {earlyRun : EarlyRunThresholdShm}
    (hmargin : 0 < ctx.config.orderPriceMargin) (hb : snap.benchmarkTicker = some benchmark)
    (hf : snap.followerTicker = some follower) (he : snap.earlyRun = some earlyRun)
    (ho : writtenOrder ctx snap st = some o) (hside : o.side = .sell) :
    (sellPriceSigned ctx benchmark follower earlyRun = some o.price ∧
        sellThreshold ctx benchmark earlyRun ≤ o.price) ↔
      CutFits ctx.exchangeInfo.pricePrecision
          (follower.bidPrice * (1 - ctx.config.orderPriceMargin)) ∧
        (sellThreshold ctx benchmark earlyRun ≤ 0 ∨
          (OnPriceGrid ctx.exchangeInfo.pricePrecision (sellThreshold ctx benchmark earlyRun) ∧
            CutFits ctx.exchangeInfo.pricePrecision (sellThreshold ctx benchmark earlyRun)) ∨
          ∃ y, OnPriceGrid ctx.exchangeInfo.pricePrecision y ∧
            sellThreshold ctx benchmark earlyRun ≤ y ∧
            y ≤ follower.bidPrice * (1 - ctx.config.orderPriceMargin)) := by
  obtain ⟨m, q, rfl, rfl, rfl, hq, rfl⟩ := signalledQuote_of_written hb hf he ho
  have hquote : q = sellQuote ctx m := by
    unfold signalledQuote at hq
    split_ifs at hq
    · obtain rfl := Option.some.inj hq
      cases hside
    · exact (Option.some.inj hq).symm
  subst hquote
  show sellPriceSigned ctx m.benchmark m.follower m.earlyRun =
        some (pricing ctx _ (sellThreshold ctx m.benchmark m.earlyRun) _).1 ∧
      _ ≤ (pricing ctx _ (sellThreshold ctx m.benchmark m.earlyRun) _).1 ↔ _
  rw [sellPriceSigned_eq_some_iff, threshold_le_pricing hmargin, PricesFit, and_assoc]
  simp only [gt_iff_lt, hmargin, true_and]
  generalize sellThreshold ctx m.benchmark m.earlyRun = threshold
  generalize m.follower.bidPrice * (1 - ctx.config.orderPriceMargin) = original
  refine and_congr_right fun hfits => ?_
  have hgrid : (0 : ℚ) < 10 ^ ctx.exchangeInfo.pricePrecision := by positivity
  rcases le_or_gt threshold 0 with hle | hpos
  · have hself : threshold ≤ decimalProcess threshold ctx.exchangeInfo.pricePrecision := by
      rw [decimalProcess_eq]
      exact (le_truncTo_self_iff hgrid).mpr (Or.inl hle)
    exact iff_of_true ⟨fun hlt => hfits.of_nonpos hlt.le hle, Or.inr hself⟩ (Or.inl hle)
  · have horiginal : threshold ≤ decimalProcess original ctx.exchangeInfo.pricePrecision ↔
        ∃ y, OnPriceGrid ctx.exchangeInfo.pricePrecision y ∧ threshold ≤ y ∧ y ≤ original := by
      rw [decimalProcess_eq]
      exact le_truncTo_iff hgrid hpos
    have hself : threshold ≤ decimalProcess threshold ctx.exchangeInfo.pricePrecision ↔
        OnPriceGrid ctx.exchangeInfo.pricePrecision threshold := by
      rw [decimalProcess_eq, le_truncTo_self_iff hgrid]
      exact or_iff_right hpos.not_ge
    rw [← horiginal, ← hself, ← not_le]
    have hnot : ¬ threshold ≤ 0 := hpos.not_ge
    tauto

/-- A benchmark ask of 100.55 with one decimal of price: the sell is cut to 100.5. -/
theorem sellPrice_below_guard :
    ∃ o, writtenOrder sampleContext
        (sampleSell (10055 / 100) (10056 / 100) (samplePosition "BTCUSDC" 5) true) {} = some o ∧
      o.side = .sell ∧
      sellPriceSigned sampleContext (sampleTicker 99 (10055 / 100))
        (sampleTicker (10056 / 100) 102) { versionNumber := 1 } = some o.price ∧
      o.price < sellThreshold sampleContext (sampleTicker 99 (10055 / 100))
        { versionNumber := 1 } := by
  exact exists_of_any (by decide +kernel)

/-- A benchmark ask of 100.5 is a point of the price grid. -/
theorem sellPrice_guard_iff_onGrid :
    ∃ o, writtenOrder sampleContext
        (sampleSell (1005 / 10) (10056 / 100) (samplePosition "BTCUSDC" 5) true) {} = some o ∧
      sellPriceSigned sampleContext (sampleTicker 99 (1005 / 10))
        (sampleTicker (10056 / 100) 102) { versionNumber := 1 } = some o.price ∧
      sellThreshold sampleContext (sampleTicker 99 (1005 / 10)) { versionNumber := 1 } ≤
        o.price := by
  obtain ⟨o, ho, hside⟩ : ∃ o, writtenOrder sampleContext
      (sampleSell (1005 / 10) (10056 / 100) (samplePosition "BTCUSDC" 5) true) {} = some o ∧
      o.side = .sell :=
    exists_of_any (by decide +kernel)
  refine ⟨o, ho, (sellPrice_guard_iff (by decide +kernel) rfl rfl rfl ho hside).mpr ?_⟩
  refine ⟨by decide +kernel, Or.inr (Or.inl ⟨⟨1005, ?_⟩, ?_⟩)⟩
  · decide +kernel
  · decide +kernel

/-! ## The price threshold of a buy -/

/-- The price of a buy is the greatest point of the price grid below the price that the margin asks
for and the threshold: the first is cut before the comparison, the second after it. -/
theorem isGreatest_pricing {ctx : StrategyContext} (hmargin : 0 < ctx.config.orderPriceMargin)
    {original threshold : ℚ} (horiginal : 0 ≤ original) (hthreshold : 0 ≤ threshold) :
    IsGreatest {y | OnPriceGrid ctx.exchangeInfo.pricePrecision y ∧ y ≤ min original threshold}
      (pricing ctx original threshold (· < ·)).1 := by
  have hgrid : (0 : ℚ) < 10 ^ ctx.exchangeInfo.pricePrecision := by positivity
  unfold pricing
  simp only [decimalProcess_eq]
  split_ifs with h
  · -- the threshold lies below the cut price, so it is the smaller of the two bounds
    have hcut : truncTo _ original ≤ original := (isGreatest_truncTo hgrid horiginal).1.2
    have hmin : min original threshold = threshold := min_eq_right (h.2.trans_le hcut).le
    rw [hmin]
    exact isGreatest_truncTo hgrid hthreshold
  · have hle : truncTo _ original ≤ threshold := not_lt.mp fun hlt => h ⟨hmargin, hlt⟩
    exact isGreatest_truncTo_of_le hgrid horiginal hle

/-- **The price of a buy** is the greatest point of the price grid that exceeds neither the price
the margin asks for nor the threshold, unless the threshold is negative. -/
theorem buyPrice_isGreatest {ctx : StrategyContext} {snap : Snapshot} {st : LoopState}
    {o : OrderShm} {benchmark follower : TickerInfoShm} {earlyRun : EarlyRunThresholdShm}
    (hmargin : 0 < ctx.config.orderPriceMargin) (hb : snap.benchmarkTicker = some benchmark)
    (hf : snap.followerTicker = some follower) (he : snap.earlyRun = some earlyRun)
    (hask : 0 < follower.askPrice) (hguard : 0 ≤ buyThreshold ctx benchmark earlyRun)
    (ho : writtenOrder ctx snap st = some o) (hside : o.side = .buy) :
    IsGreatest
        {y | OnPriceGrid ctx.exchangeInfo.pricePrecision y ∧
          y ≤ min (follower.askPrice * (1 + ctx.config.orderPriceMargin))
            (buyThreshold ctx benchmark earlyRun)}
        o.price ∧
      o.price ≤ buyThreshold ctx benchmark earlyRun := by
  obtain ⟨m, q, rfl, rfl, rfl, hq, rfl⟩ := signalledQuote_of_written hb hf he ho
  have hquote : q = buyQuote ctx m := by
    unfold signalledQuote at hq
    split_ifs at hq
    · exact (Option.some.inj hq).symm
    · obtain rfl := Option.some.inj hq
      cases hside
  subst hquote
  have horiginal : 0 ≤ m.follower.askPrice * (1 + ctx.config.orderPriceMargin) := by positivity
  have hprice := isGreatest_pricing hmargin horiginal hguard
  exact ⟨hprice, hprice.1.2.trans (min_le_right _ _)⟩

/-- Both the benchmark's bid and the follower's ask are 102.09999, with one decimal of price: with
its margin the ask would be cut to 102.1, and the buy is cut to 102. -/
theorem buyPrice_isGreatest_guarded :
    ∃ o, writtenOrder sampleContext
        (sampleSnapshot (sampleTicker (10209999 / 100000) 104)
          (sampleTicker 101 (10209999 / 100000)) (samplePosition "BTCUSDC" (-5)) true false) {} =
        some o ∧
      o.price = 102 ∧
      o.price ≤ buyThreshold sampleContext (sampleTicker (10209999 / 100000) 104)
        { versionNumber := 1 } := by
  obtain ⟨o, ho, hside, hprice⟩ : ∃ o, writtenOrder sampleContext
      (sampleSnapshot (sampleTicker (10209999 / 100000) 104)
        (sampleTicker 101 (10209999 / 100000)) (samplePosition "BTCUSDC" (-5)) true false) {} =
      some o ∧ o.side = .buy ∧ o.price = 102 :=
    exists_of_any (by decide +kernel)
  have hguard : 0 ≤ buyThreshold sampleContext (sampleTicker (10209999 / 100000) 104)
      { versionNumber := 1 } := by decide +kernel
  have h := buyPrice_isGreatest (by decide +kernel) rfl rfl rfl (by decide +kernel) hguard ho hside
  exact ⟨o, ho, hprice, h.2⟩

/-! ## The position cap -/

/-- The stop that the position cap asks for: of the orders that would enlarge a position at the
cap. -/
def WithheldAtCap (ctx : StrategyContext) (p : AccountPositionInfo) (side : OrderSide) : Prop :=
  ctx.positionCap ≤ p.positionAmountAbs ∧ p.positionSide ≠ closedSide side

instance (ctx : StrategyContext) (p : AccountPositionInfo) (side : OrderSide) :
    Decidable (WithheldAtCap ctx p side) := inferInstanceAs (Decidable (_ ∧ _))

section Cap

variable {ctx : StrategyContext} {snap : Snapshot} {st : LoopState} {o : OrderShm}
  {p : AccountPositionInfo}

/-- A sell is stopped exactly at the cap, unless it closes the position. -/
theorem stopFlags_stopSell_iff (stopBuyMemory : Bool) :
    (stopFlags ctx p stopBuyMemory).stopSell = true ↔
      ctx.positionCap ≤ p.positionAmountAbs ∧ p.positionSide ≠ .long := by
  unfold stopFlags
  split_ifs with hcap hlong
  · simp [hlong]
  · simp [hlong, hcap]
  · simp [hcap]

/-- A buy is stopped by a long at the cap, and otherwise by what the memory of the flag holds. -/
theorem stopFlags_stopBuy_iff (stopBuyMemory : Bool) :
    (stopFlags ctx p stopBuyMemory).stopBuy = true ↔
      (ctx.positionCap ≤ p.positionAmountAbs ∧ p.positionSide = .long) ∨ stopBuyMemory = true := by
  unfold stopFlags
  split_ifs with hcap hlong
  · exact iff_of_true rfl (Or.inl ⟨hcap, hlong⟩)
  · simp [hlong]
  · simp [not_le.mp hcap]

/-- An order that would be written is withheld exactly when the flag of its side is set. -/
theorem writtenOrder_eq_none_iff (ho : unstoppedOrder ctx snap st = some o)
    (hp : snap.position = some p) :
    writtenOrder ctx snap st = none ↔
      (stopFlags ctx p snap.stopBuyMemory).stops o.side = true := by
  obtain ⟨m, q, hm, hq, hgate, hslot, rfl⟩ := iterationWith_eq_some.mp ho
  obtain rfl : m.position = p := Option.some.inj (hm.position.symm.trans hp)
  have hstops : ∀ b, writeGate ctx snap q b (priceFree ctx snap st q) = !b := by
    intro b
    cases b
    · have hno : StopFlags.stops { stopBuy := false, stopSell := false } q.side = false := by
        simp [StopFlags.stops]
      rw [hno] at hgate
      exact hgate
    · simp [writeGate]
  show _ ↔ (stopFlags ctx m.position snap.stopBuyMemory).stops q.side = true
  constructor
  · intro hnone
    by_contra hflag
    have hwritten : writtenOrder ctx snap st = some (orderOf ctx snap m q) := by
      refine writtenOrder_eq_some.mpr ⟨m, q, hm, hq, ?_, hslot, rfl⟩
      rw [hstops]
      simpa using hflag
    rw [hnone] at hwritten
    cases hwritten
  · intro hflag
    rw [Option.eq_none_iff_forall_ne_some]
    intro o' ho'
    obtain ⟨m', q', hm', hq', hgate', -, -⟩ := writtenOrder_eq_some.mp ho'
    obtain rfl := hm.unique hm'
    obtain rfl : q = q' := Option.some.inj (hq.symm.trans hq')
    rw [hstops, hflag] at hgate'
    cases hgate'

/-- **The position cap withholds exactly the orders it should**, of sells always, and of buys when
the position is a long at the cap, or the memory of `stop_buy` happens to hold what the cap asks
for: only a long at the cap sets that flag, and nothing clears it. -/
theorem capGate_iff (ho : unstoppedOrder ctx snap st = some o) (hp : snap.position = some p) :
    (writtenOrder ctx snap st = none ↔ WithheldAtCap ctx p o.side) ↔
      o.side = .sell ∨
      (p.positionSide = .long ∧ ctx.positionCap ≤ p.positionAmountAbs) ∨
      (snap.stopBuyMemory = true ↔
        ctx.positionCap ≤ p.positionAmountAbs ∧ p.positionSide ≠ .long ∧
          p.positionSide ≠ .short) := by
  have hside : o.side = .buy ∨ o.side = .sell := by
    obtain ⟨m, q, -, hq, -, -, rfl⟩ := iterationWith_eq_some.mp ho
    exact (signalledQuote_sizing hq).1
  rw [writtenOrder_eq_none_iff ho hp, WithheldAtCap]
  rcases hside with h | h
  · rw [h]
    show ((stopFlags ctx p snap.stopBuyMemory).stopBuy = true ↔ _ ∧ p.positionSide ≠ .short) ↔ _
    rw [stopFlags_stopBuy_iff]
    -- a long at the cap is stopped as it should be; otherwise the memory decides
    by_cases hlong : ctx.positionCap ≤ p.positionAmountAbs ∧ p.positionSide = .long
    · simp [hlong]
    · by_cases hcap : ctx.positionCap ≤ p.positionAmountAbs
      · have hside : p.positionSide ≠ .long := fun he => hlong ⟨hcap, he⟩
        simp [hcap, hside]
      · simp [hcap]
  · rw [h]
    show ((stopFlags ctx p snap.stopBuyMemory).stopSell = true ↔ _ ∧ p.positionSide ≠ .long) ↔ _
    exact iff_of_true (stopFlags_stopSell_iff _) (Or.inl rfl)

end Cap

/-- The buy of a short of one below the cap: it is withheld when the memory of `stop_buy` holds
`true`. -/
theorem capGate_withholds :
    ∃ o, unstoppedOrder sampleContext (sampleBuy (samplePosition "BTCUSDC" (-1)) true) {} =
        some o ∧
      writtenOrder sampleContext (sampleBuy (samplePosition "BTCUSDC" (-1)) true) {} = none ∧
      ¬ WithheldAtCap sampleContext (samplePosition "BTCUSDC" (-1)) o.side := by
  obtain ⟨o, ho, h⟩ : ∃ o, unstoppedOrder sampleContext
      (sampleBuy (samplePosition "BTCUSDC" (-1)) true) {} = some o ∧
      ¬ WithheldAtCap sampleContext (samplePosition "BTCUSDC" (-1)) o.side :=
    exists_of_any (by decide +kernel)
  exact ⟨o, ho, by decide +kernel, h⟩

/-- The buy of a flat position at the cap of zero is withheld only if `stop_buy` happens to hold
`true`; here it does. -/
theorem capGate_iff_flat :
    ∃ o, unstoppedOrder { sampleContext with instConfig.maxPosition := 0 }
        (sampleBuy (samplePosition "BTCUSDC" 0) true) {} = some o ∧
      writtenOrder { sampleContext with instConfig.maxPosition := 0 }
        (sampleBuy (samplePosition "BTCUSDC" 0) true) {} = none := by
  obtain ⟨o, ho, hside⟩ : ∃ o, unstoppedOrder { sampleContext with instConfig.maxPosition := 0 }
      (sampleBuy (samplePosition "BTCUSDC" 0) true) {} = some o ∧ o.side = .buy :=
    exists_of_any (by decide +kernel)
  have hcap : WithheldAtCap { sampleContext with instConfig.maxPosition := 0 }
      (samplePosition "BTCUSDC" 0) o.side := by
    rw [hside]
    decide +kernel
  refine ⟨o, ho, ((capGate_iff ho rfl).mpr (Or.inr (Or.inr ?_))).mpr hcap⟩
  decide +kernel

end UmTaker.Actuary
