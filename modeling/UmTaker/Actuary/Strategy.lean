import UmTaker.Actuary.Account
import UmTaker.Actuary.GlobalContext
import UmTaker.Common.Tools
import UmTaker.General.LoopBody

/-!
# The strategy

`calculate_signal_make_order`: the loop that compares the benchmark's and the follower's prices of
one asset and writes an order for the follower's instrument into its slot. An iteration loads the
tickers, thresholds and the position, leaving by `continue` when one is missing, old or expired;
it then sizes and prices the order of the side that is signalled, and writes it if nothing stops
it.

## Main definitions

* `StrategyContext`, `strategyContext`: what the loop of an asset is started with
* `LoopState`, `Snapshot`: what an iteration keeps, and what it reads
* `loadMarket`: the checks an iteration makes first
* `buyQuote`, `sellQuote`: the size and price of an order
* `calculateSignalMakeOrder`: one iteration
* `writtenOrder`: the order it writes

## Main results

* `loadMarket_ends`: an iteration goes on exactly when its inputs are usable
* `writtenOrder_eq_some`: what an iteration writes
-/

namespace UmTaker.Actuary

open LoopBody Shm

/-! ## The context of a loop -/

/-- What the loop of one asset is started with. -/
structure StrategyContext where
  config : ActuaryConfig
  followerInstId : String
  exchangeInfo : ExchangeInfoLite
  instConfig : InstConfigItem

/-- The index of a name, or `-1`. -/
def shmIndex (mapping : StringMap ℤ) (name : String) : ℤ := (mapping name).getD (-1)

/-- What precedes the loop; without exchange information, slots or settings the process exits. -/
def strategyContext (config : ActuaryConfig) (context : GlobalContext) (baseAsset : String) :
    Option StrategyContext := do
  let benchmarkInstId := baseAsset ++ config.benchmarkQuoteAsset
  let followerInstId := baseAsset ++ config.followerQuoteAsset
  let exchangeInfo ← context.followerExchangeInfo followerInstId
  if shmIndex context.shmBenchmarkTickerMapping benchmarkInstId < 0 ∨
      shmIndex context.shmFollowerTickerMapping followerInstId < 0 ∨
      shmIndex context.shmThresholdMapping baseAsset < 0 ∨
      shmIndex context.shmOrderMapping followerInstId < 0 then
    none
  else
    let instConfig ← context.followerInstConfig baseAsset
    pure ⟨config, followerInstId, exchangeInfo, instConfig⟩

namespace StrategyContext

variable (ctx : StrategyContext)

/-- Positions are only closed, by configuration or for this instrument. -/
def closeOnly : Bool := ctx.config.makePositionCloseOnly || ctx.exchangeInfo.positionCloseOnly

/-- The size of an order before it is limited to the position. -/
def orderSize : ℚ := ctx.instConfig.orderSize * ctx.config.orderSizeZoom

/-- The position from which on no order may enlarge it. -/
def positionCap : ℚ := ctx.instConfig.maxPosition * ctx.config.maxPositionZoom

end StrategyContext

/-! ## What an iteration keeps and reads -/

/-- The variables that live across iterations. -/
structure LoopState where
  latestBuyOrderPrice : ℚ := 0
  latestBuyOrderMillis : ℕ := 0
  latestSellOrderPrice : ℚ := 0
  latestSellOrderMillis : ℕ := 0
  benchmarkTickerVersion : ℤ := 0
  followerTickerVersion : ℤ := 0
  earlyRunVersion : ℤ := 0
  benchmarkBetaVersion : ℤ := 0
  followerBetaVersion : ℤ := 0
  deriving DecidableEq

/-- What an iteration reads: the clocks, the slots, the account stores and the stop flags. -/
structure Snapshot where
  now : ℕ
  nowMicros : ℕ
  benchmarkTicker : Option TickerInfoShm
  followerTicker : Option TickerInfoShm
  earlyRun : Option EarlyRunThresholdShm
  benchmarkBeta : Option BetaThresholdShm
  followerBeta : Option BetaThresholdShm
  position : Option AccountPositionInfo
  positionThreshold : Option PositionThresholdInfo
  configMakeOrder : Bool
  configMakeOpenPositionOrder : Bool
  /-- the clock read for the client order id -/
  clientIdMillis : ℕ
  /-- the update time of the order slot when it is written -/
  slotUpdateTime : ℤ
  /-- what the memory of `stop_buy` holds when the iteration begins -/
  stopBuyMemory : Bool

/-- What the checks of an iteration let through. -/
structure Market where
  benchmark : TickerInfoShm
  follower : TickerInfoShm
  earlyRun : EarlyRunThresholdShm
  benchmarkBeta : BetaThresholdShm
  followerBeta : BetaThresholdShm
  position : AccountPositionInfo
  positionReduceRatio : ℚ
  tickerDelayMillis : ℤ

/-! ## Loading the market -/

/-- The delay of the follower's ticker, or zero for one stamped later than now. -/
def tickerDelayMillis (now : ℕ) (follower : TickerInfoShm) : ℤ :=
  if u64 follower.updateTime ≤ now then int32 (now - u64 follower.updateTime) else 0

/-- The ratio by which the position shifts the thresholds. -/
def positionReduceRatio (config : ActuaryConfig) (threshold : Option PositionThresholdInfo) : ℚ :=
  if config.enablePositionThreshold then (threshold.map (·.positionReduceRatio)).getD 0 else 0

/-- The tickers: present, no older than the last seen, and one of them new that may trigger. -/
def loadTickers (ctx : StrategyContext) (snap : Snapshot) :
    Body LoopState (TickerInfoShm × TickerInfoShm) := do
  let benchmark ← Body.require snap.benchmarkTicker
  let follower ← Body.require snap.followerTicker
  Body.skipWhen (benchmark.versionNumber = 0 ∨ follower.versionNumber = 0)
  let st ← Body.read
  Body.skipWhen (benchmark.versionNumber < st.benchmarkTickerVersion ∨
    follower.versionNumber < st.followerTickerVersion)
  -- the versions are kept also by an iteration that then goes no further
  Body.modify fun st =>
    { st with
      benchmarkTickerVersion := max st.benchmarkTickerVersion benchmark.versionNumber
      followerTickerVersion := max st.followerTickerVersion follower.versionNumber }
  Body.skipWhen
    ((ctx.config.enableBenchmarkTickerTrigger = false ∨
        ¬ st.benchmarkTickerVersion < benchmark.versionNumber) ∧
      (ctx.config.enableFollowerTickerTrigger = false ∨
        ¬ st.followerTickerVersion < follower.versionNumber))
  pure (benchmark, follower)

/-- The thresholds: present, and none older than the last seen. -/
def loadThresholds (snap : Snapshot) :
    Body LoopState (EarlyRunThresholdShm × BetaThresholdShm × BetaThresholdShm) := do
  let earlyRun ← Body.require snap.earlyRun
  Body.skipWhen (earlyRun.versionNumber = 0)
  let benchmarkBeta ← Body.require snap.benchmarkBeta
  Body.skipWhen (benchmarkBeta.versionNumber = 0)
  let followerBeta ← Body.require snap.followerBeta
  Body.skipWhen (followerBeta.versionNumber = 0)
  let st ← Body.read
  Body.modify fun st =>
    { st with
      earlyRunVersion := max st.earlyRunVersion earlyRun.versionNumber
      benchmarkBetaVersion := max st.benchmarkBetaVersion benchmarkBeta.versionNumber
      followerBetaVersion := max st.followerBetaVersion followerBeta.versionNumber }
  Body.skipWhen (benchmarkBeta.versionNumber < st.benchmarkBetaVersion ∨
    followerBeta.versionNumber < st.followerBetaVersion ∨
    earlyRun.versionNumber < st.earlyRunVersion)
  pure (earlyRun, benchmarkBeta, followerBeta)

/-- A stamp and its validity lie before now. -/
def Expired (now : ℕ) (stamp : ℤ) (validity : ℕ) : Prop := u64 (stamp + validity) < now

instance (now : ℕ) (stamp : ℤ) (validity : ℕ) : Decidable (Expired now stamp validity) :=
  inferInstanceAs (Decidable (_ < _))

/-- Everything an iteration needs before it looks for a signal. -/
def loadMarket (ctx : StrategyContext) (snap : Snapshot) : Body LoopState Market := do
  let (benchmark, follower) ← loadTickers ctx snap
  let (earlyRun, benchmarkBeta, followerBeta) ← loadThresholds snap
  Body.skipWhen
    (Expired snap.now benchmark.updateTime ctx.config.benchmarkTickerValidityMillis ∨
      Expired snap.now follower.updateTime ctx.config.followerTickerValidityMillis)
  Body.skipWhen
    (Expired snap.now benchmarkBeta.timeMills ctx.config.thresholdValidityMillis ∨
      Expired snap.now followerBeta.timeMills ctx.config.thresholdValidityMillis ∨
      Expired snap.now earlyRun.timeMills ctx.config.thresholdValidityMillis)
  let position ← Body.require snap.position
  Body.skipWhen (ctx.closeOnly = true ∧ position.positionAmount = 0)
  pure
    { benchmark, follower, earlyRun, benchmarkBeta, followerBeta, position
      positionReduceRatio := positionReduceRatio ctx.config snap.positionThreshold
      tickerDelayMillis := tickerDelayMillis snap.now follower }

/-! ## Signals -/

/-- The notional on one side of the benchmark is large enough, also against the other side of the
follower. -/
def SizeEnough (ctx : StrategyContext) (benchmarkNotional followerNotional : ℚ) : Prop :=
  ctx.config.enableTickerSizeCompare = false ∨
    (ctx.instConfig.minTickerNotional ≤ benchmarkNotional ∧
      followerNotional * ctx.instConfig.minTickerNotionalMultiple ≤ benchmarkNotional)

/-- The benchmark's bid is so high that the follower's ask is cheap. -/
def BuySignal (ctx : StrategyContext) (m : Market) : Prop :=
  m.follower.askPrice + m.earlyRun.bidAskMedian ≤
      m.benchmark.bidPrice /
        (1 + (m.benchmarkBeta.bidBetaThreshold + m.followerBeta.askBetaThreshold) *
          (1 + m.positionReduceRatio)) ∧
    SizeEnough ctx (m.benchmark.bidPrice * m.benchmark.bidSize)
      (m.follower.askPrice * m.follower.askSize)

/-- The benchmark's ask is so low that the follower's bid is dear. -/
def SellSignal (ctx : StrategyContext) (m : Market) : Prop :=
  m.benchmark.askPrice *
        (1 + (m.benchmarkBeta.askBetaThreshold + m.followerBeta.bidBetaThreshold) *
          (1 - m.positionReduceRatio)) ≤
      m.follower.bidPrice + m.earlyRun.askBidMedian ∧
    SizeEnough ctx (m.benchmark.askPrice * m.benchmark.askSize)
      (m.follower.bidPrice * m.follower.bidSize)

instance (ctx : StrategyContext) (a b : ℚ) : Decidable (SizeEnough ctx a b) :=
  inferInstanceAs (Decidable (_ ∨ _))

instance (ctx : StrategyContext) (m : Market) : Decidable (BuySignal ctx m) :=
  inferInstanceAs (Decidable (_ ∧ _))

instance (ctx : StrategyContext) (m : Market) : Decidable (SellSignal ctx m) :=
  inferInstanceAs (Decidable (_ ∧ _))

/-! ## Size and price -/

/-- The two stop flags of an iteration. -/
structure StopFlags where
  stopBuy : Bool
  stopSell : Bool

/-- The stop flags at the position cap. Only `stop_sell` starts out false; `stop_buy` starts with
what its memory holds. -/
def stopFlags (ctx : StrategyContext) (position : AccountPositionInfo) (stopBuyMemory : Bool) :
    StopFlags :=
  if position.positionAmountAbs ≥ ctx.positionCap then
    if position.positionSide = .long then
      { stopBuy := true, stopSell := false }
    else
      { stopBuy := stopBuyMemory, stopSell := true }
  else
    { stopBuy := stopBuyMemory, stopSell := false }

/-- What an order is made with. -/
structure Quote where
  side : OrderSide
  volume : ℚ
  positionClose : Bool
  reduceOnly : ℤ
  price : ℚ
  priceIsAdjusted : Bool

/-- The volume of an order, whether it closes the position, and whether it may only reduce it.
The order closes the positions of one side; it is limited to the position when positions are only
closed. -/
def sizing (ctx : StrategyContext) (position : AccountPositionInfo) (closes : PositionSide) :
    ℚ × Bool × ℤ :=
  if position.positionSide = closes then
    -- the size is cut to the position here only, so that the order does not cross its side
    if ctx.closeOnly = true ∧ ctx.orderSize > position.positionAmountAbs then
      (position.positionAmountAbs, true, 1)
    else
      (ctx.orderSize, true, 0)
  else
    (ctx.orderSize, false, 0)

/-- The price of an order: the original price, unless a profit margin is set and the threshold is
on the safer side of it; either is cut to the price precision. -/
def pricing (ctx : StrategyContext) (original threshold : ℚ) (safer : ℚ → ℚ → Prop)
    [∀ a b, Decidable (safer a b)] : ℚ × Bool :=
  let precision := ctx.exchangeInfo.pricePrecision
  let originalPrice := decimalProcess original precision
  -- the comparison is with the price already cut; the threshold is cut after it
  if ctx.config.orderPriceMargin > 0 ∧ safer threshold originalPrice then
    (decimalProcess threshold precision, true)
  else
    (originalPrice, false)

/-- `pricing` with the integers that the prices are cut by: it has no defined value when one of them
does not fit. -/
def pricingSigned (ctx : StrategyContext) (original threshold : ℚ) (safer : ℚ → ℚ → Prop)
    [∀ a b, Decidable (safer a b)] : Option (ℚ × Bool) := do
  let precision := ctx.exchangeInfo.pricePrecision
  let originalPrice ← decimalProcessSigned original precision
  if ctx.config.orderPriceMargin > 0 ∧ safer threshold originalPrice then do
    let adjustedPrice ← decimalProcessSigned threshold precision
    pure (adjustedPrice, true)
  else
    pure (originalPrice, false)

/-- The prices that an order is priced with can be cut. -/
def PricesFit (ctx : StrategyContext) (original threshold : ℚ) (safer : ℚ → ℚ → Prop) : Prop :=
  CutFits ctx.exchangeInfo.pricePrecision original ∧
    (ctx.config.orderPriceMargin > 0 ∧
        safer threshold (decimalProcess original ctx.exchangeInfo.pricePrecision) →
      CutFits ctx.exchangeInfo.pricePrecision threshold)

/-- **A price has a value** exactly when the prices can be cut, and then it is that of `pricing`. -/
theorem pricingSigned_eq_some_iff {ctx : StrategyContext} {original threshold : ℚ}
    {safer : ℚ → ℚ → Prop} [∀ a b, Decidable (safer a b)] {price : ℚ × Bool} :
    pricingSigned ctx original threshold safer = some price ↔
      PricesFit ctx original threshold safer ∧ price = pricing ctx original threshold safer := by
  simp only [pricingSigned, pricing, PricesFit, Option.bind_eq_bind, Option.bind_eq_some_iff,
    decimalProcessSigned_eq_some_iff]
  constructor
  · rintro ⟨_, ⟨hfits, rfl⟩, h⟩
    split_ifs at h ⊢ with hsafer
    · obtain ⟨_, hcut, hprice⟩ := Option.bind_eq_some_iff.mp h
      obtain ⟨hthreshold, rfl⟩ := decimalProcessSigned_eq_some_iff.mp hcut
      exact ⟨⟨hfits, fun _ => hthreshold⟩, (Option.some.inj hprice).symm⟩
    · exact ⟨⟨hfits, fun h => absurd h hsafer⟩, (Option.some.inj h).symm⟩
  · rintro ⟨⟨hfits, hthreshold⟩, rfl⟩
    refine ⟨_, ⟨hfits, rfl⟩, ?_⟩
    split_ifs with hsafer
    · rw [Option.bind_eq_some_iff]
      exact ⟨_, decimalProcessSigned_eq_some_iff.mpr ⟨hthreshold hsafer, rfl⟩, rfl⟩
    · rfl

/-- The price above which a buy gives up its profit. -/
def buyThreshold (ctx : StrategyContext) (benchmark : TickerInfoShm)
    (earlyRun : EarlyRunThresholdShm) : ℚ :=
  benchmark.bidPrice / (1 + ctx.instConfig.beta) - earlyRun.bidAskMedian

/-- The price below which a sell gives up its profit. -/
def sellThreshold (ctx : StrategyContext) (benchmark : TickerInfoShm)
    (earlyRun : EarlyRunThresholdShm) : ℚ :=
  benchmark.askPrice * (1 + ctx.instConfig.beta) - earlyRun.askBidMedian

/-- The buy: it closes shorts, and the threshold bounds its price from above. -/
def buyQuote (ctx : StrategyContext) (m : Market) : Quote :=
  let (volume, positionClose, reduceOnly) := sizing ctx m.position .short
  let (price, priceIsAdjusted) :=
    pricing ctx (m.follower.askPrice * (1 + ctx.config.orderPriceMargin))
      (buyThreshold ctx m.benchmark m.earlyRun) (· < ·)
  { side := .buy, volume, positionClose, reduceOnly, price, priceIsAdjusted }

/-- The sell: it closes longs, and the threshold bounds its price from below. -/
def sellQuote (ctx : StrategyContext) (m : Market) : Quote :=
  let (volume, positionClose, reduceOnly) := sizing ctx m.position .long
  let (price, priceIsAdjusted) :=
    pricing ctx (m.follower.bidPrice * (1 - ctx.config.orderPriceMargin))
      (sellThreshold ctx m.benchmark m.earlyRun) (· > ·)
  { side := .sell, volume, positionClose, reduceOnly, price, priceIsAdjusted }

/-- The price of a sell, where it has a value. -/
def sellPriceSigned (ctx : StrategyContext) (benchmark follower : TickerInfoShm)
    (earlyRun : EarlyRunThresholdShm) : Option ℚ :=
  (pricingSigned ctx (follower.bidPrice * (1 - ctx.config.orderPriceMargin))
    (sellThreshold ctx benchmark earlyRun) (· > ·)).map Prod.fst

/-- The prices of the side that is signalled can be cut. -/
def pricesDefined (ctx : StrategyContext) (m : Market) : Bool :=
  if BuySignal ctx m then
    (pricingSigned ctx (m.follower.askPrice * (1 + ctx.config.orderPriceMargin))
      (buyThreshold ctx m.benchmark m.earlyRun) (· < ·)).isSome
  else if SellSignal ctx m then
    (sellPriceSigned ctx m.benchmark m.follower m.earlyRun).isSome
  else true

/-! ## Making an order -/

/-- The order of a quote. -/
def orderOf (ctx : StrategyContext) (snap : Snapshot) (m : Market) (q : Quote) : OrderShm where
  instId := ctx.followerInstId
  type := .limit
  side := q.side
  posSide := .both
  timeInForce := .ioc
  clientOrderId := genClientOrderId (decide (q.side = .buy)) q.priceIsAdjusted m.tickerDelayMillis
    q.positionClose snap.clientIdMillis
  price := q.price
  volume := q.volume
  reduceOnly := q.reduceOnly
  updateTime := snap.nowMicros

/-- The pause after which a limited order may repeat its price. -/
def smallPauseTimeMillis (config : ActuaryConfig) : ℤ :=
  max (int32 (Int.tdiv (config.samePricePauseTimeMillis * 90) 100)) 50

/-- An order may be made at this price: it differs from the last, or the pause is over. -/
def samePriceMakeOrder (config : ActuaryConfig) (q : Quote) (latestPrice : ℚ)
    (latestMillis now : ℕ) : Bool :=
  if q.price = latestPrice ∧ now < u64 (latestMillis + config.samePricePauseTimeMillis) then
    if q.reduceOnly = 1 then
      decide (u64 (latestMillis + smallPauseTimeMillis config) ≤ now)
    else
      false
  else
    true

/-- The order goes to the slot: its side is not stopped, orders can be made, its price is not held
back, and it closes the position or may open one. -/
def writeGate (ctx : StrategyContext) (snap : Snapshot) (q : Quote) (stop samePrice : Bool) :
    Bool :=
  !stop && snap.configMakeOrder && samePrice &&
    (q.positionClose ||
      (!ctx.exchangeInfo.positionCloseOnly && snap.configMakeOpenPositionOrder))

/-- `order_shm_writer_update`, as to whether the slot takes the order. -/
def updateSlot (slotUpdateTime : ℤ) (order : OrderShm) : Option OrderShm :=
  if slotUpdateTime < order.updateTime then some order else none

/-- Make an order of one side, with its variables: the price and time of the last one. -/
def makeOrder (ctx : StrategyContext) (snap : Snapshot) (m : Market) (q : Quote) (stop : Bool)
    (latest : LoopState → ℚ × ℕ) (setLatest : ℚ → ℕ → LoopState → LoopState) :
    Body LoopState (Option OrderShm) := do
  let st ← Body.read
  let samePrice := samePriceMakeOrder ctx.config q (latest st).1 (latest st).2 snap.now
  Body.modify fun st => if samePrice then setLatest q.price snap.now st else st
  pure
    (if writeGate ctx snap q stop samePrice then
      updateSlot snap.slotUpdateTime (orderOf ctx snap m q)
    else
      none)

/-- The branch of a signalled buy. -/
def makeBuyOrder (ctx : StrategyContext) (snap : Snapshot) (m : Market) (stopBuy : Bool) :
    Body LoopState (Option OrderShm) :=
  makeOrder ctx snap m (buyQuote ctx m) stopBuy
    (fun st => (st.latestBuyOrderPrice, st.latestBuyOrderMillis))
    (fun price millis st =>
      { st with latestBuyOrderPrice := price, latestBuyOrderMillis := millis })

/-- The branch of a signalled sell. -/
def makeSellOrder (ctx : StrategyContext) (snap : Snapshot) (m : Market) (stopSell : Bool) :
    Body LoopState (Option OrderShm) :=
  makeOrder ctx snap m (sellQuote ctx m) stopSell
    (fun st => (st.latestSellOrderPrice, st.latestSellOrderMillis))
    (fun price millis st =>
      { st with latestSellOrderPrice := price, latestSellOrderMillis := millis })

/-- The order of a loaded market, under the stop flags. A buy is looked for first. -/
def makeSignalledOrder (ctx : StrategyContext) (snap : Snapshot) (m : Market)
    (stop : StopFlags) : Body LoopState (Option OrderShm) :=
  if BuySignal ctx m then makeBuyOrder ctx snap m stop.stopBuy
  else if SellSignal ctx m then makeSellOrder ctx snap m stop.stopSell
  else pure none

/-- An iteration, with its stop flags as a function of the position. -/
def iterationWith (ctx : StrategyContext) (snap : Snapshot)
    (stop : AccountPositionInfo → StopFlags) : Body LoopState (Option OrderShm) := do
  let m ← loadMarket ctx snap
  makeSignalledOrder ctx snap m (stop m.position)

/-- One iteration of `calculate_signal_make_order`. -/
def calculateSignalMakeOrder (ctx : StrategyContext) (snap : Snapshot) :
    Body LoopState (Option OrderShm) :=
  iterationWith ctx snap fun position => stopFlags ctx position snap.stopBuyMemory

/-- The order the iteration writes into the slot. -/
def writtenOrder (ctx : StrategyContext) (snap : Snapshot) (st : LoopState) : Option OrderShm :=
  (calculateSignalMakeOrder ctx snap st).1.join

/-- The order the iteration would write if neither side were stopped. -/
def unstoppedOrder (ctx : StrategyContext) (snap : Snapshot) (st : LoopState) : Option OrderShm :=
  (iterationWith ctx snap (fun _ => { stopBuy := false, stopSell := false }) st).1.join

/-! ## What an iteration does -/

/-- The versions after an iteration that used the market. -/
def LoopState.seen (st : LoopState) (m : Market) : LoopState :=
  { st with
    benchmarkTickerVersion := m.benchmark.versionNumber
    followerTickerVersion := m.follower.versionNumber
    earlyRunVersion := m.earlyRun.versionNumber
    benchmarkBetaVersion := m.benchmarkBeta.versionNumber
    followerBetaVersion := m.followerBeta.versionNumber }

/-- The market is what the snapshot shows, and every check lets it through. -/
structure Usable (ctx : StrategyContext) (snap : Snapshot) (st : LoopState) (m : Market) :
    Prop where
  benchmark : snap.benchmarkTicker = some m.benchmark
  follower : snap.followerTicker = some m.follower
  earlyRun : snap.earlyRun = some m.earlyRun
  benchmarkBeta : snap.benchmarkBeta = some m.benchmarkBeta
  followerBeta : snap.followerBeta = some m.followerBeta
  position : snap.position = some m.position
  reduceRatio : m.positionReduceRatio = positionReduceRatio ctx.config snap.positionThreshold
  delay : m.tickerDelayMillis = tickerDelayMillis snap.now m.follower
  tickerWritten : m.benchmark.versionNumber ≠ 0 ∧ m.follower.versionNumber ≠ 0
  thresholdWritten : m.earlyRun.versionNumber ≠ 0 ∧ m.benchmarkBeta.versionNumber ≠ 0 ∧
    m.followerBeta.versionNumber ≠ 0
  tickerNotOld : st.benchmarkTickerVersion ≤ m.benchmark.versionNumber ∧
    st.followerTickerVersion ≤ m.follower.versionNumber
  thresholdNotOld : st.benchmarkBetaVersion ≤ m.benchmarkBeta.versionNumber ∧
    st.followerBetaVersion ≤ m.followerBeta.versionNumber ∧
    st.earlyRunVersion ≤ m.earlyRun.versionNumber
  triggered :
    (ctx.config.enableBenchmarkTickerTrigger = true ∧
      st.benchmarkTickerVersion < m.benchmark.versionNumber) ∨
    (ctx.config.enableFollowerTickerTrigger = true ∧
      st.followerTickerVersion < m.follower.versionNumber)
  tickerFresh :
    ¬ Expired snap.now m.benchmark.updateTime ctx.config.benchmarkTickerValidityMillis ∧
    ¬ Expired snap.now m.follower.updateTime ctx.config.followerTickerValidityMillis
  thresholdFresh :
    ¬ Expired snap.now m.benchmarkBeta.timeMills ctx.config.thresholdValidityMillis ∧
    ¬ Expired snap.now m.followerBeta.timeMills ctx.config.thresholdValidityMillis ∧
    ¬ Expired snap.now m.earlyRun.timeMills ctx.config.thresholdValidityMillis
  positionLeft : ctx.closeOnly = true → m.position.positionAmount ≠ 0

section Iteration

variable {ctx : StrategyContext} {snap : Snapshot} {st st' : LoopState} {m : Market}

/-- An enabled trigger fires, unless neither does. -/
theorem triggered_iff {enable enable' : Bool} {old new old' new' : ℤ} :
    ¬ ((enable = false ∨ new ≤ old) ∧ (enable' = false ∨ new' ≤ old')) ↔
      (enable = true ∧ old < new) ∨ (enable' = true ∧ old' < new') := by
  rw [not_and_or, not_or, not_or, not_le, not_le, Bool.not_eq_false, Bool.not_eq_false]

theorem loadTickers_ends {p : TickerInfoShm × TickerInfoShm} :
    Body.Ends (loadTickers ctx snap) st p st' ↔
      (snap.benchmarkTicker = some p.1 ∧ snap.followerTicker = some p.2) ∧
      (p.1.versionNumber ≠ 0 ∧ p.2.versionNumber ≠ 0) ∧
      (st.benchmarkTickerVersion ≤ p.1.versionNumber ∧
        st.followerTickerVersion ≤ p.2.versionNumber) ∧
      ((ctx.config.enableBenchmarkTickerTrigger = true ∧
          st.benchmarkTickerVersion < p.1.versionNumber) ∨
        (ctx.config.enableFollowerTickerTrigger = true ∧
          st.followerTickerVersion < p.2.versionNumber)) ∧
      st' = { st with
        benchmarkTickerVersion := p.1.versionNumber
        followerTickerVersion := p.2.versionNumber } := by
  obtain ⟨b, f⟩ := p
  simp only [loadTickers, Body.bind_ends, Body.require_ends, Body.skipWhen_ends, Body.read_ends,
    Body.modify_ends, Body.pure_ends, not_lt, triggered_iff, not_or, Prod.mk.injEq]
  constructor
  · rintro ⟨_, _, ⟨hb, rfl⟩, _, _, ⟨hf, rfl⟩, _, _, ⟨hv, rfl⟩, _, _, ⟨rfl, rfl⟩, _, _, ⟨ho, rfl⟩,
      _, _, rfl, _, _, ⟨ht, rfl⟩, ⟨rfl, rfl⟩, rfl⟩
    refine ⟨⟨hb, hf⟩, hv, ho, ht, ?_⟩
    rw [max_eq_right ho.1, max_eq_right ho.2]
  · rintro ⟨⟨hb, hf⟩, hv, ho, ht, rfl⟩
    refine ⟨_, _, ⟨hb, rfl⟩, _, _, ⟨hf, rfl⟩, (), _, ⟨hv, rfl⟩, _, _, ⟨rfl, rfl⟩, (), _, ⟨ho, rfl⟩,
      (), _, rfl, (), _, ⟨ht, rfl⟩, ⟨rfl, rfl⟩, ?_⟩
    rw [max_eq_right ho.1, max_eq_right ho.2]

theorem loadThresholds_ends {p : EarlyRunThresholdShm × BetaThresholdShm × BetaThresholdShm} :
    Body.Ends (loadThresholds snap) st p st' ↔
      (snap.earlyRun = some p.1 ∧ snap.benchmarkBeta = some p.2.1 ∧
        snap.followerBeta = some p.2.2) ∧
      (p.1.versionNumber ≠ 0 ∧ p.2.1.versionNumber ≠ 0 ∧ p.2.2.versionNumber ≠ 0) ∧
      (st.benchmarkBetaVersion ≤ p.2.1.versionNumber ∧
        st.followerBetaVersion ≤ p.2.2.versionNumber ∧
        st.earlyRunVersion ≤ p.1.versionNumber) ∧
      st' = { st with
        earlyRunVersion := p.1.versionNumber
        benchmarkBetaVersion := p.2.1.versionNumber
        followerBetaVersion := p.2.2.versionNumber } := by
  obtain ⟨e, b, f⟩ := p
  simp only [loadThresholds, Body.bind_ends, Body.require_ends, Body.skipWhen_ends,
    Body.read_ends, Body.modify_ends, Body.pure_ends, not_or, not_lt, Prod.mk.injEq]
  constructor
  · rintro ⟨_, _, ⟨he, rfl⟩, _, _, ⟨hev, rfl⟩, _, _, ⟨hb, rfl⟩, _, _, ⟨hbv, rfl⟩, _, _, ⟨hf, rfl⟩,
      _, _, ⟨hfv, rfl⟩, _, _, ⟨rfl, rfl⟩, _, _, rfl, _, _, ⟨ho, rfl⟩, ⟨rfl, rfl, rfl⟩, rfl⟩
    refine ⟨⟨he, hb, hf⟩, ⟨hev, hbv, hfv⟩, ho, ?_⟩
    rw [max_eq_right ho.1, max_eq_right ho.2.1, max_eq_right ho.2.2]
  · rintro ⟨⟨he, hb, hf⟩, ⟨hev, hbv, hfv⟩, ho, rfl⟩
    refine ⟨_, _, ⟨he, rfl⟩, (), _, ⟨hev, rfl⟩, _, _, ⟨hb, rfl⟩, (), _, ⟨hbv, rfl⟩, _, _,
      ⟨hf, rfl⟩, (), _, ⟨hfv, rfl⟩, _, _, ⟨rfl, rfl⟩, (), _, rfl, (), _, ⟨ho, rfl⟩,
      ⟨rfl, rfl, rfl⟩, ?_⟩
    rw [max_eq_right ho.1, max_eq_right ho.2.1, max_eq_right ho.2.2]

/-- **An iteration goes on** exactly when its inputs are usable; it has then seen their
versions. -/
theorem loadMarket_ends :
    Body.Ends (loadMarket ctx snap) st m st' ↔ Usable ctx snap st m ∧ st' = st.seen m := by
  simp only [loadMarket, Body.bind_ends, Body.skipWhen_ends, Body.require_ends, Body.pure_ends,
    loadTickers_ends, loadThresholds_ends, not_or, not_and]
  constructor
  · rintro ⟨⟨b, f⟩, _, ⟨⟨hb, hf⟩, htv, hto, ht, rfl⟩, ⟨e, bb, fb⟩, _,
      ⟨⟨he, hbb, hfb⟩, hev, heo, rfl⟩, _, _, ⟨htf, rfl⟩, _, _, ⟨hef, rfl⟩, p, _, ⟨hp, rfl⟩, _, _,
      ⟨hleft, rfl⟩, rfl, rfl⟩
    exact ⟨⟨hb, hf, he, hbb, hfb, hp, rfl, rfl, htv, hev, hto, heo, ht, htf, hef, hleft⟩, rfl⟩
  · rintro ⟨h, rfl⟩
    refine ⟨(m.benchmark, m.follower), _,
      ⟨⟨h.benchmark, h.follower⟩, h.tickerWritten, h.tickerNotOld, h.triggered, rfl⟩,
      (m.earlyRun, m.benchmarkBeta, m.followerBeta), _,
      ⟨⟨h.earlyRun, h.benchmarkBeta, h.followerBeta⟩, h.thresholdWritten, h.thresholdNotOld, rfl⟩,
      (), _, ⟨h.tickerFresh, rfl⟩, (), _, ⟨h.thresholdFresh, rfl⟩, m.position, _,
      ⟨h.position, rfl⟩, (), _, ⟨h.positionLeft, rfl⟩, ?_, rfl⟩
    rw [← h.reduceRatio, ← h.delay]

/-- The snapshot determines the market. -/
theorem Usable.unique {m' : Market} (h : Usable ctx snap st m) (h' : Usable ctx snap st m') :
    m = m' := by
  have hfollower := Option.some.inj (h.follower.symm.trans h'.follower)
  have hdelay := h.delay.trans ((congrArg _ hfollower).trans h'.delay.symm)
  have hratio := h.reduceRatio.trans h'.reduceRatio.symm
  obtain ⟨b, f, e, bb, fb, p, r, d⟩ := m
  obtain ⟨b', f', e', bb', fb', p', r', d'⟩ := m'
  obtain rfl : f = f' := hfollower
  obtain rfl : d = d' := hdelay
  obtain rfl : r = r' := hratio
  obtain rfl : b = b' := Option.some.inj (h.benchmark.symm.trans h'.benchmark)
  obtain rfl : e = e' := Option.some.inj (h.earlyRun.symm.trans h'.earlyRun)
  obtain rfl : bb = bb' := Option.some.inj (h.benchmarkBeta.symm.trans h'.benchmarkBeta)
  obtain rfl : fb = fb' := Option.some.inj (h.followerBeta.symm.trans h'.followerBeta)
  obtain rfl : p = p' := Option.some.inj (h.position.symm.trans h'.position)
  rfl

/-- The quote of the side that is signalled. -/
def signalledQuote (ctx : StrategyContext) (m : Market) : Option Quote :=
  if BuySignal ctx m then some (buyQuote ctx m)
  else if SellSignal ctx m then some (sellQuote ctx m)
  else none

/-- The flag that stops a side. -/
def StopFlags.stops (stop : StopFlags) (side : OrderSide) : Bool :=
  if side = .buy then stop.stopBuy else stop.stopSell

/-- The price of a quote is not held back. -/
def priceFree (ctx : StrategyContext) (snap : Snapshot) (st : LoopState) (q : Quote) : Bool :=
  if q.side = .buy then
    samePriceMakeOrder ctx.config q st.latestBuyOrderPrice st.latestBuyOrderMillis snap.now
  else
    samePriceMakeOrder ctx.config q st.latestSellOrderPrice st.latestSellOrderMillis snap.now

theorem makeOrder_ends {q : Quote} {stop : Bool} {latest : LoopState → ℚ × ℕ}
    {setLatest : ℚ → ℕ → LoopState → LoopState} {o : OrderShm} :
    (∃ st', Body.Ends (makeOrder ctx snap m q stop latest setLatest) st (some o) st') ↔
      writeGate ctx snap q stop
        (samePriceMakeOrder ctx.config q (latest st).1 (latest st).2 snap.now) = true ∧
      snap.slotUpdateTime < snap.nowMicros ∧ o = orderOf ctx snap m q := by
  simp only [makeOrder, Body.bind_ends, Body.read_ends, Body.modify_ends, Body.pure_ends]
  constructor
  · rintro ⟨st', _, _, ⟨rfl, rfl⟩, _, _, rfl, ho, rfl⟩
    split_ifs at ho with hg
    rw [updateSlot] at ho
    split_ifs at ho with hslot
    exact ⟨hg, hslot, Option.some.inj ho⟩
  · rintro ⟨hg, hslot, rfl⟩
    have hnewer : snap.slotUpdateTime < (orderOf ctx snap m q).updateTime := hslot
    refine ⟨_, _, _, ⟨rfl, rfl⟩, (), _, rfl, ?_, rfl⟩
    rw [if_pos hg, updateSlot, if_pos hnewer]

theorem makeSignalledOrder_ends {stop : StopFlags} {o : OrderShm} :
    (∃ st', Body.Ends (makeSignalledOrder ctx snap m stop) st (some o) st') ↔
      ∃ q, signalledQuote ctx m = some q ∧
        writeGate ctx snap q (stop.stops q.side) (priceFree ctx snap st q) = true ∧
        snap.slotUpdateTime < snap.nowMicros ∧ o = orderOf ctx snap m q := by
  unfold makeSignalledOrder signalledQuote
  split_ifs with hbuy hsell
  · rw [makeBuyOrder, makeOrder_ends]
    simp [priceFree, StopFlags.stops, buyQuote]
  · rw [makeSellOrder, makeOrder_ends]
    simp [priceFree, StopFlags.stops, sellQuote]
  · simp

/-- What an iteration writes, under any stop flags. -/
theorem iterationWith_eq_some {stop : AccountPositionInfo → StopFlags} {o : OrderShm} :
    (iterationWith ctx snap stop st).1.join = some o ↔
      ∃ m q, Usable ctx snap st m ∧ signalledQuote ctx m = some q ∧
        writeGate ctx snap q ((stop m.position).stops q.side) (priceFree ctx snap st q) = true ∧
        snap.slotUpdateTime < snap.nowMicros ∧ o = orderOf ctx snap m q := by
  rw [Option.join_eq_some_iff, Body.fst_eq_some]
  simp only [iterationWith, Body.bind_ends, loadMarket_ends]
  constructor
  · rintro ⟨st', m, _, ⟨hm, rfl⟩, ho⟩
    obtain ⟨q, hq⟩ := makeSignalledOrder_ends.mp ⟨st', ho⟩
    exact ⟨m, q, hm, hq⟩
  · rintro ⟨m, q, hm, hq⟩
    obtain ⟨st', ho⟩ : ∃ st', Body.Ends (makeSignalledOrder ctx snap m (stop m.position))
        (st.seen m) (some o) st' := makeSignalledOrder_ends.mpr ⟨q, hq⟩
    exact ⟨st', m, _, ⟨hm, rfl⟩, ho⟩

/-- **What an iteration writes**: the order of the signalled side, when the gate lets it pass and
the slot takes it. -/
theorem writtenOrder_eq_some {o : OrderShm} :
    writtenOrder ctx snap st = some o ↔
      ∃ m q, Usable ctx snap st m ∧ signalledQuote ctx m = some q ∧
        writeGate ctx snap q ((stopFlags ctx m.position snap.stopBuyMemory).stops q.side)
          (priceFree ctx snap st q) = true ∧
        snap.slotUpdateTime < snap.nowMicros ∧ o = orderOf ctx snap m q :=
  iterationWith_eq_some

end Iteration

end UmTaker.Actuary
