import UmTaker.Receiver.OffsetContainer
import UmTaker.Receiver.TickerSubscribe

/-!
# Instrument ids

An instrument id is a base asset followed by the quote asset of its side. Five threads take ids
apart again: the zmq and the udp subscriber, and the calculators of price offsets, early-run
thresholds and beta thresholds. The subscribers and the price offsets ask for both quote assets; the
two thresholds take an id that does not end with the benchmark's for one of the follower.

## Main definitions

* `ReceiverConfig.instId`, `ReceiverConfig.SeparateQuotes`: the id of a base asset on a side, and
  quote assets neither of which ends the other
* `PriceOffsetComposite`, `processTickerInfoPriceOffset`: the offsets by base asset, and what a
  ticker does to them
* `processEarlyRunThresholdCalculate`: a round of the early-run calculator
* `betaInstrument`: a round of the beta calculator up to the extremes it starts from

## Main results

* `instId_routed`: all five recover side and base asset from an id, for every base asset
-/

namespace UmTaker.Receiver

open Shm

/-! ## Ids -/

/-- The other side of the pair. -/
def TickerRole.other : TickerRole → TickerRole
  | .benchmark => .follower
  | .follower => .benchmark

namespace ReceiverConfig

/-- The quote asset of a side. -/
def quoteAsset (config : ReceiverConfig) : TickerRole → String
  | .benchmark => config.benchmarkQuoteAsset
  | .follower => config.followerQuoteAsset

/-- The instrument of a base asset on a side. -/
def instId (config : ReceiverConfig) (role : TickerRole) (baseAsset : String) : String :=
  baseAsset ++ config.quoteAsset role

/-- Neither quote asset is a suffix of the other. -/
structure SeparateQuotes (config : ReceiverConfig) : Prop where
  benchmark : ¬ config.benchmarkQuoteAsset.toList <:+ config.followerQuoteAsset.toList
  follower : ¬ config.followerQuoteAsset.toList <:+ config.benchmarkQuoteAsset.toList

variable (config : ReceiverConfig) (baseAsset : String)

@[simp] theorem benchmark_ends :
    strEndsWith (config.instId .benchmark baseAsset) config.benchmarkQuoteAsset = true :=
  strEndsWith_append baseAsset _

@[simp] theorem follower_ends :
    strEndsWith (config.instId .follower baseAsset) config.followerQuoteAsset = true :=
  strEndsWith_append baseAsset _

/-- Every test for the benchmark's quote asset comes first, so only this one has to fail. -/
theorem SeparateQuotes.follower_not_benchmark {config : ReceiverConfig}
    (h : config.SeparateQuotes) :
    strEndsWith (config.instId .follower baseAsset) config.benchmarkQuoteAsset = false :=
  strEndsWith_append_of_not h.benchmark h.follower baseAsset

@[simp] theorem cutEnd_benchmark :
    cutEnd (config.instId .benchmark baseAsset) config.benchmarkQuoteAsset = baseAsset :=
  cutEnd_append baseAsset _

@[simp] theorem cutEnd_follower :
    cutEnd (config.instId .follower baseAsset) config.followerQuoteAsset = baseAsset :=
  cutEnd_append baseAsset _

end ReceiverConfig

/-- The subscribers take an id for one of its side. -/
theorem tickerRole_instId {config : ReceiverConfig} (h : config.SeparateQuotes) (role : TickerRole)
    (baseAsset : String) : tickerRole config (config.instId role baseAsset) = some role := by
  unfold tickerRole
  cases role with
  | benchmark => simp
  | follower => simp [h.follower_not_benchmark]

/-! ## Price offsets -/

/-- The offsets of each base asset, kept for some seconds. -/
structure PriceOffsetComposite where
  wrapperMap : StringMap PriceOffsetWrapper
  offsetRemainSeconds : ℕ

namespace PriceOffsetComposite

/-- `update_price_offset`: a base asset without a wrapper gets one. -/
def updatePriceOffset (c : PriceOffsetComposite) (baseAsset : String)
    (benchmarkTick followerTick : UmTickerInfo) (now : ℕ) : PriceOffsetComposite :=
  match c.wrapperMap baseAsset with
  | some wrapper =>
    { c with
      wrapperMap := c.wrapperMap.set baseAsset
        (wrapper.updatePriceOffset benchmarkTick followerTick now c.offsetRemainSeconds) }
  | none =>
    -- a new wrapper is stored with its first offset
    let wrapper : PriceOffsetWrapper := {}
    { c with
      wrapperMap := c.wrapperMap.insert baseAsset
        (wrapper.updatePriceOffset benchmarkTick followerTick now c.offsetRemainSeconds) }

/-- `get_price_offset_list`. -/
def getPriceOffsetList (c : PriceOffsetComposite) (baseAsset : String) : List PriceOffset :=
  ((c.wrapperMap baseAsset).map (·.offsetList)).getD []

/-- `get_price_avg_result`. -/
def getPriceAvgResult (c : PriceOffsetComposite) (baseAsset : String) :
    Option PriceOffsetAvgResult :=
  (c.wrapperMap baseAsset).map (·.calculateAvgResult)

/-- What a ticker of one side and the latest of the other, if there is one, mean for the offsets of
their base asset. -/
def updatePair (c : PriceOffsetComposite) (baseAsset : String) (role : TickerRole)
    (tickerInfo : UmTickerInfo) (counterpart : Option UmTickerInfo) (now : ℕ) :
    PriceOffsetComposite :=
  match counterpart, role with
  | none, _ => c
  | some other, .benchmark => c.updatePriceOffset baseAsset tickerInfo other now
  | some other, .follower => c.updatePriceOffset baseAsset other tickerInfo now

end PriceOffsetComposite

/-- The base asset of a ticker, with the tickers of the benchmark and of the follower: the ticker
itself and the latest of the other side, if there is one. -/
def pairTickers (config : ReceiverConfig) (composite : TickerRole → TickerComposite)
    (tickerInfo : UmTickerInfo) : Option (String × UmTickerInfo × UmTickerInfo) :=
  if strEndsWith tickerInfo.instId config.benchmarkQuoteAsset then do
    let baseAsset := cutEnd tickerInfo.instId config.benchmarkQuoteAsset
    let followerInstId := baseAsset ++ config.followerQuoteAsset
    let followerTickerInfo ← (composite .follower).getLastestTicker followerInstId
    pure (baseAsset, tickerInfo, followerTickerInfo)
  -- the benchmark's quote asset is tested first
  else if strEndsWith tickerInfo.instId config.followerQuoteAsset then do
    let baseAsset := cutEnd tickerInfo.instId config.followerQuoteAsset
    let benchmarkInstId := baseAsset ++ config.benchmarkQuoteAsset
    let benchmarkTickerInfo ← (composite .benchmark).getLastestTicker benchmarkInstId
    pure (baseAsset, benchmarkTickerInfo, tickerInfo)
  else none

/-- `process_ticker_info_price_offset`, for one ticker: the offsets after it, and the id passed on
to the early-run calculator. -/
def processTickerInfoPriceOffset (config : ReceiverConfig)
    (composite : TickerRole → TickerComposite) (tickerInfo : UmTickerInfo) (now : ℕ)
    (offsets : PriceOffsetComposite) : PriceOffsetComposite × String :=
  let updated :=
    match pairTickers config composite tickerInfo with
    | some (baseAsset, benchmarkTickerInfo, followerTickerInfo) =>
      offsets.updatePriceOffset baseAsset benchmarkTickerInfo followerTickerInfo now
    | none => offsets
  (updated, tickerInfo.instId)

/-- A ticker changes the offsets of its base asset, together with the latest ticker of the same base
asset on the other side. -/
theorem processTickerInfoPriceOffset_instId {config : ReceiverConfig} (h : config.SeparateQuotes)
    (role : TickerRole) (baseAsset : String) (composite : TickerRole → TickerComposite)
    {tickerInfo : UmTickerInfo} (hid : tickerInfo.instId = config.instId role baseAsset) (now : ℕ)
    (offsets : PriceOffsetComposite) :
    processTickerInfoPriceOffset config composite tickerInfo now offsets =
      (offsets.updatePair baseAsset role tickerInfo
        ((composite role.other).getLastestTicker (config.instId role.other baseAsset)) now,
      config.instId role baseAsset) := by
  have hbenchmark : baseAsset ++ config.benchmarkQuoteAsset = config.instId .benchmark baseAsset :=
    rfl
  have hfollower : baseAsset ++ config.followerQuoteAsset = config.instId .follower baseAsset := rfl
  unfold processTickerInfoPriceOffset pairTickers
  rw [hid]
  cases role with
  | benchmark =>
    simp only [ReceiverConfig.benchmark_ends, ReceiverConfig.cutEnd_benchmark, hfollower, if_true,
      TickerRole.other]
    cases (composite .follower).getLastestTicker (config.instId .follower baseAsset) with
    | none => rfl
    | some other => rfl
  | follower =>
    simp only [h.follower_not_benchmark, ReceiverConfig.follower_ends,
      ReceiverConfig.cutEnd_follower, hbenchmark, Bool.false_eq_true, if_false, if_true,
      TickerRole.other]
    cases (composite .benchmark).getLastestTicker (config.instId .benchmark baseAsset) with
    | none => rfl
    | some other => rfl

/-! ## Early-run thresholds -/

/-- The threshold worked out from the price offsets of a base asset. -/
structure EarlyRunThreshold where
  avgPriceDiffMedian : ℚ := 0
  bidAskPriceDiffMedian : ℚ := 0
  askBidPriceDiffMedian : ℚ := 0
  priceOffsetLength : ℕ := 0
  currentTimeMills : ℕ := 0

/-- The record that goes to the slot of the base asset. -/
def EarlyRunThreshold.shm (threshold : EarlyRunThreshold) : EarlyRunThresholdShm where
  avgMedian := threshold.avgPriceDiffMedian
  bidAskMedian := threshold.bidAskPriceDiffMedian
  askBidMedian := threshold.askBidPriceDiffMedian
  timeMills := threshold.currentTimeMills

/-- The settings of the calculators: the median of the offsets or their mean, and the number of
offsets or tickers they wait for. -/
structure CalculationConfig where
  earlyRunMedian : Bool
  calculateSmaIntervalSeconds : ℕ

/-- The threshold of a base asset, unless it has too few offsets. -/
def earlyRunThreshold (calculation : CalculationConfig) (offsets : PriceOffsetComposite)
    (baseAsset : String) (now : ℕ) : Option EarlyRunThreshold :=
  if calculation.earlyRunMedian then
    let offsetList := offsets.getPriceOffsetList baseAsset
    if offsetList.length < calculation.calculateSmaIntervalSeconds then none
    else
      let median (kind : DiffKind) : ℚ :=
        ((offsetList.map (·.diff kind)).mergeSort (fun a b => decide (a ≤ b))).getD
          (offsetList.length / 2) 0
      some
        { avgPriceDiffMedian := median .avg
          bidAskPriceDiffMedian := median .bidAsk
          askBidPriceDiffMedian := median .askBid
          priceOffsetLength := offsetList.length
          currentTimeMills := now }
  else do
    let avgResult ← offsets.getPriceAvgResult baseAsset
    if avgResult.priceOffsetLength < calculation.calculateSmaIntervalSeconds then none
    else
      some
        { avgPriceDiffMedian := avgResult.avgAvgPriceDiff
          bidAskPriceDiffMedian := avgResult.avgBidAskPriceDiff
          askBidPriceDiffMedian := avgResult.avgAskBidPriceDiff
          priceOffsetLength := avgResult.priceOffsetLength
          currentTimeMills := now }

/-- A threshold stored under its base asset, with the slot it is published to, if there is one. -/
structure StoredThreshold where
  baseAsset : String
  threshold : EarlyRunThreshold
  published : Option (ℤ × EarlyRunThresholdShm)

/-- Store a threshold under a base asset. -/
def EarlyRunThreshold.store (context : GlobalContext) (baseAsset : String)
    (threshold : EarlyRunThreshold) : StoredThreshold where
  baseAsset := baseAsset
  threshold := threshold
  published := (context.shmThresholdMapping baseAsset).map fun address => (address, threshold.shm)

/-- `process_early_run_threshold_calculate`, for one id. -/
def processEarlyRunThresholdCalculate (config : ReceiverConfig) (calculation : CalculationConfig)
    (context : GlobalContext) (offsets : PriceOffsetComposite) (instId : String) (now : ℕ) :
    Option StoredThreshold :=
  let baseAsset :=
    if strEndsWith instId config.benchmarkQuoteAsset then
      cutEnd instId config.benchmarkQuoteAsset
    else cutEnd instId config.followerQuoteAsset
  (earlyRunThreshold calculation offsets baseAsset now).map (·.store context baseAsset)

/-! ## Beta thresholds -/

/-- The settings of an `InstConfigItem` for the beta threshold. -/
structure BetaInstConfig where
  asset : String := ""
  volatilityA : ℚ := 0
  volatilityB : ℚ := 0
  volatilityC : ℚ := 0
  beta : ℚ := 0

/-- `get_min_max_result`, of an instrument. -/
def TickerComposite.getMinMaxResult (c : TickerComposite) (instId : String) :
    Option TickerMinMaxResult :=
  (c.wrapperMap instId).map (·.getMinMaxResult)

/-- What a round of the beta calculator works on. -/
structure BetaInstrument where
  role : TickerRole
  baseAsset : String
  instConfig : BetaInstConfig
  minMaxResult : TickerMinMaxResult

/-- `process_beta_threshold_calculate`, for one id, up to the extremes it starts from. -/
def betaInstrument (config : ReceiverConfig) (instConfigs : TickerRole → StringMap BetaInstConfig)
    (composite : TickerRole → TickerComposite) (instId : String) : Option BetaInstrument :=
  if strEndsWith instId config.benchmarkQuoteAsset then do
    let baseAsset := cutEnd instId config.benchmarkQuoteAsset
    let instConfig ← instConfigs .benchmark baseAsset
    let minMaxResult := ((composite .benchmark).getMinMaxResult instId).getD {}
    pure ⟨.benchmark, baseAsset, instConfig, minMaxResult⟩
  else do
    let baseAsset := cutEnd instId config.followerQuoteAsset
    let instConfig ← instConfigs .follower baseAsset
    let minMaxResult := ((composite .follower).getMinMaxResult instId).getD {}
    pure ⟨.follower, baseAsset, instConfig, minMaxResult⟩

/-- The base asset that the two thresholds cut out. -/
theorem cutEnd_instId_else {config : ReceiverConfig} (h : config.SeparateQuotes)
    (role : TickerRole) (baseAsset : String) :
    (if strEndsWith (config.instId role baseAsset) config.benchmarkQuoteAsset then
      cutEnd (config.instId role baseAsset) config.benchmarkQuoteAsset
    else cutEnd (config.instId role baseAsset) config.followerQuoteAsset) = baseAsset := by
  cases role with
  | benchmark => simp
  | follower => simp [h.follower_not_benchmark]

/-- The beta calculator works on the settings of the base asset and the extremes of the instrument,
both of its side. -/
theorem betaInstrument_instId {config : ReceiverConfig} (h : config.SeparateQuotes)
    (role : TickerRole) (baseAsset : String) (instConfigs : TickerRole → StringMap BetaInstConfig)
    (composite : TickerRole → TickerComposite) :
    betaInstrument config instConfigs composite (config.instId role baseAsset) =
      (instConfigs role baseAsset).map fun instConfig =>
        ⟨role, baseAsset, instConfig,
          ((composite role).getMinMaxResult (config.instId role baseAsset)).getD {}⟩ := by
  unfold betaInstrument
  cases role with
  | benchmark =>
    simp only [ReceiverConfig.benchmark_ends, ReceiverConfig.cutEnd_benchmark, if_true]
    cases instConfigs .benchmark baseAsset with
    | none => rfl
    | some instConfig => rfl
  | follower =>
    simp only [h.follower_not_benchmark, ReceiverConfig.cutEnd_follower, Bool.false_eq_true,
      if_false]
    cases instConfigs .follower baseAsset with
    | none => rfl
    | some instConfig => rfl

/-! ## All five -/

/-- **Ids are routed by their side, and taken apart to their base asset**, for every base asset, if
neither quote asset is a suffix of the other. -/
theorem instId_routed (config : ReceiverConfig) (h : config.SeparateQuotes) (role : TickerRole)
    (baseAsset : String) :
    (∀ composite tickerInfo now offsets, tickerInfo.instId = config.instId role baseAsset →
      processTickerInfoPriceOffset config composite tickerInfo now offsets =
        (offsets.updatePair baseAsset role tickerInfo
          ((composite role.other).getLastestTicker (config.instId role.other baseAsset)) now,
        config.instId role baseAsset)) ∧
    (∀ calculation context offsets now,
      processEarlyRunThresholdCalculate config calculation context offsets
          (config.instId role baseAsset) now =
        (earlyRunThreshold calculation offsets baseAsset now).map (·.store context baseAsset)) ∧
    (∀ instConfigs composite,
      betaInstrument config instConfigs composite (config.instId role baseAsset) =
        (instConfigs role baseAsset).map fun instConfig =>
          ⟨role, baseAsset, instConfig,
            ((composite role).getMinMaxResult (config.instId role baseAsset)).getD {}⟩) ∧
    (∀ context event now s, event.instId = config.instId role baseAsset →
      subscribeProcessZmqBestTicker config context event now s =
        if event.instId ∈ context.instIdsSet then
          s.update context role event.info (event.infoShm event.updateId) now
        else s) ∧
    (∀ context event now s, event.instId = config.instId role baseAsset →
      subscribeProcessUdpTicker config context event now s =
        if event.instId ∈ context.instIdsSet then
          s.update context role event.info (event.infoShm event.updateId) now
        else s) := by
  have hbest : ∀ context event now s, event.instId = config.instId role baseAsset →
      processBestTicker config context event now s =
        if event.instId ∈ context.instIdsSet then
          s.update context role event.info (event.infoShm event.updateId) now
        else s := by
    intro context event now s hid
    unfold processBestTicker
    rw [hid, tickerRole_instId h role baseAsset]
  refine ⟨?_, ?_, ?_, hbest, hbest⟩
  · intro composite tickerInfo now offsets hid
    exact processTickerInfoPriceOffset_instId h role baseAsset composite hid now offsets
  · intro calculation context offsets now
    unfold processEarlyRunThresholdCalculate
    rw [cutEnd_instId_else h role baseAsset]
  · exact betaInstrument_instId h role baseAsset

/-- The id of a follower whose base asset contains both quote assets. -/
theorem instId_routed_usdt :
    betaInstrument sampleReceiverConfig (fun _ => StringMap.set .empty "USDTUSDC" {})
        (fun _ => .init "USDC" [] 60) "USDTUSDCUSDC" =
      some ⟨.follower, "USDTUSDC", {}, {}⟩ := by
  have hseparate : sampleReceiverConfig.SeparateQuotes := ⟨by decide, by decide⟩
  obtain ⟨-, -, hbeta, -⟩ := instId_routed sampleReceiverConfig hseparate .follower "USDTUSDC"
  have hid : sampleReceiverConfig.instId .follower "USDTUSDC" = "USDTUSDCUSDC" := by decide
  rw [hid] at hbeta
  rw [hbeta, StringMap.set_self]
  rfl

end UmTaker.Receiver
