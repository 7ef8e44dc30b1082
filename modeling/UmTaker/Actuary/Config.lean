import UmTaker.Common.Basic
import Mathlib.Data.Fin.VecNotation

/-!
# The actuary's configuration

The settings of the actuary process and of one instrument, as far as the modelled functions read
them, and the exchange information of one symbol.

## Main definitions

* `ActuaryConfig`, `InstConfigItem`, `ExchangeInfoLite`
* `sampleConfig`: the shipped sample settings
-/

namespace UmTaker.Actuary

/-- The settings of the actuary process. -/
structure ActuaryConfig where
  stopMakeOrder : Bool
  makePositionCloseOnly : Bool
  marginRatioThresholds : Fin 2 → ℚ
  bnbBalanceThresholds : Fin 2 → ℚ
  orderSizeZoom : ℤ
  maxPositionZoom : ℤ
  enableBenchmarkTickerTrigger : Bool
  enableFollowerTickerTrigger : Bool
  benchmarkTickerValidityMillis : ℕ
  followerTickerValidityMillis : ℕ
  thresholdValidityMillis : ℕ
  orderPriceMargin : ℚ
  enablePositionThreshold : Bool
  enableTickerSizeCompare : Bool
  samePricePauseTimeMillis : ℤ
  benchmarkQuoteAsset : String
  followerQuoteAsset : String
  shmGroupMainNode : Bool
  nodeBaseAssets : List String
  nodeCloseBaseAssets : List String
  allBaseAssets : List String
  shareMemoryProjectId : ℤ
  shareMemoryPathOrder : String

/-- The shipped sample settings, for two assets of which the second is only closed. -/
def sampleConfig : ActuaryConfig where
  stopMakeOrder := false
  makePositionCloseOnly := false
  marginRatioThresholds := ![7 / 10, 9 / 10]
  bnbBalanceThresholds := ![5 / 100, 2 / 10]
  orderSizeZoom := 1
  maxPositionZoom := 1
  enableBenchmarkTickerTrigger := true
  enableFollowerTickerTrigger := false
  benchmarkTickerValidityMillis := 1000
  followerTickerValidityMillis := 1000
  thresholdValidityMillis := 2000
  orderPriceMargin := 2 / 100000
  enablePositionThreshold := true
  enableTickerSizeCompare := true
  samePricePauseTimeMillis := 500
  benchmarkQuoteAsset := "USDT"
  followerQuoteAsset := "USDC"
  shmGroupMainNode := true
  nodeBaseAssets := ["BTC", "CRV"]
  nodeCloseBaseAssets := ["CRV"]
  allBaseAssets := ["BTC", "CRV"]
  shareMemoryProjectId := 65
  shareMemoryPathOrder := "shm_umtaker_order"

/-- The settings of one instrument. -/
structure InstConfigItem where
  asset : String := ""
  beta : ℚ := 0
  minTickerNotional : ℚ := 1000
  minTickerNotionalMultiple : ℚ := 10
  orderSize : ℚ := 0
  maxPosition : ℚ := 0

/-- The exchange information of one symbol. -/
structure ExchangeInfoLite where
  symbol : String
  baseAsset : String
  pricePrecision : ℕ
  quantityPrecision : ℕ
  minPrice : ℚ := 0
  tickSize : ℚ := 0
  minQty : ℚ := 0
  stepSize : ℚ := 0
  positionCloseOnly : Bool := false

end UmTaker.Actuary
