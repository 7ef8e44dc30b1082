import UmTaker.Common.Basic
import Mathlib.Algebra.Order.Ring.Rat

/-!
# The shared-memory records

One slot of each shared-memory segment, without the lock word: the best prices of an instrument,
the two kinds of thresholds of an asset, and the order the strategy last made for an instrument.

## Main definitions

* `TickerInfoShm`, `EarlyRunThresholdShm`, `BetaThresholdShm`, `OrderShm`
-/

namespace UmTaker.Shm

structure TickerInfoShm where
  instId : String := ""
  bidPrice : ℚ := 0
  bidSize : ℚ := 0
  askPrice : ℚ := 0
  askSize : ℚ := 0
  updateId : ℤ := 0
  updateTime : ℤ := 0
  versionNumber : ℤ := 0
  deriving DecidableEq

structure EarlyRunThresholdShm where
  asset : String := ""
  avgMedian : ℚ := 0
  /-- benchmark bid against follower ask -/
  bidAskMedian : ℚ := 0
  /-- benchmark ask against follower bid -/
  askBidMedian : ℚ := 0
  timeMills : ℕ := 0
  versionNumber : ℤ := 0
  deriving DecidableEq

structure BetaThresholdShm where
  asset : String := ""
  sma : ℚ := 0
  volatility : ℚ := 0
  volatilityMultiplier : ℚ := 0
  betaThreshold : ℚ := 0
  bidSma : ℚ := 0
  bidVolatility : ℚ := 0
  bidVolatilityMultiplier : ℚ := 0
  bidBetaThreshold : ℚ := 0
  askSma : ℚ := 0
  askVolatility : ℚ := 0
  askVolatilityMultiplier : ℚ := 0
  askBetaThreshold : ℚ := 0
  versionNumber : ℤ := 0
  timeMills : ℕ := 0
  deriving DecidableEq

/-- The type of an order; `unset` is what a slot holds before its first update. -/
inductive OrderType
  | unset
  | limit
  deriving DecidableEq, Repr

/-- How long an order stays; `unset` is what a slot holds before its first update. -/
inductive TimeInForce
  | unset
  | ioc
  deriving DecidableEq, Repr

structure OrderShm where
  instId : String := ""
  type : OrderType := .unset
  side : OrderSide := .unset
  posSide : PositionSide := .unset
  timeInForce : TimeInForce := .unset
  clientOrderId : String := ""
  price : ℚ := 0
  volume : ℚ := 0
  reduceOnly : ℤ := 0
  updateTime : ℤ := 0
  versionNumber : ℤ := 0
  deriving DecidableEq

end UmTaker.Shm
