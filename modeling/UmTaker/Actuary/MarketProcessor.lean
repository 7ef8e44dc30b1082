import UmTaker.Actuary.Config
import UmTaker.Common.Tools
import UmTaker.General.FailingLoops
import Mathlib.Tactic.FieldSimp

/-!
# The exchange information

The exchange tells the precision of prices and the step they move by, the tick. What is kept of both
is one number of decimals, to which prices are cut.

## Main definitions

* `FuturesExchangeInfo`: the exchange's answer about one symbol
* `exchangeInfoLite`, `loadFollowerExchangeInfo`, `loadBenchmarkExchangeInfo`: what is kept of it
* `OnTick`, `FitsDecimals`: the multiples of a tick, and the ticks that decimals respect

## Main results

* `loadFollowerExchangeInfo_isSome_iff`, `loadBenchmarkExchangeInfo_isSome_iff`: loading ends
  exactly when all steps are positive
* `mem_loadFollowerExchangeInfo`: what is loaded comes from a symbol of the answer
* `onTick_decimalProcess_iff`: cut prices respect the tick exactly when the unit cut to does
* `prices_onTick_iff`: that is when the tick is a power of ten, or the exchange's precision is
  coarser
-/

namespace UmTaker.Actuary

open FailingLoop Truncation

/-! ## Loading -/

/-- What the exchange tells of one symbol. -/
structure FuturesExchangeInfo where
  symbol : String
  baseAsset : String
  quoteAsset : String
  pricePrecision : ℕ
  quantityPrecision : ℕ
  minPrice : ℚ
  tickSize : ℚ
  minQty : ℚ
  stepSize : ℚ

/-- What is kept of it: of precision and step the smaller number of decimals. -/
def exchangeInfoLite (info : FuturesExchangeInfo) : Option ExchangeInfoLite := do
  let pricePrecision ← calculatePrecisionByMinStep info.tickSize
  let quantityPrecision ← calculatePrecisionByMinStep info.stepSize
  pure
    { symbol := info.symbol
      baseAsset := info.baseAsset
      pricePrecision := min info.pricePrecision pricePrecision
      quantityPrecision := min info.quantityPrecision quantityPrecision
      minPrice := info.minPrice
      tickSize := info.tickSize
      minQty := info.minQty
      stepSize := info.stepSize }

/-- `load_follower_exchangeInfo`: the symbols of the follower's quote asset. Without an answer the
process exits. -/
def loadFollowerExchangeInfo (config : ActuaryConfig)
    (response : Option (List FuturesExchangeInfo)) : Option (List ExchangeInfoLite) := do
  let data ← response
  (data.filter (·.quoteAsset = config.followerQuoteAsset)).mapM exchangeInfoLite

/-- `load_benchmark_exchangeInfo`: those of the benchmark's quote asset, by their base asset, the
first of each. -/
def loadBenchmarkExchangeInfo (config : ActuaryConfig)
    (response : Option (List FuturesExchangeInfo)) : Option (StringMap ExchangeInfoLite) := do
  let data ← response
  (data.filter (·.quoteAsset = config.benchmarkQuoteAsset)).foldlM
    (fun liteMap info => do
      let lite ← exchangeInfoLite info
      pure (liteMap.insert info.baseAsset lite)) .empty

/-- What the exchange tells of the symbol has a search for decimals that ends. -/
def FuturesExchangeInfo.PositiveSteps (info : FuturesExchangeInfo) : Prop :=
  0 < info.tickSize ∧ 0 < info.stepSize

theorem calculatePrecision_isSome_iff {minStep : ℚ} :
    (calculatePrecisionByMinStep minStep).isSome ↔ 0 < minStep := by
  rw [Option.isSome_iff_exists]
  constructor
  · rintro ⟨precision, h⟩
    by_contra hnonpos
    exact precisionSearch_of_nonpos (not_lt.mp hnonpos) precision (precisionSearch_iff.mpr h)
  · intro hpos
    obtain ⟨precision, h, -⟩ := exists_calculatePrecision hpos
    exact ⟨precision, h⟩

theorem exchangeInfoLite_isSome_iff {info : FuturesExchangeInfo} :
    (exchangeInfoLite info).isSome ↔ info.PositiveSteps := by
  unfold exchangeInfoLite FuturesExchangeInfo.PositiveSteps
  rw [← calculatePrecision_isSome_iff, ← calculatePrecision_isSome_iff]
  cases calculatePrecisionByMinStep info.tickSize with
  | none => simp
  | some pricePrecision => cases calculatePrecisionByMinStep info.stepSize <;> simp

/-- **The exchange information is loaded** exactly when all symbols of the quote asset have positive
steps: of one that has not, the start of the process hangs. -/
theorem loadFollowerExchangeInfo_isSome_iff (config : ActuaryConfig)
    (data : List FuturesExchangeInfo) :
    (loadFollowerExchangeInfo config (some data)).isSome ↔
      ∀ info ∈ data, info.quoteAsset = config.followerQuoteAsset → info.PositiveSteps := by
  rw [loadFollowerExchangeInfo, Option.bind_eq_bind, Option.bind_some]
  simp only [mapM_isSome_iff, exchangeInfoLite_isSome_iff, List.mem_filter, decide_eq_true_eq,
    and_imp]

theorem loadBenchmarkExchangeInfo_isSome_iff (config : ActuaryConfig)
    (data : List FuturesExchangeInfo) :
    (loadBenchmarkExchangeInfo config (some data)).isSome ↔
      ∀ info ∈ data, info.quoteAsset = config.benchmarkQuoteAsset → info.PositiveSteps := by
  have hround : ∀ (liteMap : StringMap ExchangeInfoLite) (info : FuturesExchangeInfo),
      (do let lite ← exchangeInfoLite info
          pure (liteMap.insert info.baseAsset lite) : Option _).isSome ↔ info.PositiveSteps := by
    intro liteMap info
    rw [← exchangeInfoLite_isSome_iff]
    cases exchangeInfoLite info <;> simp
  rw [loadBenchmarkExchangeInfo, Option.bind_eq_bind, Option.bind_some, foldlM_isSome_iff hround]
  simp only [List.mem_filter, decide_eq_true_eq, and_imp]

/-- What is loaded is what is kept of a symbol of the answer. -/
theorem mem_loadFollowerExchangeInfo {config : ActuaryConfig} {data : List FuturesExchangeInfo}
    {lites : List ExchangeInfoLite} (h : loadFollowerExchangeInfo config (some data) = some lites)
    {lite : ExchangeInfoLite} (hlite : lite ∈ lites) :
    ∃ info ∈ data, info.quoteAsset = config.followerQuoteAsset ∧
      exchangeInfoLite info = some lite := by
  obtain ⟨info, hinfo, hkept⟩ := exists_mem_of_mapM h hlite
  obtain ⟨hmem, hquote⟩ := List.mem_filter.mp hinfo
  exact ⟨info, hmem, of_decide_eq_true hquote, hkept⟩

/-! ## Ticks -/

/-- The multiples of a tick. -/
def OnTick (tick price : ℚ) : Prop := ∃ k : ℤ, price = k * tick

theorem OnTick.mul {tick price : ℚ} (h : OnTick tick price) (n : ℤ) : OnTick tick (n * price) := by
  obtain ⟨k, rfl⟩ := h
  refine ⟨n * k, ?_⟩
  push_cast
  ring

/-- Prices that are cut to some decimals respect the tick exactly when the unit does. -/
theorem onTick_decimalProcess_iff {tick : ℚ} {precision : ℕ} :
    (∀ value, 0 ≤ value → OnTick tick (decimalProcess value precision)) ↔
      OnTick tick (1 / 10 ^ precision) := by
  have hpos : (0 : ℚ) < 10 ^ precision := by positivity
  constructor
  · intro h
    -- the unit itself is a price
    have hunit := h (1 / 10 ^ precision) (by positivity)
    have hgrid : OnGrid ((10 : ℚ) ^ precision) (1 / 10 ^ precision) := ⟨1, by simp⟩
    rw [decimalProcess_eq, truncTo_of_onGrid hpos.ne' hgrid] at hunit
    exact hunit
  · intro h value _
    obtain ⟨n, hn⟩ := truncTo_onGrid ((10 : ℚ) ^ precision) value
    rw [decimalProcess_eq, hn, div_eq_mul_one_div]
    exact h.mul n

/-- What the precision of a symbol is. -/
theorem exchangeInfoLite_pricePrecision {info : FuturesExchangeInfo} {lite : ExchangeInfoLite}
    (h : exchangeInfoLite info = some lite) :
    ∃ decimals, calculatePrecisionByMinStep info.tickSize = some decimals ∧
      lite.pricePrecision = min info.pricePrecision decimals := by
  obtain ⟨decimals, hdecimals, hrest⟩ := Option.bind_eq_some_iff.mp h
  obtain ⟨quantity, -, hlite⟩ := Option.bind_eq_some_iff.mp hrest
  obtain rfl := Option.some.inj hlite
  exact ⟨decimals, hdecimals, rfl⟩

/-- With as many decimals as the tick has, the unit is a multiple of the tick only if it is the
tick. -/
theorem unit_onTick_iff {tick : ℚ} {decimals : ℕ} (htick : 0 < tick)
    (h : calculatePrecisionByMinStep tick = some decimals) :
    OnTick tick (1 / 10 ^ decimals) ↔ tick = 1 / 10 ^ decimals := by
  obtain ⟨n, hn, hone, -⟩ := exists_calculatePrecision htick
  obtain rfl : decimals = n := Option.some.inj (h.symm.trans hn)
  have hpos : (0 : ℚ) < 10 ^ decimals := by positivity
  constructor
  · rintro ⟨k, hk⟩
    have hle : 1 / 10 ^ decimals ≤ tick := (div_le_iff₀ hpos).mpr hone
    have hkpos : 0 < (k : ℚ) := by
      have hunit : (0 : ℚ) < k * tick := by
        rw [← hk]
        positivity
      exact (mul_pos_iff_of_pos_right htick).mp hunit
    have hk1 : (1 : ℚ) ≤ k := by
      exact_mod_cast (Int.cast_pos.mp hkpos : 0 < k)
    refine le_antisymm ?_ hle
    rw [hk]
    exact le_mul_of_one_le_left htick.le hk1
  · intro heq
    exact ⟨1, by rw [Int.cast_one, one_mul, ← heq]⟩

/-- The tick is the unit of no more decimals than the exchange's precision, or a smaller part of the
unit of that precision. -/
def FitsDecimals (pricePrecision : ℕ) (tick : ℚ) : Prop :=
  (∃ n ≤ pricePrecision, tick = 1 / 10 ^ n) ∨
    (tick < 1 / 10 ^ pricePrecision ∧ OnTick tick (1 / 10 ^ pricePrecision))

/-- The unit of the smaller number of decimals is a multiple of the tick exactly when it fits. -/
theorem unit_onTick_min_iff {tick : ℚ} {pricePrecision decimals : ℕ} (htick : 0 < tick)
    (h : calculatePrecisionByMinStep tick = some decimals) :
    OnTick tick (1 / 10 ^ min pricePrecision decimals) ↔ FitsDecimals pricePrecision tick := by
  obtain ⟨n, hn, hone, hbelow⟩ := exists_calculatePrecision htick
  obtain rfl : decimals = n := Option.some.inj (h.symm.trans hn)
  have hpos : ∀ n : ℕ, (0 : ℚ) < 10 ^ n := fun n => by positivity
  unfold FitsDecimals
  rcases lt_or_ge pricePrecision decimals with hlt | hle
  · have hsmall : tick < 1 / 10 ^ pricePrecision :=
      (lt_div_iff₀ (hpos _)).mpr (hbelow pricePrecision hlt)
    rw [min_eq_left hlt.le]
    constructor
    · exact fun hunit => Or.inr ⟨hsmall, hunit⟩
    · rintro (⟨n, hle, rfl⟩ | ⟨-, hunit⟩)
      · have hpow : (10 : ℚ) ^ n ≤ 10 ^ pricePrecision := pow_le_pow_right₀ (by norm_num) hle
        exact absurd hsmall (not_lt.mpr (one_div_le_one_div_of_le (hpos n) hpow))
      · exact hunit
  · rw [min_eq_right hle, unit_onTick_iff htick h]
    constructor
    · exact fun heq => Or.inl ⟨decimals, hle, heq⟩
    · rintro (⟨n, -, rfl⟩ | ⟨hsmall, -⟩)
      · have hdecimals : decimals ≤ n := by
          refine not_lt.mp fun hn => ?_
          have := hbelow n hn
          rw [one_div, inv_mul_cancel₀ (hpos n).ne'] at this
          exact lt_irrefl _ this
        have hn : (10 : ℚ) ^ n ≤ 10 ^ decimals := by
          rwa [one_div, inv_mul_eq_div, one_le_div (hpos n)] at hone
        have hn : n ≤ decimals := (pow_le_pow_iff_right₀ (by norm_num)).mp hn
        rw [le_antisymm hdecimals hn]
      · have hpow : (10 : ℚ) ^ decimals ≤ 10 ^ pricePrecision := pow_le_pow_right₀ (by norm_num) hle
        have hless : tick * 10 ^ pricePrecision < 1 := (lt_div_iff₀ (hpos _)).mp hsmall
        exact absurd (hone.trans (mul_le_mul_of_nonneg_left hpow htick.le)) (not_le.mpr hless)

/-- **Prices respect the tick** of a symbol exactly when its tick fits the decimals: it is a power
of ten, or the exchange's precision is coarser than the tick and its unit a multiple of it. -/
theorem prices_onTick_iff (info : FuturesExchangeInfo) (htick : 0 < info.tickSize) :
    ∃ decimals, calculatePrecisionByMinStep info.tickSize = some decimals ∧
      (∀ lite, exchangeInfoLite info = some lite →
        lite.pricePrecision = min info.pricePrecision decimals) ∧
      ((∀ value, 0 ≤ value →
          OnTick info.tickSize (decimalProcess value (min info.pricePrecision decimals))) ↔
        FitsDecimals info.pricePrecision info.tickSize) := by
  obtain ⟨decimals, hdecimals, -, -⟩ := exists_calculatePrecision htick
  refine ⟨decimals, hdecimals, fun lite hlite => ?_,
    onTick_decimalProcess_iff.trans (unit_onTick_min_iff htick hdecimals)⟩
  obtain ⟨decimals', hdecimals', hprecision⟩ := exchangeInfoLite_pricePrecision hlite
  obtain rfl : decimals = decimals' := Option.some.inj (hdecimals.symm.trans hdecimals')
  exact hprecision

/-- A symbol that moves by tenths. -/
def tenths : FuturesExchangeInfo where
  symbol := "BTCUSDC"
  baseAsset := "BTC"
  quoteAsset := "USDC"
  pricePrecision := 2
  quantityPrecision := 3
  minPrice := 1
  tickSize := 1 / 10
  minQty := 1 / 1000
  stepSize := 1 / 1000

/-- A price that moves by tenths is cut to tenths. -/
theorem prices_onTick_tenths : OnTick (1 / 10) (decimalProcess (123 / 100) 1) := by
  obtain ⟨decimals, hdecimals, -, hiff⟩ := prices_onTick_iff tenths (by norm_num [tenths])
  obtain rfl : 1 = decimals := by
    have hone : calculatePrecisionByMinStep tenths.tickSize = some 1 := by decide +kernel
    exact Option.some.inj (hone.symm.trans hdecimals)
  exact hiff.mpr (Or.inl ⟨1, by decide, by norm_num [tenths]⟩) (123 / 100) (by norm_num)

/-- A tick of one half has one decimal, and prices are cut to tenths. -/
theorem price_off_tick :
    calculatePrecisionByMinStep (1 / 2) = some 1 ∧
      ¬ OnTick (1 / 2) (decimalProcess (3 / 10) (min 1 1)) := by
  constructor
  · decide +kernel
  · have hprice : decimalProcess (3 / 10) (min 1 1) = 3 / 10 := by decide +kernel
    rw [hprice]
    rintro ⟨k, hk⟩
    have h6 : (6 : ℤ) = 10 * k := by
      have hk' : (6 : ℚ) = 10 * k := by linarith
      exact_mod_cast hk'
    omega

end UmTaker.Actuary
