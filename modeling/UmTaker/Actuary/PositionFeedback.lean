import UmTaker.Actuary.AccountProcessor
import UmTaker.Actuary.Strategy
import Mathlib.Analysis.SpecialFunctions.Log.Basic
import Mathlib.Order.Monotone.Odd

/-!
# The feedback of a position

A position moves the thresholds of the signals that would let it grow: the account thread works out
a ratio of the position's amount, the strategy thread compares prices with it. Amounts and prices
are of any ordered field here; the model is the instance at the rationals, and at the reals the
logarithm is the natural one.

## Main definitions

* `reduceRatio`: the ratio of a signed amount
* `SignalPrices`, `BuyPrice`, `SellPrice`: the prices of the signals and their conditions

## Main results

* `positionThreshold_reduceRatio`, `buySignal_iff`, `sellSignal_iff`: both threads compute these
* `reduceRatio_mono`, `abs_reduceRatio_le`: the ratio follows the amount, and is bounded
* `positionFeedback_monotone`: the signals do not reward a position for growing
-/

namespace UmTaker.Actuary

/-! ## The ratio -/

section Definitions

variable {K : Type*} [Field K] [LinearOrder K]

/-- The side of a signed amount in one-way mode. -/
def sideOf (amount : K) : PositionSide :=
  if amount < 0 then .short else if 0 < amount then .long else .both

/-- The ratio that `calculcate_position_threshold` works out, of a signed amount. -/
def reduceRatio (log : K → K) (maxPosition maxPositionZoom margin amount : K) : K :=
  let positionFullRate := min (|amount| / (maxPosition * maxPositionZoom)) 1
  let reduceRatio := log (positionFullRate * positionFullRate + 1) * margin
  if sideOf amount = .short then 0 - reduceRatio else reduceRatio

/-- The ratio that the strategy applies. -/
def appliedRatio (enablePositionThreshold : Bool) (ratio : K) : K :=
  if enablePositionThreshold then ratio else 0

theorem appliedRatio_mono (enablePositionThreshold : Bool) :
    Monotone (appliedRatio (K := K) enablePositionThreshold) := by
  intro ratio ratio' h
  unfold appliedRatio
  split_ifs
  · exact h
  · exact le_rfl

/-! ## The price conditions -/

/-- The prices and thresholds of a market that the signals compare. -/
structure SignalPrices (K : Type*) where
  benchmarkBid : K
  benchmarkAsk : K
  followerBid : K
  followerAsk : K
  bidAskMedian : K
  askBidMedian : K
  benchmarkBidBeta : K
  benchmarkAskBeta : K
  followerBidBeta : K
  followerAskBeta : K

/-- The price condition of the buy branch. -/
def BuyPrice (p : SignalPrices K) (ratio : K) : Prop :=
  p.followerAsk + p.bidAskMedian ≤
    p.benchmarkBid / (1 + (p.benchmarkBidBeta + p.followerAskBeta) * (1 + ratio))

/-- The price condition of the sell branch. -/
def SellPrice (p : SignalPrices K) (ratio : K) : Prop :=
  p.benchmarkAsk * (1 + (p.benchmarkAskBeta + p.followerBidBeta) * (1 - ratio)) ≤
    p.followerBid + p.askBidMedian

/-- Prices are positive, and the sums of the beta thresholds not negative. -/
structure SignalPrices.Regular (p : SignalPrices K) : Prop where
  benchmarkBid : 0 < p.benchmarkBid
  benchmarkAsk : 0 < p.benchmarkAsk
  followerBid : 0 < p.followerBid
  followerAsk : 0 < p.followerAsk
  buyBeta : 0 ≤ p.benchmarkBidBeta + p.followerAskBeta
  sellBeta : 0 ≤ p.benchmarkAskBeta + p.followerBidBeta

end Definitions

/-! ## The model is the instance at the rationals -/

/-- The prices of a market. -/
def Market.signalPrices (m : Market) : SignalPrices ℚ where
  benchmarkBid := m.benchmark.bidPrice
  benchmarkAsk := m.benchmark.askPrice
  followerBid := m.follower.bidPrice
  followerAsk := m.follower.askPrice
  bidAskMedian := m.earlyRun.bidAskMedian
  askBidMedian := m.earlyRun.askBidMedian
  benchmarkBidBeta := m.benchmarkBeta.bidBetaThreshold
  benchmarkAskBeta := m.benchmarkBeta.askBetaThreshold
  followerBidBeta := m.followerBeta.bidBetaThreshold
  followerAskBeta := m.followerBeta.askBetaThreshold

theorem sideOf_eq_storedSide (amount : ℚ) : sideOf amount = storedSide .both amount := rfl

/-- The account thread works out the ratio of the amount, of a position with the stored side. -/
theorem positionThreshold_reduceRatio (ctx : ThresholdContext) (instConfig : PositionInstConfig)
    (ticker : Shm.TickerInfoShm) {p : AccountPositionInfo} (habs : AbsStored p)
    (hside : p.positionSide = storedSide .both p.positionAmount) (symbol : String) (now : ℕ) :
    (positionThreshold ctx instConfig ticker p symbol now).positionReduceRatio =
      reduceRatio ctx.log instConfig.maxPosition ctx.config.maxPositionZoom
        ctx.positionThresholdMargin p.positionAmount := by
  rw [reduceRatio, sideOf_eq_storedSide, ← hside, ← habs]
  rfl

/-- The strategy applies the ratio of the stored threshold. -/
theorem positionReduceRatio_some (config : ActuaryConfig) (threshold : PositionThresholdInfo) :
    positionReduceRatio config (some threshold) =
      appliedRatio config.enablePositionThreshold threshold.positionReduceRatio := rfl

/-- The strategy compares the prices of the market. -/
theorem buySignal_iff (ctx : StrategyContext) (m : Market) :
    BuySignal ctx m ↔ BuyPrice m.signalPrices m.positionReduceRatio ∧
      SizeEnough ctx (m.benchmark.bidPrice * m.benchmark.bidSize)
        (m.follower.askPrice * m.follower.askSize) := Iff.rfl

theorem sellSignal_iff (ctx : StrategyContext) (m : Market) :
    SellSignal ctx m ↔ SellPrice m.signalPrices m.positionReduceRatio ∧
      SizeEnough ctx (m.benchmark.askPrice * m.benchmark.askSize)
        (m.follower.bidPrice * m.follower.bidSize) := Iff.rfl

/-! ## Monotony -/

section Monotony

variable {K : Type*} [Field K] [LinearOrder K] [IsStrictOrderedRing K] {log : K → K}
  {maxPosition maxPositionZoom margin : K}

/-- The ratio of a long or flat position. -/
theorem reduceRatio_of_nonneg {amount : K} (h : 0 ≤ amount) :
    reduceRatio log maxPosition maxPositionZoom margin amount =
      log (min (amount / (maxPosition * maxPositionZoom)) 1 *
        min (amount / (maxPosition * maxPositionZoom)) 1 + 1) * margin := by
  have hside : sideOf amount ≠ .short := by
    unfold sideOf
    rw [if_neg (not_lt.mpr h)]
    split_ifs <;> simp
  rw [reduceRatio, if_neg hside, abs_of_nonneg h]

/-- The opposite position has the opposite ratio. -/
theorem reduceRatio_neg (hlog : log 1 = 0) (amount : K) :
    reduceRatio log maxPosition maxPositionZoom margin (-amount) =
      -reduceRatio log maxPosition maxPositionZoom margin amount := by
  rcases lt_trichotomy amount 0 with h | rfl | h
  · simp [reduceRatio, sideOf, h, h.not_gt]
  · simp [reduceRatio, sideOf, hlog]
  · simp [reduceRatio, sideOf, h, h.not_gt]

/-- The rate of a long position grows with its amount, from zero up to one. -/
theorem fullRate_mono {cap amount amount' : K} (hcap : 0 < cap) (h₀ : 0 ≤ amount)
    (h : amount ≤ amount') :
    0 ≤ min (amount / cap) 1 ∧ min (amount / cap) 1 ≤ min (amount' / cap) 1 :=
  ⟨le_min (div_nonneg h₀ hcap.le) zero_le_one,
    min_le_min_right 1 (div_le_div_of_nonneg_right h hcap.le)⟩

/-- **The ratio follows the signed amount**, when the logarithm grows from one on. -/
theorem reduceRatio_mono (hlog : log 1 = 0) (hmono : MonotoneOn log (Set.Ici 1))
    (hcap : 0 < maxPosition * maxPositionZoom) (hmargin : 0 ≤ margin) :
    Monotone (reduceRatio log maxPosition maxPositionZoom margin) := by
  -- the ratio is odd, so it is enough to compare long positions
  refine monotone_of_odd_of_monotoneOn_nonneg (reduceRatio_neg hlog) fun a ha a' ha' h => ?_
  obtain ⟨h₀, hrate⟩ := fullRate_mono hcap ha h
  obtain ⟨h₀', -⟩ := fullRate_mono hcap ha' le_rfl
  rw [reduceRatio_of_nonneg ha, reduceRatio_of_nonneg ha']
  refine mul_le_mul_of_nonneg_right (hmono ?_ ?_ ?_) hmargin
  · exact le_add_of_nonneg_left (mul_nonneg h₀ h₀)
  · exact le_add_of_nonneg_left (mul_nonneg h₀' h₀')
  · exact add_le_add_left (mul_le_mul hrate hrate h₀ h₀') 1

/-- **The ratio is bounded** by that of a full position. -/
theorem abs_reduceRatio_le (hlog : log 1 = 0) (hmono : MonotoneOn log (Set.Ici 1))
    (hcap : 0 < maxPosition * maxPositionZoom) (hmargin : 0 ≤ margin) (amount : K) :
    |reduceRatio log maxPosition maxPositionZoom margin amount| ≤ margin * log 2 := by
  wlog h : 0 ≤ amount generalizing amount
  · have hneg := this (-amount) (neg_nonneg.mpr (not_le.mp h).le)
    rwa [reduceRatio_neg hlog, abs_neg] at hneg
  obtain ⟨h₀, -⟩ := fullRate_mono hcap h le_rfl
  rw [reduceRatio_of_nonneg h]
  have hfull : min (amount / (maxPosition * maxPositionZoom)) 1 ≤ 1 := min_le_right _ _
  have hone : (1 : K) ≤ min (amount / (maxPosition * maxPositionZoom)) 1 *
      min (amount / (maxPosition * maxPositionZoom)) 1 + 1 :=
    le_add_of_nonneg_left (mul_nonneg h₀ h₀)
  have htwo : min (amount / (maxPosition * maxPositionZoom)) 1 *
      min (amount / (maxPosition * maxPositionZoom)) 1 + 1 ≤ 2 := by
    linarith [mul_le_one₀ hfull h₀ hfull]
  have hpos := hmono (Set.mem_Ici.mpr le_rfl) hone hone
  rw [hlog] at hpos
  rw [abs_of_nonneg (mul_nonneg hpos hmargin), mul_comm margin]
  exact mul_le_mul_of_nonneg_right (hmono hone (hone.trans htwo) htwo) hmargin

/-- The larger of two ratios above minus one makes buying no easier. -/
theorem BuyPrice.of_le {p : SignalPrices K} (hp : p.Regular) {ratio ratio' : K}
    (hratio : -1 ≤ ratio) (h : ratio ≤ ratio') (hbuy : BuyPrice p ratio') : BuyPrice p ratio := by
  have hbeta := hp.buyBeta
  -- the divisor shrinks with the ratio, and stays positive
  refine hbuy.trans (div_le_div_of_nonneg_left hp.benchmarkBid.le ?_ ?_)
  · have := mul_nonneg hbeta (neg_le_iff_add_nonneg'.mp hratio)
    linarith
  · have := mul_le_mul_of_nonneg_left (add_le_add_left h 1) hbeta
    linarith

/-- The larger of two ratios makes selling no harder. -/
theorem SellPrice.of_le {p : SignalPrices K} (hp : p.Regular) {ratio ratio' : K}
    (h : ratio ≤ ratio') (hsell : SellPrice p ratio) : SellPrice p ratio' := by
  refine le_trans (mul_le_mul_of_nonneg_left ?_ hp.benchmarkAsk.le) hsell
  have := mul_le_mul_of_nonneg_left (sub_le_sub_left h 1) hp.sellBeta
  linarith

end Monotony

/-- The signals of the strategy follow the price conditions. -/
theorem buySignal_of_le {ctx : StrategyContext} {m : Market} (hm : m.signalPrices.Regular)
    {ratio ratio' : ℚ} (hratio : -1 ≤ ratio) (h : ratio ≤ ratio')
    (hbuy : BuySignal ctx { m with positionReduceRatio := ratio' }) :
    BuySignal ctx { m with positionReduceRatio := ratio } := by
  rw [buySignal_iff] at hbuy ⊢
  exact hbuy.imp_left (BuyPrice.of_le hm hratio h)

theorem sellSignal_of_le {ctx : StrategyContext} {m : Market} (hm : m.signalPrices.Regular)
    {ratio ratio' : ℚ} (h : ratio ≤ ratio')
    (hsell : SellSignal ctx { m with positionReduceRatio := ratio }) :
    SellSignal ctx { m with positionReduceRatio := ratio' } := by
  rw [sellSignal_iff] at hsell ⊢
  exact hsell.imp_left (SellPrice.of_le hm h)

/-! ## The natural logarithm -/

/-- **A position is not rewarded for growing**: its ratio follows its signed amount and is bounded,
and where a position is bought more of, or sold, a smaller or a larger one is as well. -/
theorem positionFeedback_monotone {p : SignalPrices ℝ} (hp : p.Regular)
    {maxPosition maxPositionZoom margin : ℝ} (hcap : 0 < maxPosition * maxPositionZoom)
    (hmargin₀ : 0 ≤ margin) (hmargin₁ : margin ≤ 1) (enablePositionThreshold : Bool)
    {amount amount' : ℝ} (h : amount ≤ amount') :
    let ratio := reduceRatio Real.log maxPosition maxPositionZoom margin
    let applied := fun a => appliedRatio enablePositionThreshold (ratio a)
    ratio amount ≤ ratio amount' ∧
      |ratio amount| ≤ margin * Real.log 2 ∧ |ratio amount'| ≤ margin * Real.log 2 ∧
      (BuyPrice p (applied amount') → BuyPrice p (applied amount)) ∧
      (SellPrice p (applied amount) → SellPrice p (applied amount')) := by
  intro ratio applied
  have hmono : MonotoneOn Real.log (Set.Ici 1) := fun x hx y _ hxy =>
    Real.log_le_log (zero_lt_one.trans_le hx) hxy
  have hratio : ratio amount ≤ ratio amount' :=
    reduceRatio_mono Real.log_one hmono hcap hmargin₀ h
  have habs : ∀ a, |ratio a| ≤ margin * Real.log 2 :=
    abs_reduceRatio_le Real.log_one hmono hcap hmargin₀
  have happlied : applied amount ≤ applied amount' :=
    appliedRatio_mono enablePositionThreshold hratio
  have hlogtwo : Real.log 2 ≤ 1 := by
    have := Real.log_le_sub_one_of_pos (two_pos (α := ℝ))
    linarith
  have hlower : -1 ≤ applied amount := by
    show -1 ≤ appliedRatio enablePositionThreshold (ratio amount)
    have hbound : margin * Real.log 2 ≤ 1 :=
      mul_le_one₀ hmargin₁ (Real.log_nonneg one_le_two) hlogtwo
    have := (abs_le.mp ((habs amount).trans hbound)).1
    unfold appliedRatio
    split_ifs
    · exact this
    · exact neg_one_lt_zero.le
  exact ⟨hratio, habs amount, habs amount', BuyPrice.of_le hp hlower happlied,
    SellPrice.of_le hp happlied⟩

/-- A short and a long position of half the largest amount, in a market at one price. -/
theorem positionFeedback_monotone_half :
    let p : SignalPrices ℝ := ⟨1, 1, 1, 1, 0, 0, 0, 0, 0, 0⟩
    let ratio := reduceRatio Real.log 10 1 (1 / 4)
    let applied := fun a => appliedRatio true (ratio a)
    ratio (-5) ≤ ratio 5 ∧
      |ratio (-5)| ≤ 1 / 4 * Real.log 2 ∧ |ratio 5| ≤ 1 / 4 * Real.log 2 ∧
      (BuyPrice p (applied 5) → BuyPrice p (applied (-5))) ∧
      (SellPrice p (applied (-5)) → SellPrice p (applied 5)) :=
  positionFeedback_monotone
    ⟨one_pos, one_pos, one_pos, one_pos, by norm_num, by norm_num⟩ (by norm_num) (by norm_num)
    (by norm_num) true (by norm_num)

end UmTaker.Actuary
