import UmTaker.Common.Basic
import UmTaker.General.SlidingWindow
import Mathlib.Algebra.Order.Ring.Rat
import Mathlib.Data.Finset.Insert
import Mathlib.Data.Fintype.Defs

/-!
# The ticker wrapper

The tickers of one instrument over the last seconds, with the extremes of their prices. A new ticker
widens the extremes while they are valid; the eviction of one that reaches an extreme invalidates
them, and the beta calculator works them out again.

## Main definitions

* `UmTickerInfo`, `PriceKind`: a ticker and its three prices
* `TickerWrapper`: the list of tickers and the extremes
* `TickerWrapper.updateTicker`, `TickerWrapper.getLastestTicker`,
  `TickerWrapper.copyTickerListAfter`, `TickerWrapper.getMinMaxResult`,
  `TickerWrapper.setMinMaxResult`
* `TickerComposite`: the wrappers of the instruments

## Main results

* `Extremes.contain_ofList_iff`: the extremes of a list contain what the list spans
* `TickerWrapper.updateTicker_spec`: what an update does to list and extremes
* `TickerComposite.getLastestTicker_updateTicker`: a ticker not expired on arrival is the latest
-/

namespace UmTaker.Receiver

/-! ## Tickers and extremes -/

/-- The prices of a ticker. -/
inductive PriceKind
  | bid
  | ask
  | avg
  deriving DecidableEq

instance : Fintype PriceKind where
  elems := {.bid, .ask, .avg}
  complete := by rintro (_ | _ | _) <;> decide

/-- A ticker of one instrument. -/
structure UmTickerInfo where
  instId : String := ""
  bidPrice : ℚ := 0
  bidVolume : ℚ := 0
  askPrice : ℚ := 0
  askVolume : ℚ := 0
  avgPrice : ℚ := 0
  updateTimeMillis : ℕ := 0
  isFromTrade : Bool := false
  deriving DecidableEq

def UmTickerInfo.price (ticker : UmTickerInfo) : PriceKind → ℚ
  | .bid => ticker.bidPrice
  | .ask => ticker.askPrice
  | .avg => ticker.avgPrice

/-- `std::numeric_limits<double>::max()`. -/
def doubleMax : ℚ := (2 ^ 53 - 1) * 2 ^ 971

/-- `std::numeric_limits<double>::min()`, the least positive normal value. -/
def doubleMin : ℚ := 1 / 2 ^ 1022

/-- The extremes of the three prices. -/
structure Extremes where
  bid : Hull ℚ
  ask : Hull ℚ
  avg : Hull ℚ
  deriving DecidableEq

namespace Extremes

def get (e : Extremes) : PriceKind → Hull ℚ
  | .bid => e.bid
  | .ask => e.ask
  | .avg => e.avg

/-- The extremes of no price at all. -/
def cleared : Extremes where
  bid := ⟨doubleMax, doubleMin⟩
  ask := ⟨doubleMax, doubleMin⟩
  avg := ⟨doubleMax, doubleMin⟩

/-- Widen the extremes by the prices of a ticker. -/
def widen (e : Extremes) (ticker : UmTickerInfo) : Extremes where
  bid := e.bid.widen ticker.bidPrice
  ask := e.ask.widen ticker.askPrice
  avg := e.avg.widen ticker.avgPrice

/-- Some price of the ticker reaches an extreme. -/
def reachedBy (e : Extremes) (ticker : UmTickerInfo) : Bool :=
  e.bid.max ≤ ticker.bidPrice || ticker.bidPrice ≤ e.bid.min ||
    e.ask.max ≤ ticker.askPrice || ticker.askPrice ≤ e.ask.min ||
    e.avg.max ≤ ticker.avgPrice || ticker.avgPrice ≤ e.avg.min

/-- All prices of the ticker lie within the extremes. -/
def Contain (e : Extremes) (ticker : UmTickerInfo) : Prop :=
  ∀ k, (e.get k).Contains (ticker.price k)

instance (e : Extremes) (ticker : UmTickerInfo) : Decidable (e.Contain ticker) :=
  inferInstanceAs (Decidable (∀ _, _))

theorem get_widen (e : Extremes) (ticker : UmTickerInfo) (k : PriceKind) :
    (e.widen ticker).get k = (e.get k).widen (ticker.price k) := by
  cases k <;> rfl

theorem contain_widen_self (e : Extremes) (ticker : UmTickerInfo) :
    (e.widen ticker).Contain ticker := by
  intro k
  rw [get_widen]
  exact Hull.contains_widen_self

theorem Contain.widen {e : Extremes} {ticker : UmTickerInfo} (h : e.Contain ticker)
    (other : UmTickerInfo) : (e.widen other).Contain ticker := by
  intro k
  rw [get_widen]
  exact (h k).widen _

/-- The extremes of a list of tickers, worked out in one loop. -/
def ofList (tickers : List UmTickerInfo) : Extremes := tickers.foldl widen cleared

theorem get_foldl_widen (e : Extremes) (tickers : List UmTickerInfo) (k : PriceKind) :
    (tickers.foldl widen e).get k = (e.get k).widenAll (tickers.map (·.price k)) := by
  induction tickers generalizing e with
  | nil => rfl
  | cons ticker tickers ih =>
    rw [List.foldl_cons, ih, get_widen]
    rfl

/-- The tickers span the prices of another one: each lies between two of theirs. -/
def Spanned (tickers : List UmTickerInfo) (ticker : UmTickerInfo) : Prop :=
  ∀ k, Hull.Spans (tickers.map (·.price k)) (ticker.price k)

instance (tickers : List UmTickerInfo) (ticker : UmTickerInfo) :
    Decidable (Spanned tickers ticker) :=
  inferInstanceAs (Decidable (∀ _, _))

theorem spanned_of_mem {tickers : List UmTickerInfo} {ticker : UmTickerInfo}
    (h : ticker ∈ tickers) : Spanned tickers ticker :=
  fun _ => Hull.spans_of_mem (List.mem_map_of_mem h)

/-- What a list of tickers spans lies within its extremes. -/
theorem contain_ofList {tickers : List UmTickerInfo} {ticker : UmTickerInfo}
    (h : Spanned tickers ticker) : (ofList tickers).Contain ticker := by
  intro k
  rw [ofList, get_foldl_widen]
  exact Hull.contains_widenAll (h k)

/-- The price can be told from the sentinels. -/
def InBounds (ticker : UmTickerInfo) : Prop :=
  ∀ k, doubleMin ≤ ticker.price k ∧ ticker.price k ≤ doubleMax

/-- The extremes of tickers whose prices lie between the sentinels contain nothing else. -/
theorem contain_ofList_iff {tickers : List UmTickerInfo} {ticker : UmTickerInfo}
    (hne : tickers ≠ []) (hbounds : ∀ x ∈ tickers, InBounds x) :
    (ofList tickers).Contain ticker ↔ Spanned tickers ticker := by
  refine forall_congr' fun k => ?_
  rw [ofList, get_foldl_widen]
  have hmin : (cleared.get k).min = doubleMax := by cases k <;> rfl
  have hmax : (cleared.get k).max = doubleMin := by cases k <;> rfl
  refine Hull.contains_widenAll_iff (by simpa using hne) (fun y hy => ?_) fun y hy => ?_
  · obtain ⟨x, hx, rfl⟩ := List.mem_map.mp hy
    rw [hmin]
    exact (hbounds x hx k).2
  · obtain ⟨x, hx, rfl⟩ := List.mem_map.mp hy
    rw [hmax]
    exact (hbounds x hx k).1

end Extremes

/-! ## The wrapper -/

/-- The extremes with the length of the list they belong to. -/
structure TickerMinMaxResult where
  extremes : Extremes := .cleared
  tickerLength : ℕ := 0
  validityMinMax : Bool := false

/-- The tickers of one instrument, oldest first, and their extremes. -/
structure TickerWrapper where
  tickerList : List UmTickerInfo := []
  extremes : Extremes := .cleared
  validityMinMax : Bool := false

namespace TickerWrapper

/-- `clear_min_max`. -/
def clearMinMax (w : TickerWrapper) : TickerWrapper :=
  { w with extremes := .cleared, validityMinMax := false }

/-- The ticker is older than the seconds to keep. -/
def expired (now remainSeconds : ℕ) (ticker : UmTickerInfo) : Bool :=
  decide (u64 (ticker.updateTimeMillis + remainSeconds * 1000) < now)

/-- The eviction loop of `update_ticker`, over the tickers of the list. -/
def evict (now remainSeconds : ℕ) : List UmTickerInfo → TickerWrapper → TickerWrapper
  | [], w => { w with tickerList := [] }
  | front :: rest, w =>
    if expired now remainSeconds front then
      -- an extreme may have been that of the ticker that leaves
      evict now remainSeconds rest (if w.extremes.reachedBy front then w.clearMinMax else w)
    else
      { w with tickerList := front :: rest }

/-- `update_ticker`, at the clock reading it takes behind the lock. -/
def updateTicker (w : TickerWrapper) (ticker : UmTickerInfo) (now remainSeconds : ℕ) :
    TickerWrapper :=
  let tickerList := w.tickerList ++ [ticker]
  evict now remainSeconds tickerList
    { w with
      tickerList := tickerList
      extremes := if w.validityMinMax then w.extremes.widen ticker else w.extremes }

/-- `get_lastest_ticker`. -/
def getLastestTicker (w : TickerWrapper) : Option UmTickerInfo := w.tickerList.getLast?

/-- `copy_ticker_list_after`. -/
def copyTickerListAfter (w : TickerWrapper) (remainTsAfter : ℕ) : List UmTickerInfo :=
  w.tickerList.filter fun ticker => decide (remainTsAfter < ticker.updateTimeMillis)

/-- `get_min_max_result`. -/
def getMinMaxResult (w : TickerWrapper) : TickerMinMaxResult where
  extremes := w.extremes
  tickerLength := w.tickerList.length
  validityMinMax := w.validityMinMax

/-- `set_min_max_result`. -/
def setMinMaxResult (w : TickerWrapper) (result : TickerMinMaxResult) : TickerWrapper :=
  { w with extremes := result.extremes, validityMinMax := result.validityMinMax }

/-- The eviction leaves a rest of the list; the extremes stay as they are, or are invalid. -/
theorem evict_spec (now remainSeconds : ℕ) (tickers : List UmTickerInfo) (w : TickerWrapper) :
    (∃ n, (evict now remainSeconds tickers w).tickerList = tickers.drop n) ∧
      ((evict now remainSeconds tickers w).validityMinMax = true →
        (evict now remainSeconds tickers w).extremes = w.extremes ∧ w.validityMinMax = true) := by
  induction tickers generalizing w with
  | nil => exact ⟨⟨0, rfl⟩, fun h => ⟨rfl, h⟩⟩
  | cons front rest ih =>
    unfold evict
    split_ifs with hexpired hreached
    · obtain ⟨⟨n, hn⟩, hvalid⟩ := ih w.clearMinMax
      refine ⟨⟨n + 1, hn⟩, fun h => ?_⟩
      have := (hvalid h).2
      simp [clearMinMax] at this
    · obtain ⟨⟨n, hn⟩, hvalid⟩ := ih w
      exact ⟨⟨n + 1, hn⟩, hvalid⟩
    · exact ⟨⟨0, rfl⟩, fun h => ⟨rfl, h⟩⟩

/-- **An update** appends its ticker and evicts some of the oldest; extremes that are valid after it
were valid before, and are widened by the ticker. -/
theorem updateTicker_spec (w : TickerWrapper) (ticker : UmTickerInfo) (now remainSeconds : ℕ) :
    (∃ n, (w.updateTicker ticker now remainSeconds).tickerList =
        (w.tickerList ++ [ticker]).drop n) ∧
      ((w.updateTicker ticker now remainSeconds).validityMinMax = true →
        (w.updateTicker ticker now remainSeconds).extremes = w.extremes.widen ticker ∧
          w.validityMinMax = true) := by
  obtain ⟨hlist, hvalid⟩ := evict_spec now remainSeconds (w.tickerList ++ [ticker])
    { w with
      tickerList := w.tickerList ++ [ticker]
      extremes := if w.validityMinMax then w.extremes.widen ticker else w.extremes }
  refine ⟨hlist, fun h => ?_⟩
  obtain ⟨hextremes, hbefore⟩ := hvalid h
  have hbefore : w.validityMinMax = true := hbefore
  exact ⟨hextremes.trans (if_pos hbefore), hbefore⟩

/-- The eviction stops at a ticker that is not expired, so it stays the last. -/
theorem getLast_evict {now remainSeconds : ℕ} {ticker : UmTickerInfo}
    (h : expired now remainSeconds ticker = false) (tickers : List UmTickerInfo)
    (w : TickerWrapper) :
    (evict now remainSeconds (tickers ++ [ticker]) w).tickerList.getLast? = some ticker := by
  induction tickers generalizing w with
  | nil => simp [evict, h]
  | cons front rest ih =>
    rw [List.cons_append, evict]
    split_ifs
    · exact ih _
    · exact ih _
    · rw [← List.cons_append]
      exact List.getLast?_concat

/-- **A ticker not expired on arrival is the latest.** -/
theorem getLastestTicker_updateTicker (w : TickerWrapper) {ticker : UmTickerInfo}
    {now remainSeconds : ℕ} (h : expired now remainSeconds ticker = false) :
    (w.updateTicker ticker now remainSeconds).getLastestTicker = some ticker :=
  getLast_evict h _ _

end TickerWrapper

/-! ## The composite -/

/-- The wrappers of the instruments, which keep the tickers of the last seconds. -/
structure TickerComposite where
  wrapperMap : StringMap TickerWrapper
  tickerRemainSeconds : ℕ

namespace TickerComposite

/-- `init`: an empty wrapper for each instrument of the node. -/
def init (quoteAsset : String) (baseAssets : List String) (remainSeconds : ℕ) :
    TickerComposite where
  wrapperMap := baseAssets.foldl (fun m base => m.insert (base ++ quoteAsset) {}) .empty
  tickerRemainSeconds := remainSeconds

/-- `update_ticker`: an instrument without a wrapper gets one. -/
def updateTicker (c : TickerComposite) (ticker : UmTickerInfo) (now : ℕ) : TickerComposite :=
  { c with
    wrapperMap := c.wrapperMap.set ticker.instId
      (((c.wrapperMap ticker.instId).getD {}).updateTicker ticker now c.tickerRemainSeconds) }

/-- `get_lastest_ticker`. -/
def getLastestTicker (c : TickerComposite) (instId : String) : Option UmTickerInfo :=
  (c.wrapperMap instId).bind (·.getLastestTicker)

/-- **A ticker not expired on arrival is the latest** of its instrument. -/
theorem getLastestTicker_updateTicker (c : TickerComposite) {ticker : UmTickerInfo} {now : ℕ}
    (h : TickerWrapper.expired now c.tickerRemainSeconds ticker = false) :
    (c.updateTicker ticker now).getLastestTicker ticker.instId = some ticker := by
  simp only [getLastestTicker, updateTicker, StringMap.set_self, Option.bind_some]
  exact TickerWrapper.getLastestTicker_updateTicker _ h

end TickerComposite

end UmTaker.Receiver
