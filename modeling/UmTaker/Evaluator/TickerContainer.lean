import UmTaker.Common.Basic
import Mathlib.Algebra.Order.Ring.Rat
import Mathlib.Data.List.MinMax

/-!
# The tickers of the evaluator

The newest best prices of each symbol.

## Main definitions

* `TickerLite`: the best prices of a symbol
* `TickerLiteComposite.updateTicker`, `TickerLiteComposite.getTicker`: the store of the newest ones
* `newestTicker`: the ticker the store is meant to yield

## Main results

* `updateTickers_apply`: the store holds the newest ticker of each symbol
* `getTicker_eq_newest_iff`: the copy handed out is that ticker exactly if its target held the time
-/

namespace UmTaker.Evaluator

/-- The best prices of a symbol. -/
@[ext] structure TickerLite where
  symbol : String := ""
  ask : ℚ := 0
  bid : ℚ := 0
  updateId : ℕ := 0
  updateTimeMillis : ℕ := 0
  deriving DecidableEq

/-- `copy_self`: the time of the target stays what it was. -/
def TickerLite.copySelf (ticker lite : TickerLite) : TickerLite where
  symbol := ticker.symbol
  ask := ticker.ask
  bid := ticker.bid
  updateId := ticker.updateId
  updateTimeMillis := lite.updateTimeMillis

/-- The newest ticker of each symbol. -/
abbrev TickerLiteComposite := StringMap TickerLite

namespace TickerLiteComposite

/-- `update_ticker`: a ticker that is not newer is dropped. -/
def updateTicker (lite : TickerLite) (tickerMap : TickerLiteComposite) : TickerLiteComposite :=
  match tickerMap lite.symbol with
  | none => tickerMap.set lite.symbol lite
  | some original =>
    if original.updateId < lite.updateId then tickerMap.set lite.symbol lite else tickerMap

/-- `get_ticker`: a copy into a ticker whose members hold whatever was there. -/
def getTicker (lite : TickerLite) (symbol : String) (tickerMap : TickerLiteComposite) :
    Option TickerLite :=
  (tickerMap symbol).map fun original => original.copySelf lite

theorem updateTicker_self (lite : TickerLite) (tickerMap : TickerLiteComposite) :
    tickerMap.updateTicker lite lite.symbol =
      match tickerMap lite.symbol with
      | none => some lite
      | some original =>
        if original.updateId < lite.updateId then some lite else some original := by
  unfold updateTicker
  cases h : tickerMap lite.symbol with
  | none => exact StringMap.set_self ..
  | some original =>
    show (if _ then _ else _ : TickerLiteComposite) _ = if _ then _ else _
    split_ifs
    · exact StringMap.set_self ..
    · exact h

theorem updateTicker_of_ne {lite : TickerLite} (tickerMap : TickerLiteComposite) {symbol : String}
    (h : symbol ≠ lite.symbol) : tickerMap.updateTicker lite symbol = tickerMap symbol := by
  unfold updateTicker
  cases tickerMap lite.symbol with
  | none => exact StringMap.set_of_ne _ _ h
  | some original =>
    show (if _ then _ else _ : TickerLiteComposite) _ = _
    split_ifs
    · exact StringMap.set_of_ne _ _ h
    · rfl

/-- The store after tickers were delivered. -/
def updateTickers (tickers : List TickerLite) : TickerLiteComposite :=
  tickers.foldl (fun tickerMap lite => tickerMap.updateTicker lite) .empty

end TickerLiteComposite

/-! ## The newest ticker -/

/-- The ticker of the symbol with the largest update id, the first delivered of several. -/
def newestTicker (tickers : List TickerLite) (symbol : String) : Option TickerLite :=
  (tickers.filter (·.symbol = symbol)).argmax (·.updateId)

theorem newestTicker_snoc_self (tickers : List TickerLite) (lite : TickerLite) :
    newestTicker (tickers ++ [lite]) lite.symbol =
      match newestTicker tickers lite.symbol with
      | none => some lite
      | some original =>
        if original.updateId < lite.updateId then some lite else some original := by
  have hfilter : (tickers ++ [lite]).filter (·.symbol = lite.symbol) =
      tickers.filter (·.symbol = lite.symbol) ++ [lite] := by
    simp
  rw [newestTicker, hfilter, List.argmax_concat]
  show _ = match (tickers.filter _).argmax _ with | none => _ | some original => _
  cases (tickers.filter (·.symbol = lite.symbol)).argmax (·.updateId) <;> rfl

theorem newestTicker_snoc_of_ne (tickers : List TickerLite) {lite : TickerLite} {symbol : String}
    (h : symbol ≠ lite.symbol) : newestTicker (tickers ++ [lite]) symbol =
      newestTicker tickers symbol := by
  have hne : lite.symbol ≠ symbol := Ne.symm h
  rw [newestTicker, List.filter_append]
  simp [newestTicker, hne]

namespace TickerLiteComposite

/-- **The store holds the newest ticker** of each symbol. -/
theorem updateTickers_apply (tickers : List TickerLite) (symbol : String) :
    updateTickers tickers symbol = newestTicker tickers symbol := by
  induction tickers using List.reverseRecOn with
  | nil => rfl
  | append_singleton tickers lite ih =>
    have hstep : updateTickers (tickers ++ [lite]) = (updateTickers tickers).updateTicker lite :=
      List.foldl_concat ..
    rw [hstep]
    by_cases h : symbol = lite.symbol
    · subst h
      rw [updateTicker_self, newestTicker_snoc_self, ih]
    · rw [updateTicker_of_ne _ h, newestTicker_snoc_of_ne tickers h, ih]

/-- **The copy handed out is the newest ticker**, in every field, exactly when the target of it
happened to hold its time. -/
theorem getTicker_eq_newest_iff (memory : TickerLite) (tickers : List TickerLite)
    (symbol : String) :
    (updateTickers tickers).getTicker memory symbol = newestTicker tickers symbol ↔
      ∀ newest ∈ newestTicker tickers symbol,
        memory.updateTimeMillis = newest.updateTimeMillis := by
  rw [getTicker, updateTickers_apply]
  cases newestTicker tickers symbol with
  | none => simp
  | some newest =>
    rw [Option.map_some, Option.some_inj, TickerLite.ext_iff]
    simp [TickerLite.copySelf]

/-- A copy of the only ticker delivered into cleared memory: its time is lost. -/
theorem getTicker_loses_time :
    (updateTickers [⟨"BTCUSDC", 1, 1, 7, 1000⟩]).getTicker {} "BTCUSDC" ≠
      newestTicker [⟨"BTCUSDC", 1, 1, 7, 1000⟩] "BTCUSDC" := by
  decide

end TickerLiteComposite

end UmTaker.Evaluator
