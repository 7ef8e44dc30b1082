import UmTaker.General.FrontEviction
import UmTaker.Receiver.TickerContainer

/-!
# The window of a ticker wrapper

The ticks of one instrument arrive over several threads, so their times need not be in order; the
eviction looks at the front of the list alone and stops at the first tick that is not expired.

## Main definitions

* `TickerArrival`, `tickersAfter`: an update at its clock reading, and the wrapper after updates
* `UmTickerInfo.live`: a tick within the window of a reading
* `ExpiredFirst`: no expired tick stands behind a live one when an update evicts

## Main results

* `tickerList_updateTicker`: what an update leaves of the list
* `tickerWindow_exact_iff`: after each update the list holds the live ticks received exactly when
  each update finds the expired ones in front
-/

namespace UmTaker.Receiver

namespace TickerWrapper

/-- What the loop leaves of the list. -/
theorem tickerList_evict (now remainSeconds : ℕ) (tickers : List UmTickerInfo)
    (w : TickerWrapper) : (evict now remainSeconds tickers w).tickerList =
      tickers.dropWhile (expired now remainSeconds) := by
  induction tickers generalizing w with
  | nil => rfl
  | cons front rest ih =>
    unfold evict
    rw [List.dropWhile_cons]
    split_ifs
    · exact ih _
    · exact ih _
    · rfl

theorem tickerList_updateTicker (w : TickerWrapper) (ticker : UmTickerInfo)
    (now remainSeconds : ℕ) : (w.updateTicker ticker now remainSeconds).tickerList =
      (w.tickerList ++ [ticker]).dropWhile (expired now remainSeconds) :=
  tickerList_evict now remainSeconds _ _

end TickerWrapper

/-- An update with its tick and the clock reading it takes behind the lock. -/
structure TickerArrival where
  ticker : UmTickerInfo
  now : ℕ

/-- An update, while ticks are kept for so many seconds. -/
def arrivalStep (remainSeconds : ℕ) (w : TickerWrapper) (call : TickerArrival) : TickerWrapper :=
  w.updateTicker call.ticker call.now remainSeconds

/-- The wrapper after updates. -/
def tickersAfter (remainSeconds : ℕ) (calls : List TickerArrival) : TickerWrapper :=
  Run.after (arrivalStep remainSeconds) {} calls

/-- The tick is within the window of a reading. -/
def UmTickerInfo.live (now remainSeconds : ℕ) (ticker : UmTickerInfo) : Bool :=
  decide (now ≤ ticker.updateTimeMillis + remainSeconds * 1000)

/-- No expired tick stands behind a live one when an update evicts, and the end of the oldest live
one's window, an unsigned sum, does not wrap around to before the reading. -/
def ExpiredFirst (remainSeconds : ℕ) (w : TickerWrapper) (call : TickerArrival) : Prop :=
  (w.tickerList ++ [call.ticker]).Pairwise
      (fun a b => a.live call.now remainSeconds = true → b.live call.now remainSeconds = true) ∧
    ∀ x ∈ (w.tickerList ++ [call.ticker]).find? (UmTickerInfo.live call.now remainSeconds),
      call.now ≤ u64 (x.updateTimeMillis + remainSeconds * 1000)

/-- A tick past the window is evicted, if it is at the front. -/
theorem expired_of_not_live {now remainSeconds : ℕ} {ticker : UmTickerInfo}
    (h : ticker.live now remainSeconds = false) :
    TickerWrapper.expired now remainSeconds ticker = true := by
  have h : ticker.updateTimeMillis + remainSeconds * 1000 < now := by
    simpa [UmTickerInfo.live] using h
  have hsum := u64_le (x := (ticker.updateTimeMillis + remainSeconds * 1000 : ℤ)) (by omega)
  refine decide_eq_true ?_
  omega

/-- What is live at a reading was so at an earlier one. -/
theorem live_of_le {remainSeconds : ℕ} (now now' : ℕ) (ticker : UmTickerInfo) (hle : now ≤ now')
    (h : ticker.live now' remainSeconds = true) : ticker.live now remainSeconds = true := by
  have h : now' ≤ ticker.updateTimeMillis + remainSeconds * 1000 := of_decide_eq_true h
  exact decide_eq_true (hle.trans h)

/-- An update that finds the expired ticks in front leaves the live ones. -/
theorem keeps_arrivalStep_iff {remainSeconds : ℕ} (w : TickerWrapper) (call : TickerArrival) :
    FrontEviction.Keeps (arrivalStep remainSeconds) (·.tickerList) (·.ticker) (·.now)
      (UmTickerInfo.live · remainSeconds) w call ↔ ExpiredFirst remainSeconds w call := by
  have hdrop : (w.tickerList ++ [call.ticker]).dropWhile
        (TickerWrapper.expired call.now remainSeconds) =
      (w.tickerList ++ [call.ticker]).filter (UmTickerInfo.live call.now remainSeconds) ↔ _ :=
    FrontEviction.dropWhile_eq_filter_iff (fun _ => expired_of_not_live) _
  have hlist : (arrivalStep remainSeconds w call).tickerList = _ :=
    w.tickerList_updateTicker call.ticker call.now remainSeconds
  rw [FrontEviction.Keeps, hlist, hdrop]
  refine and_congr_right fun _ => forall₂_congr fun x _ => ?_
  rw [TickerWrapper.expired, decide_eq_false_iff_not, not_lt]

/-- **While the clock does not go back**, the list holds the live ticks received after each update,
exactly when each update finds the expired ticks in front of the live ones. -/
theorem tickerWindow_exact_iff (remainSeconds : ℕ) (calls : List TickerArrival)
    (hclock : calls.Pairwise (·.now ≤ ·.now)) :
    (∀ before call, before ++ [call] <+: calls →
      (tickersAfter remainSeconds (before ++ [call])).tickerList =
        ((before ++ [call]).map (·.ticker)).filter
          (fun x => decide (call.now ≤ x.updateTimeMillis + remainSeconds * 1000))) ↔
      Run.Every (arrivalStep remainSeconds) {} (ExpiredFirst remainSeconds) calls := by
  refine (FrontEviction.exact_iff rfl live_of_le hclock).trans ?_
  exact forall₃_congr fun before call _ => keeps_arrivalStep_iff _ call

/-- A second tick two seconds later: the first has left a window of one second. -/
theorem tickerWindow_exact_two :
    let calls : List TickerArrival :=
      [⟨{ updateTimeMillis := 1000 }, 1000⟩, ⟨{ updateTimeMillis := 3000 }, 3000⟩]
    (∀ before call, before ++ [call] <+: calls →
      (tickersAfter 1 (before ++ [call])).tickerList =
        ((before ++ [call]).map (·.ticker)).filter
          (fun x => decide (call.now ≤ x.updateTimeMillis + 1 * 1000))) ↔
      Run.Every (arrivalStep 1) {} (ExpiredFirst 1) calls :=
  tickerWindow_exact_iff 1 _ (by simp)

/-- An expired tick that arrives behind a live one stays in the list. -/
theorem expired_tick_stays :
    let live : TickerArrival := ⟨{ updateTimeMillis := 5000 }, 5000⟩
    let late : TickerArrival := ⟨{ updateTimeMillis := 1000 }, 5000⟩
    (tickersAfter 1 [live, late]).tickerList ≠
      ([live, late].map (·.ticker)).filter
        (fun x => decide (late.now ≤ x.updateTimeMillis + 1 * 1000)) := by
  decide

end UmTaker.Receiver
