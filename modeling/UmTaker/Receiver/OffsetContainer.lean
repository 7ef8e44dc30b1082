import UmTaker.General.FrontEviction
import UmTaker.General.Run
import UmTaker.Receiver.TickerContainer
import Mathlib.Algebra.BigOperators.Group.List.Basic
import Mathlib.Algebra.Order.Ring.Rat

/-!
# The price offsets

The offsets between the prices of benchmark and follower over the last seconds, with running sums
that each call brings up to date: it adds the offset it pushes and subtracts those it evicts from
the front. The age of an offset is an unsigned difference of clock readings.

## Main definitions

* `PriceOffset`, `PriceOffsetWrapper`: an offset, and the list with its sums
* `PriceOffsetWrapper.updatePriceOffset`, `PriceOffsetWrapper.calculateAvgResult`
* `OffsetCall`, `offsetsAfter`: a call at its clock reading, and the wrapper after calls
* `RemovesOnlyExpired`, `FindsOldest`: a call removes no offset that is within the window of its
  reading, and the condition for it

## Main results

* `offsets_exact`: while the clock does not go back, list, sums and means are as recomputed
* `removesOnlyExpired_iff`: calls remove only expired offsets exactly when each finds the oldest one
  within its window
-/

namespace UmTaker.Receiver

/-! ## Offsets -/

/-- The offset of the prices of a benchmark's ticker against those of a follower's. -/
structure PriceOffset where
  avgPriceDiff : ℚ := 0
  bidAskPriceDiff : ℚ := 0
  askBidPriceDiff : ℚ := 0
  updateTimeMillis : ℕ := 0
  deriving DecidableEq

/-- The three differences. -/
inductive DiffKind
  | avg
  | bidAsk
  | askBid

namespace PriceOffset

def diff (offset : PriceOffset) : DiffKind → ℚ
  | .avg => offset.avgPriceDiff
  | .bidAsk => offset.bidAskPriceDiff
  | .askBid => offset.askBidPriceDiff

/-- The offset of two tickers. -/
def ofTickers (benchmarkTick followerTick : UmTickerInfo) (now : ℕ) : PriceOffset where
  avgPriceDiff := (benchmarkTick.avgPrice - followerTick.avgPrice) / 2
  bidAskPriceDiff := benchmarkTick.bidPrice - followerTick.askPrice
  askBidPriceDiff := benchmarkTick.askPrice - followerTick.bidPrice
  updateTimeMillis := now

end PriceOffset

/-- The milliseconds that offsets are kept. -/
def windowMillis (remainSeconds : ℕ) : ℕ := u64 (remainSeconds * 1000)

theorem windowMillis_of_lt {remainSeconds : ℕ}
    (h : remainSeconds * 1000 < 18446744073709551616) :
    windowMillis remainSeconds = remainSeconds * 1000 := by
  unfold windowMillis u64
  rw [Int.emod_eq_of_lt (by omega) (by omega)]
  rfl

/-- The test of the eviction loop. -/
def PriceOffset.expired (now remainSeconds : ℕ) (offset : PriceOffset) : Bool :=
  decide (windowMillis remainSeconds < u64 (now - offset.updateTimeMillis))

/-! ## The wrapper -/

/-- Lengths, sums and means. -/
structure PriceOffsetAvgResult where
  priceOffsetLength : ℕ := 0
  sumAvgPriceDiff : ℚ := 0
  sumBidAskPriceDiff : ℚ := 0
  sumAskBidPriceDiff : ℚ := 0
  avgAvgPriceDiff : ℚ := 0
  avgBidAskPriceDiff : ℚ := 0
  avgAskBidPriceDiff : ℚ := 0

/-- The mean of a difference. -/
def PriceOffsetAvgResult.mean (result : PriceOffsetAvgResult) : DiffKind → ℚ
  | .avg => result.avgAvgPriceDiff
  | .bidAsk => result.avgBidAskPriceDiff
  | .askBid => result.avgAskBidPriceDiff

/-- The offsets, oldest first, and their sums. -/
structure PriceOffsetWrapper where
  offsetList : List PriceOffset := []
  sumAvgPriceDiff : ℚ := 0
  sumBidAskPriceDiff : ℚ := 0
  sumAskBidPriceDiff : ℚ := 0

namespace PriceOffsetWrapper

def sum (w : PriceOffsetWrapper) : DiffKind → ℚ
  | .avg => w.sumAvgPriceDiff
  | .bidAsk => w.sumBidAskPriceDiff
  | .askBid => w.sumAskBidPriceDiff

/-- Append an offset. -/
def pushBack (w : PriceOffsetWrapper) (offset : PriceOffset) : PriceOffsetWrapper where
  offsetList := w.offsetList ++ [offset]
  sumAvgPriceDiff := w.sumAvgPriceDiff + offset.avgPriceDiff
  sumBidAskPriceDiff := w.sumBidAskPriceDiff + offset.bidAskPriceDiff
  sumAskBidPriceDiff := w.sumAskBidPriceDiff + offset.askBidPriceDiff

/-- Subtract the differences of the front. -/
def minusFront (w : PriceOffsetWrapper) (front : PriceOffset) : PriceOffsetWrapper :=
  { w with
    sumAvgPriceDiff := w.sumAvgPriceDiff - front.avgPriceDiff
    sumBidAskPriceDiff := w.sumBidAskPriceDiff - front.bidAskPriceDiff
    sumAskBidPriceDiff := w.sumAskBidPriceDiff - front.askBidPriceDiff }

/-- The eviction loop, over the offsets of the list. -/
def evict (now remainSeconds : ℕ) : List PriceOffset → PriceOffsetWrapper → PriceOffsetWrapper
  | [], w => { w with offsetList := [] }
  | front :: rest, w =>
    if front.expired now remainSeconds then evict now remainSeconds rest (w.minusFront front)
    else { w with offsetList := front :: rest }

/-- `update_price_offset`, at the clock reading it begins with. -/
def updatePriceOffset (w : PriceOffsetWrapper) (benchmarkTick followerTick : UmTickerInfo)
    (now remainSeconds : ℕ) : PriceOffsetWrapper :=
  let pushed := w.pushBack (.ofTickers benchmarkTick followerTick now)
  evict now remainSeconds pushed.offsetList pushed

/-- `calculate_avg_result`. -/
def calculateAvgResult (w : PriceOffsetWrapper) : PriceOffsetAvgResult :=
  if w.offsetList.length = 0 then
    {}
  else
    { priceOffsetLength := w.offsetList.length
      sumAvgPriceDiff := w.sumAvgPriceDiff
      sumBidAskPriceDiff := w.sumBidAskPriceDiff
      sumAskBidPriceDiff := w.sumAskBidPriceDiff
      avgAvgPriceDiff := w.sumAvgPriceDiff / w.offsetList.length
      avgBidAskPriceDiff := w.sumBidAskPriceDiff / w.offsetList.length
      avgAskBidPriceDiff := w.sumAskBidPriceDiff / w.offsetList.length }

/-- The sums are those of a list of offsets. -/
def SumsOf (w : PriceOffsetWrapper) (offsets : List PriceOffset) : Prop :=
  ∀ k, w.sum k = (offsets.map (·.diff k)).sum

theorem SumsOf.pushBack {w : PriceOffsetWrapper} (h : w.SumsOf w.offsetList)
    (offset : PriceOffset) : (w.pushBack offset).SumsOf (w.pushBack offset).offsetList := by
  intro k
  have hpush : (w.pushBack offset).sum k = w.sum k + offset.diff k := by cases k <;> rfl
  rw [hpush, h k]
  simp [PriceOffsetWrapper.pushBack]

/-- What the loop leaves of the list. -/
theorem offsetList_evict (now remainSeconds : ℕ) (offsets : List PriceOffset)
    (w : PriceOffsetWrapper) : (evict now remainSeconds offsets w).offsetList =
      offsets.dropWhile (PriceOffset.expired now remainSeconds) := by
  induction offsets generalizing w with
  | nil => rfl
  | cons front rest ih =>
    unfold evict
    rw [List.dropWhile_cons]
    split_ifs
    · exact ih _
    · rfl

/-- The loop subtracts what it removes. -/
theorem SumsOf.evict {now remainSeconds : ℕ} {offsets : List PriceOffset}
    {w : PriceOffsetWrapper} (h : w.SumsOf offsets) :
    (PriceOffsetWrapper.evict now remainSeconds offsets w).SumsOf
      (PriceOffsetWrapper.evict now remainSeconds offsets w).offsetList := by
  induction offsets generalizing w with
  | nil => exact h
  | cons front rest ih =>
    unfold PriceOffsetWrapper.evict
    split_ifs
    · refine ih fun k => ?_
      have hminus : (w.minusFront front).sum k = w.sum k - front.diff k := by cases k <;> rfl
      rw [hminus, h k, List.map_cons, List.sum_cons, add_sub_cancel_left]
    · exact h

section Update

variable (w : PriceOffsetWrapper) (benchmarkTick followerTick : UmTickerInfo)
  (now remainSeconds : ℕ)

theorem offsetList_updatePriceOffset :
    (w.updatePriceOffset benchmarkTick followerTick now remainSeconds).offsetList =
      (w.offsetList ++ [PriceOffset.ofTickers benchmarkTick followerTick now]).dropWhile
        (PriceOffset.expired now remainSeconds) :=
  offsetList_evict now remainSeconds _ _

/-- **A call keeps the sums** those of the list. -/
theorem sumsOf_updatePriceOffset {w : PriceOffsetWrapper} (h : w.SumsOf w.offsetList) :
    (w.updatePriceOffset benchmarkTick followerTick now remainSeconds).SumsOf
      (w.updatePriceOffset benchmarkTick followerTick now remainSeconds).offsetList :=
  SumsOf.evict (h.pushBack _)

end Update

/-- The means of a list with its sums. -/
theorem mean_calculateAvgResult {w : PriceOffsetWrapper} (h : w.SumsOf w.offsetList)
    (hne : w.offsetList ≠ []) (k : DiffKind) :
    w.calculateAvgResult.mean k = (w.offsetList.map (·.diff k)).sum / w.offsetList.length := by
  have hlength : w.offsetList.length ≠ 0 := by simpa using hne
  rw [← h k, calculateAvgResult, if_neg hlength]
  cases k <;> rfl

end PriceOffsetWrapper

/-! ## Runs of calls -/

/-- A call with the tickers it receives and its clock reading. -/
structure OffsetCall where
  benchmarkTick : UmTickerInfo
  followerTick : UmTickerInfo
  now : ℕ
  now_lt : now < 18446744073709551616

/-- The offset that a call pushes. -/
def OffsetCall.offset (call : OffsetCall) : PriceOffset :=
  .ofTickers call.benchmarkTick call.followerTick call.now

/-- A call, while offsets are kept for so many seconds. -/
def offsetStep (remainSeconds : ℕ) (w : PriceOffsetWrapper) (call : OffsetCall) :
    PriceOffsetWrapper :=
  w.updatePriceOffset call.benchmarkTick call.followerTick call.now remainSeconds

/-- The wrapper after calls. -/
def offsetsAfter (remainSeconds : ℕ) (calls : List OffsetCall) : PriceOffsetWrapper :=
  Run.after (offsetStep remainSeconds) {} calls

/-- The offset is at most as old as the window is long. -/
def PriceOffset.inWindow (now remainSeconds : ℕ) (offset : PriceOffset) : Bool :=
  decide (now ≤ offset.updateTimeMillis + windowMillis remainSeconds)

section Runs

variable {remainSeconds : ℕ}

theorem offsetList_offsetStep (w : PriceOffsetWrapper) (call : OffsetCall) :
    (offsetStep remainSeconds w call).offsetList =
      (w.offsetList ++ [call.offset]).dropWhile (PriceOffset.expired call.now remainSeconds) :=
  w.offsetList_updatePriceOffset call.benchmarkTick call.followerTick call.now remainSeconds

theorem offsetsAfter_snoc (calls : List OffsetCall) (call : OffsetCall) :
    offsetsAfter remainSeconds (calls ++ [call]) =
      offsetStep remainSeconds (offsetsAfter remainSeconds calls) call :=
  Run.after_snoc calls call

/-- The sums are those of the list, whatever the clock does. -/
theorem sumsOf_offsetsAfter (calls : List OffsetCall) :
    (offsetsAfter remainSeconds calls).SumsOf (offsetsAfter remainSeconds calls).offsetList := by
  refine Run.after_invariant (P := fun w : PriceOffsetWrapper => w.SumsOf w.offsetList) ?_ ?_ calls
  · intro k
    cases k <;> rfl
  · intro w call hw
    exact PriceOffsetWrapper.sumsOf_updatePriceOffset _ _ _ _ hw

/-- The list holds offsets that were pushed, in order. -/
theorem offsetList_sublist (calls : List OffsetCall) :
    (offsetsAfter remainSeconds calls).offsetList.Sublist (calls.map (·.offset)) := by
  induction calls using List.reverseRecOn with
  | nil => exact List.Sublist.refl _
  | append_singleton calls call ih =>
    rw [offsetsAfter_snoc, offsetList_offsetStep, List.map_append]
    exact (List.dropWhile_sublist _).trans (ih.append (List.Sublist.refl _))

/-- An offset past the window is evicted, if it is at the front. -/
theorem expired_of_not_inWindow {now : ℕ} (hnow : now < 18446744073709551616)
    {offset : PriceOffset} (h : offset.inWindow now remainSeconds = false) :
    offset.expired now remainSeconds = true := by
  have h : offset.updateTimeMillis + windowMillis remainSeconds < now := by
    simpa [PriceOffset.inWindow] using h
  refine decide_eq_true ?_
  unfold u64
  omega

/-- An offset within the window is not, if the clock has not gone back behind it. -/
theorem not_expired_of_inWindow {now : ℕ} {offset : PriceOffset}
    (hle : offset.updateTimeMillis ≤ now) (h : offset.inWindow now remainSeconds = true) :
    offset.expired now remainSeconds = false := by
  have h : now ≤ offset.updateTimeMillis + windowMillis remainSeconds := of_decide_eq_true h
  refine decide_eq_false ?_
  have := u64_le (x := (now : ℤ) - offset.updateTimeMillis) (by omega)
  omega

/-- What is within the window of a reading was so at an earlier one. -/
theorem inWindow_of_le (now now' : ℕ) (offset : PriceOffset) (hle : now ≤ now')
    (h : offset.inWindow now' remainSeconds = true) : offset.inWindow now remainSeconds = true := by
  have h : now' ≤ offset.updateTimeMillis + windowMillis remainSeconds := of_decide_eq_true h
  exact decide_eq_true (hle.trans h)

/-- What a call leaves of a list of offsets in the order of their stamps. -/
theorem dropWhile_expired {now : ℕ} (hnow : now < 18446744073709551616)
    {offsets : List PriceOffset} (hle : ∀ o ∈ offsets, o.updateTimeMillis ≤ now)
    (hsorted : offsets.Pairwise (·.updateTimeMillis ≤ ·.updateTimeMillis)) :
    offsets.dropWhile (PriceOffset.expired now remainSeconds) =
      offsets.filter (PriceOffset.inWindow now remainSeconds) := by
  refine FrontEviction.dropWhile_eq_filter (fun _ => expired_of_not_inWindow hnow)
    (fun o ho => not_expired_of_inWindow (hle o ho)) (hsorted.imp fun hab ha => ?_)
  simp only [PriceOffset.inWindow, decide_eq_true_eq] at ha ⊢
  omega

/-- While the clock does not go back, each call leaves what it finds within the window. -/
theorem every_keeps {calls : List OffsetCall} (hclock : calls.Pairwise (·.now ≤ ·.now)) :
    Run.Every (offsetStep remainSeconds) {}
      (FrontEviction.Keeps (offsetStep remainSeconds) (·.offsetList) (·.offset) (·.now)
        (PriceOffset.inWindow · remainSeconds)) calls := by
  intro before call hp
  have hsorted := hclock.sublist hp.sublist
  have hsub : ((offsetsAfter remainSeconds before).offsetList ++ [call.offset]).Sublist
      ((before ++ [call]).map (·.offset)) := by
    rw [List.map_append]
    exact (offsetList_sublist before).append (List.Sublist.refl _)
  refine (offsetList_offsetStep _ call).trans ?_
  -- the stamps are readings, so they are in order and none is later than now
  refine dropWhile_expired call.now_lt (fun o ho => ?_) ?_
  · obtain ⟨c, hc, rfl⟩ := List.mem_map.mp (hsub.subset ho)
    rcases List.mem_append.mp hc with hc | hc
    · exact (List.pairwise_append.mp hsorted).2.2 c hc call (List.mem_singleton.mpr rfl)
    · rw [List.mem_singleton.mp hc]
      rfl
  · refine List.Pairwise.sublist hsub ?_
    rw [List.pairwise_map]
    exact hsorted

/-- After pushes at readings that do not go back, the list has what is within the window of the last
one. -/
theorem offsetList_offsetsAfter {remainSeconds : ℕ} {calls : List OffsetCall} {call : OffsetCall}
    (hclock : (calls ++ [call]).Pairwise (·.now ≤ ·.now)) :
    (offsetsAfter remainSeconds (calls ++ [call])).offsetList =
      ((calls ++ [call]).map (·.offset)).filter (PriceOffset.inWindow call.now remainSeconds) :=
  (FrontEviction.exact_iff rfl inWindow_of_le hclock).mpr (every_keeps hclock) calls call
    List.prefix_rfl

/-- **While the clock does not go back**, the list holds, in order, the offsets pushed that are at
most as old as the window is long; the sums are theirs, and the means are worked out of at least one
offset. -/
theorem offsets_exact (remainSeconds : ℕ) (calls : List OffsetCall) (call : OffsetCall)
    (hclock : (calls ++ [call]).Pairwise (·.now ≤ ·.now)) :
    let w := offsetsAfter remainSeconds (calls ++ [call])
    w.offsetList = ((calls ++ [call]).map (·.offset)).filter
        (fun o => decide (call.now ≤ o.updateTimeMillis + windowMillis remainSeconds)) ∧
      (∀ k, w.sum k = (w.offsetList.map (·.diff k)).sum) ∧
      w.offsetList.length ≠ 0 ∧
      (∀ k, w.calculateAvgResult.mean k =
        (w.offsetList.map (·.diff k)).sum / w.offsetList.length) ∧
      (remainSeconds * 1000 < 18446744073709551616 →
        windowMillis remainSeconds = remainSeconds * 1000) := by
  intro w
  have hlist : w.offsetList = ((calls ++ [call]).map (·.offset)).filter
      (PriceOffset.inWindow call.now remainSeconds) := offsetList_offsetsAfter hclock
  have hne : w.offsetList ≠ [] := by
    refine List.ne_nil_of_mem (a := call.offset) ?_
    rw [hlist]
    refine List.mem_filter.mpr ⟨by simp, decide_eq_true ?_⟩
    show call.now ≤ call.now + _
    exact Nat.le_add_right _ _
  have hsums : w.SumsOf w.offsetList := sumsOf_offsetsAfter (calls ++ [call])
  refine ⟨hlist, hsums, by simpa using hne,
    fun k => PriceOffsetWrapper.mean_calculateAvgResult hsums hne k, windowMillis_of_lt⟩

/-- Two readings eleven seconds apart: the first offset has left a window of ten. -/
theorem offsets_eleven_seconds :
    let calls : List OffsetCall := [⟨{ avgPrice := 3 }, {}, 1000, by decide⟩]
    let call : OffsetCall := ⟨{ avgPrice := 5 }, { avgPrice := 1 }, 12000, by decide⟩
    let w := offsetsAfter 10 (calls ++ [call])
    w.offsetList = ((calls ++ [call]).map (·.offset)).filter
        (fun o => decide (call.now ≤ o.updateTimeMillis + windowMillis 10)) ∧
      (∀ k, w.sum k = (w.offsetList.map (·.diff k)).sum) ∧
      w.offsetList.length ≠ 0 ∧
      (∀ k, w.calculateAvgResult.mean k =
        (w.offsetList.map (·.diff k)).sum / w.offsetList.length) ∧
      (10 * 1000 < 18446744073709551616 → windowMillis 10 = 10 * 1000) :=
  offsets_exact 10 _ _ (by simp)

/-! ## Clocks that go back -/

/-- A call removes no offset that is within the window of its reading. -/
def RemovesOnlyExpired (remainSeconds : ℕ) (w : PriceOffsetWrapper) (call : OffsetCall) : Prop :=
  ∃ removed, w.offsetList ++ [call.offset] =
      removed ++ (offsetStep remainSeconds w call).offsetList ∧
    ∀ o ∈ removed, o.updateTimeMillis + remainSeconds * 1000 < call.now

/-- The unsigned age of the oldest offset within the window of a reading is no longer than it: the
reading is not behind the stamp, unless by so much that the difference wraps around into it. -/
def FindsOldest (remainSeconds : ℕ) (w : PriceOffsetWrapper) (call : OffsetCall) : Prop :=
  ∀ o ∈ (w.offsetList ++ [call.offset]).find?
      (fun o => decide (call.now ≤ o.updateTimeMillis + remainSeconds * 1000)),
    if o.updateTimeMillis ≤ call.now then
      call.now - o.updateTimeMillis ≤ windowMillis remainSeconds
    else
      call.now + 18446744073709551616 ≤ o.updateTimeMillis + windowMillis remainSeconds

/-- The stamps are values of the clock. -/
theorem stamps_lt (calls : List OffsetCall) :
    ∀ o ∈ (offsetsAfter remainSeconds calls).offsetList,
      o.updateTimeMillis < 18446744073709551616 := by
  intro o ho
  obtain ⟨c, -, rfl⟩ := List.mem_map.mp ((offsetList_sublist calls).subset ho)
  exact c.now_lt

/-- The unsigned age of an offset against the window. -/
theorem expired_eq_false_iff {now : ℕ} (hnow : now < 18446744073709551616) {offset : PriceOffset}
    (hoffset : offset.updateTimeMillis < 18446744073709551616) :
    offset.expired now remainSeconds = false ↔
      if offset.updateTimeMillis ≤ now then
        now - offset.updateTimeMillis ≤ windowMillis remainSeconds
      else
        now + 18446744073709551616 ≤ offset.updateTimeMillis + windowMillis remainSeconds := by
  rw [PriceOffset.expired, decide_eq_false_iff_not, not_lt]
  have hage : u64 (now - offset.updateTimeMillis) =
      if offset.updateTimeMillis ≤ now then now - offset.updateTimeMillis
      else now + 18446744073709551616 - offset.updateTimeMillis := by
    unfold u64
    split_ifs with hle
    · rw [Int.emod_eq_of_lt (by omega) (by omega)]
      omega
    · rw [← Int.add_emod_right, Int.emod_eq_of_lt (by omega) (by omega)]
      omega
  rw [hage]
  split_ifs
  · rfl
  · omega

/-- A call removes what its test takes for expired, up to the first offset it does not. -/
theorem removesOnlyExpired_iff_takeWhile (w : PriceOffsetWrapper) (call : OffsetCall) :
    RemovesOnlyExpired remainSeconds w call ↔
      ∀ o ∈ (w.offsetList ++ [call.offset]).takeWhile (PriceOffset.expired call.now remainSeconds),
        o.updateTimeMillis + remainSeconds * 1000 < call.now := by
  have hsplit := List.takeWhile_append_dropWhile
    (p := PriceOffset.expired call.now remainSeconds) (l := w.offsetList ++ [call.offset])
  unfold RemovesOnlyExpired
  rw [offsetList_offsetStep]
  constructor
  · rintro ⟨removed, hremoved, hexpired⟩
    rwa [List.append_cancel_right (hsplit.trans hremoved)]
  · intro h
    exact ⟨_, hsplit.symm, h⟩

/-- A call whose list has values of the clock for stamps. -/
theorem removesOnlyExpired_step_iff {w : PriceOffsetWrapper} (call : OffsetCall)
    (hw : ∀ o ∈ w.offsetList, o.updateTimeMillis < 18446744073709551616) :
    RemovesOnlyExpired remainSeconds w call ↔ FindsOldest remainSeconds w call := by
  -- the test errs on one side only
  have hdead : ∀ o : PriceOffset,
      decide (call.now ≤ o.updateTimeMillis + remainSeconds * 1000) = false →
        o.expired call.now remainSeconds = true := by
    intro o ho
    refine expired_of_not_inWindow call.now_lt (decide_eq_false fun h => ?_)
    have hwindow := u64_le (x := (remainSeconds : ℤ) * 1000) (by omega)
    have := of_decide_eq_false ho
    unfold windowMillis at h
    omega
  have htake := FrontEviction.takeWhile_dead_iff hdead (w.offsetList ++ [call.offset])
  simp only [decide_eq_false_iff_not, not_le] at htake
  rw [removesOnlyExpired_iff_takeWhile, htake]
  refine forall₂_congr fun o ho => expired_eq_false_iff call.now_lt ?_
  rcases List.mem_append.mp (List.mem_of_find?_eq_some ho) with hmem | hmem
  · exact hw o hmem
  · rw [List.mem_singleton.mp hmem]
    exact call.now_lt

/-- **Calls remove only expired offsets** exactly when each finds the oldest one within its window:
none reads a clock that went back behind it. -/
theorem removesOnlyExpired_iff (remainSeconds : ℕ) (calls : List OffsetCall) :
    Run.Every (offsetStep remainSeconds) {} (RemovesOnlyExpired remainSeconds) calls ↔
      Run.Every (offsetStep remainSeconds) {} (FindsOldest remainSeconds) calls :=
  forall₃_congr fun before call _ => removesOnlyExpired_step_iff call (stamps_lt before)

/-- The clock goes back by a millisecond: the offset of the later reading is evicted. -/
theorem offset_lost_to_clock :
    ¬ Run.Every (offsetStep 10) {} (RemovesOnlyExpired 10)
      [⟨{}, {}, 1000, by decide⟩, ⟨{}, {}, 999, by decide⟩] := by
  intro h
  obtain ⟨removed, hsplit, hexpired⟩ := h [⟨{}, {}, 1000, by decide⟩] _ List.prefix_rfl
  have hstamps : [1000] ++ [999] = removed.map PriceOffset.updateTimeMillis ++ [999] :=
    (congrArg (List.map PriceOffset.updateTimeMillis) hsplit).trans List.map_append
  have hmem : 1000 ∈ removed.map PriceOffset.updateTimeMillis := by
    rw [← List.append_cancel_right hstamps]
    exact List.mem_singleton.mpr rfl
  obtain ⟨o, ho, hstamp⟩ := List.mem_map.mp hmem
  have : o.updateTimeMillis + 10 * 1000 < 999 := hexpired o ho
  omega

end Runs

end UmTaker.Receiver
