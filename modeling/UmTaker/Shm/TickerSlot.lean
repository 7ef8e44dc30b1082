import UmTaker.General.Register
import UmTaker.General.Run
import UmTaker.Shm.Records
import Mathlib.Algebra.Order.Ring.Int
import Mathlib.Data.Finset.Max
import Mathlib.Tactic.NormNum
import Mathlib.Tactic.Tauto

/-!
# The ticker slot

One slot of a ticker segment. A writer accepts a ticker that is newer than the slot by its update
id or by its update time; the bid and the ask are overwritten by positive prices and sizes, the two
keys always.

## Main definitions

* `tickerShmWriterInit`, `tickerShmWriterUpdate`: initialisation and update of a slot
* `publish`: the slot after an update
* `KeysKept`, `InStep`: an update does not go back in time, and the tickers that ensure it
* `TickerQuote`, `ConsistentFeed`: the data of a ticker, and feeds whose keys agree

## Main results

* `tickerShmWriterUpdate_eq_locked`: the look without the lock decides nothing while the keys only
  grow
* `keysKept_iff_inStep`: no update goes back in time exactly when no ticker is newer by one key and
  older by the other than those before it
* `publication_order_independent`: on a consistent feed neither order nor repetition matters
-/

namespace UmTaker.Shm

/-- `ticker_shm_writer_init`. -/
def tickerShmWriterInit (instId : String) : TickerInfoShm where
  instId := instId
  bidPrice := 0
  bidSize := 0
  askPrice := 0
  askSize := 0
  updateId := 0
  updateTime := 0
  versionNumber := 0

/-- The ticker is newer than what is stored, by its id or by its time. -/
def Newer (hist ticker : TickerInfoShm) : Prop :=
  hist.updateId < ticker.updateId ∨ hist.updateTime < ticker.updateTime

instance (hist ticker : TickerInfoShm) : Decidable (Newer hist ticker) :=
  inferInstanceAs (Decidable (_ ∨ _))

/-- The part of `ticker_shm_writer_update` behind the lock. -/
def updateLocked (slot ticker : TickerInfoShm) : TickerInfoShm × ℤ :=
  if Newer slot ticker then
    let bid := 0 < ticker.bidPrice ∧ 0 < ticker.bidSize
    let ask := 0 < ticker.askPrice ∧ 0 < ticker.askSize
    ({ slot with
        bidPrice := if bid then ticker.bidPrice else slot.bidPrice
        bidSize := if bid then ticker.bidSize else slot.bidSize
        askPrice := if ask then ticker.askPrice else slot.askPrice
        askSize := if ask then ticker.askSize else slot.askSize
        updateId := ticker.updateId
        updateTime := ticker.updateTime
        versionNumber := slot.versionNumber + 1 },
      -- the first ticker of a slot is stored, but not reported as an update
      if 0 < slot.updateId ∧ 0 < slot.updateTime then 1 else 0)
  else (slot, 0)

/-- `ticker_shm_writer_update`, over what was seen without the lock and what is stored by the time
the lock is taken. -/
def tickerShmWriterUpdate (seen slot ticker : TickerInfoShm) : TickerInfoShm × ℤ :=
  if Newer seen ticker then updateLocked slot ticker else (slot, 0)

/-- **The look without the lock decides nothing** while the keys of the slot only grow. -/
theorem tickerShmWriterUpdate_eq_locked {seen slot : TickerInfoShm} (ticker : TickerInfoShm)
    (hid : seen.updateId ≤ slot.updateId) (htime : seen.updateTime ≤ slot.updateTime) :
    tickerShmWriterUpdate seen slot ticker = updateLocked slot ticker := by
  unfold tickerShmWriterUpdate
  split_ifs with hseen
  · rfl
  · have hslot : ¬ Newer slot ticker := by
      rintro (h | h)
      · exact hseen (Or.inl (hid.trans_lt h))
      · exact hseen (Or.inr (htime.trans_lt h))
    rw [updateLocked, if_neg hslot]

/-- The slot after an update that no other one overlaps. -/
def publish (slot ticker : TickerInfoShm) : TickerInfoShm :=
  (tickerShmWriterUpdate slot slot ticker).1

section Publish

variable {slot ticker : TickerInfoShm}

theorem publish_eq (slot ticker : TickerInfoShm) :
    publish slot ticker = (updateLocked slot ticker).1 := by
  rw [publish, tickerShmWriterUpdate_eq_locked ticker le_rfl le_rfl]

theorem publish_of_not_newer (h : ¬ Newer slot ticker) : publish slot ticker = slot := by
  rw [publish_eq, updateLocked, if_neg h]

theorem publish_updateId (slot ticker : TickerInfoShm) :
    (publish slot ticker).updateId =
      if Newer slot ticker then ticker.updateId else slot.updateId := by
  split_ifs with h
  · rw [publish_eq, updateLocked, if_pos h]
  · rw [publish_of_not_newer h]

theorem publish_updateTime (slot ticker : TickerInfoShm) :
    (publish slot ticker).updateTime =
      if Newer slot ticker then ticker.updateTime else slot.updateTime := by
  split_ifs with h
  · rw [publish_eq, updateLocked, if_pos h]
  · rw [publish_of_not_newer h]

end Publish

/-! ## Going back in time -/

/-- The update takes neither key of the slot back. -/
def KeysKept (slot ticker : TickerInfoShm) : Prop :=
  slot.updateId ≤ (publish slot ticker).updateId ∧
    slot.updateTime ≤ (publish slot ticker).updateTime

/-- The keys of the ticker do not disagree with two earlier ones: it is not newer by one and older
by the other. -/
def Agrees (updateId updateTime : ℤ) (ticker : TickerInfoShm) : Prop :=
  (updateId < ticker.updateId → updateTime ≤ ticker.updateTime) ∧
    (updateTime < ticker.updateTime → updateId ≤ ticker.updateId)

instance (updateId updateTime : ℤ) (ticker : TickerInfoShm) :
    Decidable (Agrees updateId updateTime ticker) :=
  inferInstanceAs (Decidable (_ ∧ _))

/-- The largest update id among the tickers, or zero. -/
def largestId (tickers : List TickerInfoShm) : ℤ := Register.largest (·.updateId) 0 tickers

/-- The largest update time among the tickers, or zero. -/
def largestTime (tickers : List TickerInfoShm) : ℤ := Register.largest (·.updateTime) 0 tickers

/-- Every ticker agrees with the largest keys before it. -/
def InStep (tickers : List TickerInfoShm) : Prop :=
  ∀ before ticker, before ++ [ticker] <+: tickers →
    Agrees (largestId before) (largestTime before) ticker

/-- An update keeps the keys exactly when the ticker agrees with them. -/
theorem keysKept_iff_agrees {slot ticker : TickerInfoShm} :
    KeysKept slot ticker ↔ Agrees slot.updateId slot.updateTime ticker := by
  unfold KeysKept Agrees
  rw [publish_updateId, publish_updateTime]
  by_cases h : Newer slot ticker
  · rw [if_pos h, if_pos h]
    unfold Newer at h
    omega
  · rw [if_neg h, if_neg h]
    unfold Newer at h
    omega

/-- After a ticker that agrees with the slot each key is the larger of the two. -/
theorem keys_publish {slot ticker : TickerInfoShm}
    (h : Agrees slot.updateId slot.updateTime ticker) :
    (publish slot ticker).updateId = max slot.updateId ticker.updateId ∧
      (publish slot ticker).updateTime = max slot.updateTime ticker.updateTime := by
  rw [publish_updateId, publish_updateTime]
  unfold Agrees at h
  by_cases hnew : Newer slot ticker
  · rw [if_pos hnew, if_pos hnew]
    unfold Newer at hnew
    omega
  · rw [if_neg hnew, if_neg hnew]
    unfold Newer at hnew
    omega

/-- While every ticker agrees with the slot, the keys of the slot are the largest so far. -/
theorem keys_after_publish (instId : String) {tickers : List TickerInfoShm}
    (h : Run.Every publish (tickerShmWriterInit instId)
      (fun slot ticker => Agrees slot.updateId slot.updateTime ticker) tickers) :
    (Run.after publish (tickerShmWriterInit instId) tickers).updateId = largestId tickers ∧
      (Run.after publish (tickerShmWriterInit instId) tickers).updateTime =
        largestTime tickers := by
  induction tickers using List.reverseRecOn with
  | nil => exact ⟨rfl, rfl⟩
  | append_singleton tickers ticker ih =>
    obtain ⟨hid, htime⟩ := ih (h.of_prefix (List.prefix_append _ _))
    have hlast := keys_publish (h tickers ticker List.prefix_rfl)
    rw [Run.after_snoc, hlast.1, hlast.2, hid, htime]
    simp [largestId, largestTime]

/-- **No update goes back in time** exactly when each ticker agrees with the largest keys before
it. -/
theorem keysKept_iff_inStep (instId : String) (tickers : List TickerInfoShm) :
    Run.Every publish (tickerShmWriterInit instId) KeysKept tickers ↔ InStep tickers := by
  refine Run.every_iff fun before ticker _ hbefore => ?_
  -- while no update has gone back, the slot has the largest keys so far
  obtain ⟨hid, htime⟩ := keys_after_publish instId fun b t ht =>
    keysKept_iff_agrees.mp (hbefore b t ht)
  rw [keysKept_iff_agrees, hid, htime]

/-- A ticker without an id, as the normal path publishes it, and one that is older but has an id:
the update time goes back. -/
theorem update_time_goes_back :
    ¬ ∀ (instId : String) (tickers : List TickerInfoShm),
      Run.Every publish (tickerShmWriterInit instId) KeysKept tickers := by
  intro h
  let normal : TickerInfoShm :=
    { instId := "BTCUSDC", bidPrice := 100, bidSize := 1, askPrice := 101, askSize := 1,
      updateId := 0, updateTime := 10 }
  let zmq : TickerInfoShm := { normal with updateId := 100, updateTime := 5 }
  have hkept := h "BTCUSDC" [normal, zmq] [normal] zmq List.prefix_rfl
  exact absurd (keysKept_iff_agrees.mp hkept) (by decide +kernel)

/-! ## Consistent feeds -/

/-- The data of a ticker, without the count of the updates. -/
structure TickerQuote where
  bidPrice : ℚ
  bidSize : ℚ
  askPrice : ℚ
  askSize : ℚ
  updateId : ℤ
  updateTime : ℤ
  deriving DecidableEq

/-- The data of a slot or a ticker. -/
def TickerInfoShm.quote (ticker : TickerInfoShm) : TickerQuote where
  bidPrice := ticker.bidPrice
  bidSize := ticker.bidSize
  askPrice := ticker.askPrice
  askSize := ticker.askSize
  updateId := ticker.updateId
  updateTime := ticker.updateTime

/-- Prices and sizes of the ticker are positive. -/
structure PositivePrices (ticker : TickerInfoShm) : Prop where
  bidPrice : 0 < ticker.bidPrice
  bidSize : 0 < ticker.bidSize
  askPrice : 0 < ticker.askPrice
  askSize : 0 < ticker.askSize

/-- Prices, sizes, id and time of the ticker are positive. -/
structure Positive (ticker : TickerInfoShm) : Prop extends PositivePrices ticker where
  updateId : 0 < ticker.updateId
  updateTime : 0 < ticker.updateTime

/-- A larger id never has a smaller time, and equal ids mean equal tickers. -/
structure ConsistentFeed (feed : Finset TickerInfoShm) : Prop where
  positive : ∀ t ∈ feed, Positive t
  time_le : ∀ t ∈ feed, ∀ u ∈ feed, t.updateId < u.updateId → t.updateTime ≤ u.updateTime
  eq_of_id : ∀ t ∈ feed, ∀ u ∈ feed, t.updateId = u.updateId → t.quote = u.quote

/-- A ticker of positive prices and sizes that is accepted replaces all data of the slot. -/
theorem quote_publish {slot ticker : TickerInfoShm} (hpos : PositivePrices ticker)
    (hnew : Newer slot ticker) : (publish slot ticker).quote = ticker.quote := by
  rw [publish_eq, updateLocked, if_pos hnew]
  simp [TickerInfoShm.quote, hpos.bidPrice, hpos.bidSize, hpos.askPrice, hpos.askSize]

/-- On data whose times follow their ids the slot is a register of the largest id. -/
theorem quote_publish_eq_write {slot ticker : TickerInfoShm} (hpos : Positive ticker)
    (hfollow : slot.updateTime < ticker.updateTime → slot.updateId < ticker.updateId) :
    (publish slot ticker).quote =
      Register.write TickerQuote.updateId slot.quote ticker.quote := by
  have hiff : Newer slot ticker ↔ slot.quote.updateId < ticker.quote.updateId :=
    ⟨fun h => h.elim id hfollow, Or.inl⟩
  unfold Register.write
  split_ifs with h
  · exact quote_publish hpos.toPositivePrices (hiff.mpr h)
  · rw [publish_of_not_newer (mt hiff.mp h)]

section Feed

variable {feed : Finset TickerInfoShm} {tickers : List TickerInfoShm}

/-- What the register of the quotes holds is the first quote or one of the feed. -/
theorem mem_feed_of_register (instId : String) (hmem : ∀ t ∈ tickers, t ∈ feed) :
    ((tickers.map (·.quote)).foldl (Register.write TickerQuote.updateId)
        (tickerShmWriterInit instId).quote = (tickerShmWriterInit instId).quote) ∨
      ∃ u ∈ feed, (tickers.map (·.quote)).foldl (Register.write TickerQuote.updateId)
        (tickerShmWriterInit instId).quote = u.quote := by
  have hheld : (tickers.map (·.quote)).foldl (Register.write TickerQuote.updateId)
      (tickerShmWriterInit instId).quote ∈
        (tickerShmWriterInit instId).quote :: tickers.map (·.quote) := Register.foldl_write_mem
  rcases List.mem_cons.mp hheld with h | h
  · exact Or.inl h
  · obtain ⟨u, hu, he⟩ := List.mem_map.mp h
    exact Or.inr ⟨u, hmem u hu, he.symm⟩

/-- A run over a consistent feed is a run of the register. -/
theorem quote_after_publish (instId : String) (hfeed : ConsistentFeed feed)
    (hmem : ∀ t ∈ tickers, t ∈ feed) :
    (Run.after publish (tickerShmWriterInit instId) tickers).quote =
      (tickers.map (·.quote)).foldl (Register.write TickerQuote.updateId)
        (tickerShmWriterInit instId).quote := by
  induction tickers using List.reverseRecOn with
  | nil => rfl
  | append_singleton tickers ticker ih =>
    have hbefore : ∀ t ∈ tickers, t ∈ feed := fun t ht => hmem t (List.mem_append_left _ ht)
    have hticker : ticker ∈ feed := hmem ticker (by simp)
    have hpos := hfeed.positive ticker hticker
    have ih := ih hbefore
    rw [Run.after_snoc, List.map_append, List.foldl_append, ← ih]
    refine quote_publish_eq_write hpos fun htime => ?_
    rcases mem_feed_of_register instId hbefore with hfirst | ⟨u, hu, hslot⟩
    · rw [hfirst] at ih
      have hid : (Run.after publish (tickerShmWriterInit instId) tickers).updateId = 0 :=
        congrArg TickerQuote.updateId ih
      rw [hid]
      exact hpos.updateId
    · rw [hslot] at ih
      have hid : (Run.after publish (tickerShmWriterInit instId) tickers).updateId = u.updateId :=
        congrArg TickerQuote.updateId ih
      have hut : (Run.after publish (tickerShmWriterInit instId) tickers).updateTime =
          u.updateTime := congrArg TickerQuote.updateTime ih
      rw [hut] at htime
      rw [hid]
      rcases lt_trichotomy u.updateId ticker.updateId with h | h | h
      · exact h
      · have := congrArg TickerQuote.updateTime (hfeed.eq_of_id u hu ticker hticker h)
        exact absurd this htime.ne
      · exact absurd (hfeed.time_le ticker hticker u hu h) (not_le.mpr htime)

/-- After a delivery of the whole feed the slot holds the data of the ticker with the largest id. -/
theorem quote_after_delivery (instId : String) (hfeed : ConsistentFeed feed)
    (htickers : ∀ t, t ∈ tickers ↔ t ∈ feed) {latest : TickerInfoShm} (hlatest : latest ∈ feed)
    (hmax : ∀ u ∈ feed, u.updateId ≤ latest.updateId) :
    (Run.after publish (tickerShmWriterInit instId) tickers).quote = latest.quote := by
  rw [quote_after_publish instId hfeed fun t ht => (htickers t).mp ht]
  have hpos := (hfeed.positive latest hlatest).updateId
  have hcases : ∀ q ∈ (tickerShmWriterInit instId).quote :: tickers.map (·.quote),
      q.updateId = 0 ∨ ∃ u ∈ feed, u.quote = q := by
    intro q hq
    rcases List.mem_cons.mp hq with rfl | hq
    · exact Or.inl rfl
    · obtain ⟨u, hu, he⟩ := List.mem_map.mp hq
      exact Or.inr ⟨u, (htickers u).mp hu, he⟩
  have hlatest' : latest.quote ∈ (tickerShmWriterInit instId).quote :: tickers.map (·.quote) :=
    List.mem_cons_of_mem _ (List.mem_map_of_mem ((htickers latest).mpr hlatest))
  refine Register.foldl_write_eq hlatest' (fun q hq => ?_) fun q hq hkey => ?_
  · rcases hcases q hq with h | ⟨u, hu, rfl⟩
    · rw [h]
      exact hpos.le
    · exact hmax u hu
  · rcases hcases q hq with h | ⟨u, hu, rfl⟩
    · rw [h] at hkey
      exact absurd hkey hpos.ne
    · exact hfeed.eq_of_id u hu latest hlatest hkey

end Feed

/-- **Publication does not depend on the order** in which a consistent feed is delivered, nor on
repetition: the slots end with the same data, those of the ticker with the largest id. -/
theorem publication_order_independent (instId : String) {feed : Finset TickerInfoShm}
    (hfeed : ConsistentFeed feed) {tickers tickers' : List TickerInfoShm}
    (htickers : ∀ t, t ∈ tickers ↔ t ∈ feed) (htickers' : ∀ t, t ∈ tickers' ↔ t ∈ feed) :
    (Run.after publish (tickerShmWriterInit instId) tickers).quote =
        (Run.after publish (tickerShmWriterInit instId) tickers').quote ∧
      ∀ latest ∈ feed, (∀ u ∈ feed, u.updateId ≤ latest.updateId) →
        (Run.after publish (tickerShmWriterInit instId) tickers).quote = latest.quote := by
  constructor
  · rcases feed.eq_empty_or_nonempty with rfl | hne
    · have hnil : tickers = [] := by
        simpa [List.eq_nil_iff_forall_not_mem] using htickers
      have hnil' : tickers' = [] := by
        simpa [List.eq_nil_iff_forall_not_mem] using htickers'
      rw [hnil, hnil']
    · obtain ⟨latest, hlatest, hmax⟩ := feed.exists_max_image (·.updateId) hne
      rw [quote_after_delivery instId hfeed htickers hlatest hmax,
        quote_after_delivery instId hfeed htickers' hlatest hmax]
  · intro latest hlatest hmax
    exact quote_after_delivery instId hfeed htickers hlatest hmax

/-- A ticker of the given keys; its price tells the tickers of a feed apart. -/
def feedTicker (updateId updateTime : ℤ) (price : ℚ) : TickerInfoShm where
  instId := "BTCUSDC"
  bidPrice := price
  bidSize := 1
  askPrice := price + 1
  askSize := 2
  updateId := updateId
  updateTime := updateTime

/-- Two tickers, delivered in order, and in the other order with one repeated. -/
theorem publication_order_independent_two :
    (Run.after publish (tickerShmWriterInit "BTCUSDC")
        [feedTicker 7 100 50, feedTicker 8 100 51]).quote =
      (Run.after publish (tickerShmWriterInit "BTCUSDC")
        [feedTicker 8 100 51, feedTicker 7 100 50, feedTicker 8 100 51]).quote := by
  let feed : Finset TickerInfoShm := {feedTicker 7 100 50, feedTicker 8 100 51}
  have hfeed : ConsistentFeed feed := by
    have hall : ∀ t ∈ feed, t = feedTicker 7 100 50 ∨ t = feedTicker 8 100 51 := by
      intro t ht
      simpa [feed] using ht
    constructor
    · intro t ht
      rcases hall t ht with rfl | rfl <;>
        refine ⟨⟨?_, ?_, ?_, ?_⟩, ?_, ?_⟩ <;> norm_num [feedTicker]
    · intro t ht u hu
      rcases hall t ht with rfl | rfl <;> rcases hall u hu with rfl | rfl <;> simp [feedTicker]
    · intro t ht u hu
      rcases hall t ht with rfl | rfl <;> rcases hall u hu with rfl | rfl <;> simp [feedTicker]
  exact (publication_order_independent "BTCUSDC" hfeed (by simp [feed])
    (by
      intro t
      simp only [List.mem_cons, List.not_mem_nil, or_false, feed, Finset.mem_insert,
        Finset.mem_singleton]
      tauto)).1

end UmTaker.Shm
