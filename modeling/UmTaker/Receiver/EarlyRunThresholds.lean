import UmTaker.General.OrderStatistic
import UmTaker.Receiver.InstrumentRouting
import UmTaker.Shm.Agreement
import UmTaker.Shm.ThresholdSlot

/-!
# The early-run thresholds, from tickers to slots

Subscribers push tickers into the composites and queue them; one thread takes them from the queue,
works out the offset against the latest ticker of the other side, and queues the id; another takes
the ids, works out the threshold of the base asset from its offsets, and stores it in the composite
of thresholds and in the slot of the asset. The threads go on in any order. An entry of a queue may
overtake those of other producers, and an enqueue may fail.

## Main definitions

* `EarlyRunState`, `earlyRunStep`: what the threads share, and their steps
* `StoredRound`: a round that stored its threshold, with the offsets pushed until then
* `PublishedFrom`: a threshold is right for a list of offsets

## Main results

* `early_run_published`: composite and slot hold the threshold of the last round that stored one,
  which is right for the offsets within the window of the last push
-/

namespace UmTaker.Receiver

open Shm

/-! ## The threads -/

/-- A round of the calculator that stored its threshold, and the offsets that had been pushed for
its base asset by then. -/
structure StoredRound where
  threshold : EarlyRunThreshold
  pushes : List OffsetCall

/-- What the threads share: the composites of tickers, the tickers received and not queued yet, the
queue of tickers, the one in hand of the offset thread with the composites it looked at, the
offsets, the queue of ids, the thresholds and their slots. The ledger has the offsets pushed and the
rounds that stored a threshold, by base asset. -/
structure EarlyRunState where
  composite : TickerRole → TickerComposite
  received : List UmTickerInfo
  tickerInfoChannel : List UmTickerInfo
  inHand : Option (UmTickerInfo × (TickerRole → TickerComposite))
  offsets : PriceOffsetComposite
  earlyRunCalculationChannel : List String
  thresholds : StringMap EarlyRunThreshold
  slots : ℤ → EarlyRunThresholdShm
  pushes : String → List OffsetCall
  stored : String → List StoredRound

/-- A step of a thread: a subscriber updates a composite, or queues a ticker it received; the offset
thread takes a ticker and looks for its counterpart, or pushes the offset and queues the id; the
calculator has a round. The queues are asked for the entry at a place. -/
inductive EarlyRunEvent
  | updateTicker (role : TickerRole) (ticker : UmTickerInfo) (now : ℕ)
  | enqueueTickerInfo (place : ℕ) (queued : Bool)
  | dequeueTickerInfo (place : ℕ)
  | processTickerInfo (now : Fin 18446744073709551616) (queued : Bool)
  | calculateThreshold (place : ℕ) (now : ℕ)

variable (config : ReceiverConfig) (calculation : CalculationConfig)

/-- The offset a ticker stands for, with its base asset, if its counterpart has a ticker. -/
def pushOf (composite : TickerRole → TickerComposite) (tickerInfo : UmTickerInfo)
    (now : Fin 18446744073709551616) : Option (String × OffsetCall) :=
  (pairTickers config composite tickerInfo).map fun pair =>
    (pair.1, ⟨pair.2.1, pair.2.2, now, now.isLt⟩)

/-- The ledger of the offsets with one more. -/
def addPush (pushes : String → List OffsetCall) : Option (String × OffsetCall) →
    String → List OffsetCall
  | none => pushes
  | some push => Function.update pushes push.1 (pushes push.1 ++ [push.2])

namespace EarlyRunState

/-- `GlobalContext::init`, with the slots initialised. -/
def start (slots : ℤ → EarlyRunThresholdShm) : EarlyRunState where
  composite
    | .benchmark => .init config.benchmarkQuoteAsset config.nodeBaseAssets
        calculation.calculateSmaIntervalSeconds
    | .follower => .init config.followerQuoteAsset config.nodeBaseAssets
        calculation.calculateSmaIntervalSeconds
  received := []
  tickerInfoChannel := []
  inHand := none
  offsets :=
    ⟨config.nodeBaseAssets.foldl (fun m base => m.insert base {}) .empty,
      calculation.calculateSmaIntervalSeconds⟩
  earlyRunCalculationChannel := []
  thresholds := config.nodeBaseAssets.foldl (fun m base => m.insert base {}) .empty
  slots := slots
  pushes _ := []
  stored _ := []

/-- A ticker of the queue, with the composites at the time its counterpart is looked for. -/
def dequeueTickerInfo (place : ℕ) (s : EarlyRunState) : EarlyRunState :=
  match s.inHand, s.tickerInfoChannel[place]? with
  | none, some tickerInfo =>
    { s with
      tickerInfoChannel := s.tickerInfoChannel.eraseIdx place
      inHand := some (tickerInfo, s.composite) }
  | _, _ => s

/-- A ticker received goes to the queue, or is dropped when it cannot be queued. -/
def enqueueTickerInfo (place : ℕ) (queued : Bool) (s : EarlyRunState) : EarlyRunState :=
  match s.received[place]? with
  | some tickerInfo =>
    { s with
      received := s.received.eraseIdx place
      tickerInfoChannel :=
        if queued then s.tickerInfoChannel ++ [tickerInfo] else s.tickerInfoChannel }
  | none => s

/-- The rest of a pass of `process_ticker_info_price_offset`. -/
def processTickerInfo (now : Fin 18446744073709551616) (queued : Bool) (s : EarlyRunState) :
    EarlyRunState :=
  match s.inHand with
  | some (tickerInfo, composite) =>
    let r := processTickerInfoPriceOffset config composite tickerInfo now s.offsets
    { s with
      inHand := none
      offsets := r.1
      earlyRunCalculationChannel :=
        if queued then s.earlyRunCalculationChannel ++ [r.2] else s.earlyRunCalculationChannel
      pushes := addPush s.pushes (pushOf config composite tickerInfo now) }
  | none => s

/-- A threshold goes to the composite, and to the slot of its base asset, if it has one. -/
def store (stored : StoredThreshold) (s : EarlyRunState) : EarlyRunState :=
  { s with
    thresholds := s.thresholds.set stored.baseAsset stored.threshold
    slots :=
      match stored.published with
      | some published =>
        Function.update s.slots published.1
          (earlyRunKind.store published.2 (s.slots published.1))
      | none => s.slots
    stored := Function.update s.stored stored.baseAsset
      (s.stored stored.baseAsset ++ [⟨stored.threshold, s.pushes stored.baseAsset⟩]) }

/-- A pass of `process_early_run_threshold_calculate`. -/
def calculateThreshold (place now : ℕ) (s : EarlyRunState) : EarlyRunState :=
  match s.earlyRunCalculationChannel[place]? with
  | some instId =>
    let s' := { s with
      earlyRunCalculationChannel := s.earlyRunCalculationChannel.eraseIdx place }
    match processEarlyRunThresholdCalculate config calculation (.init config) s.offsets instId now
      with
    | some stored => s'.store stored
    | none => s'
  | none => s

end EarlyRunState

/-- A step of a thread. -/
def earlyRunStep (s : EarlyRunState) : EarlyRunEvent → EarlyRunState
  | .updateTicker role ticker now =>
    { s with
      composite := Function.update s.composite role ((s.composite role).updateTicker ticker now)
      received := s.received ++ [ticker] }
  | .enqueueTickerInfo place queued => s.enqueueTickerInfo place queued
  | .dequeueTickerInfo place => s.dequeueTickerInfo place
  | .processTickerInfo now queued => s.processTickerInfo config now queued
  | .calculateThreshold place now => s.calculateThreshold config calculation place now

/-- What the threads share after some steps. -/
def earlyRunAfter (slots : ℤ → EarlyRunThresholdShm) (events : List EarlyRunEvent) :
    EarlyRunState :=
  Run.after (earlyRunStep config calculation) (.start config calculation slots) events

variable {config calculation}

/-! ## Thresholds -/

/-- The field of a difference. -/
def EarlyRunThreshold.diff (threshold : EarlyRunThreshold) : DiffKind → ℚ
  | .avg => threshold.avgPriceDiffMedian
  | .bidAsk => threshold.bidAskPriceDiffMedian
  | .askBid => threshold.askBidPriceDiffMedian

/-- The threshold is right for the offsets: there are enough of them, and it has the middle or the
mean of each difference. -/
structure PublishedFrom (calculation : CalculationConfig) (threshold : EarlyRunThreshold)
    (offsets : List PriceOffset) : Prop where
  length_eq : threshold.priceOffsetLength = offsets.length
  enough : calculation.calculateSmaIntervalSeconds ≤ offsets.length
  median : calculation.earlyRunMedian = true → ∀ k,
    OrderStatistic.IsRank (offsets.map (·.diff k)) (offsets.length / 2) (threshold.diff k)
  mean : calculation.earlyRunMedian = false → ∀ k,
    threshold.diff k = (offsets.map (·.diff k)).sum / offsets.length

/-- The median of offsets most of which lie in an interval does so, whatever the others are. -/
theorem PublishedFrom.mem_of_majority {threshold : EarlyRunThreshold} {offsets : List PriceOffset}
    (h : PublishedFrom calculation threshold offsets) (hmedian : calculation.earlyRunMedian = true)
    (k : DiffKind) {lo hi : ℚ} (hmajority : offsets.length <
      2 * offsets.countP fun o => decide (lo ≤ o.diff k ∧ o.diff k ≤ hi)) :
    lo ≤ threshold.diff k ∧ threshold.diff k ≤ hi := by
  have hrank := h.median hmedian k
  rw [← List.length_map (f := fun o : PriceOffset => o.diff k)] at hrank
  apply hrank.mem_of_majority
  rw [List.countP_map, List.length_map]
  exact hmajority

/-- A threshold worked out is right for the offsets of its base asset. -/
theorem publishedFrom_earlyRunThreshold {offsets : PriceOffsetComposite} {baseAsset : String}
    {now : ℕ} {threshold : EarlyRunThreshold} (hn : 1 ≤ calculation.calculateSmaIntervalSeconds)
    (hsums : ((offsets.wrapperMap baseAsset).getD {}).SumsOf
      ((offsets.wrapperMap baseAsset).getD {}).offsetList)
    (h : earlyRunThreshold calculation offsets baseAsset now = some threshold) :
    PublishedFrom calculation threshold ((offsets.wrapperMap baseAsset).getD {}).offsetList ∧
      threshold.currentTimeMills = now := by
  have hlist : offsets.getPriceOffsetList baseAsset =
      ((offsets.wrapperMap baseAsset).getD {}).offsetList := by
    unfold PriceOffsetComposite.getPriceOffsetList
    cases offsets.wrapperMap baseAsset <;> rfl
  unfold earlyRunThreshold at h
  cases hmedian : calculation.earlyRunMedian with
  | true =>
    rw [if_pos hmedian, hlist] at h
    set list := ((offsets.wrapperMap baseAsset).getD {}).offsetList
    dsimp only at h
    split_ifs at h with henough
    obtain rfl := Option.some.inj h
    have hlength : list.length / 2 < list.length := Nat.div_lt_self (by omega) (by decide)
    refine ⟨⟨rfl, not_lt.mp henough, fun _ k => ?_, fun hmean => ?_⟩, rfl⟩
    · have hrank := OrderStatistic.isRank_mergeSort (l := list.map (·.diff k))
        (k := list.length / 2) (by rwa [List.length_map]) 0
      cases k <;> exact hrank
    · rw [hmedian] at hmean
      cases hmean
  | false =>
    rw [if_neg (by simp [hmedian])] at h
    unfold PriceOffsetComposite.getPriceAvgResult at h
    cases hwrapper : offsets.wrapperMap baseAsset with
    | none =>
      rw [hwrapper] at h
      cases h
    | some wrapper =>
      simp only [hwrapper, Option.map_some, Option.bind_eq_bind, Option.bind_some,
        Option.getD_some] at h hsums ⊢
      split_ifs at h with henough
      obtain rfl := Option.some.inj h
      have hlength : wrapper.calculateAvgResult.priceOffsetLength = wrapper.offsetList.length := by
        unfold PriceOffsetWrapper.calculateAvgResult
        split_ifs with hzero
        · exact hzero.symm
        · rfl
      have hne : wrapper.offsetList ≠ [] := by
        apply List.ne_nil_of_length_pos
        omega
      have henough := not_lt.mp henough
      rw [hlength] at henough
      refine ⟨⟨hlength, henough, fun hmean => ?_, fun _ k => ?_⟩, rfl⟩
      · rw [hmedian] at hmean
        cases hmean
      · rw [← PriceOffsetWrapper.mean_calculateAvgResult hsums hne k]
        cases k <;> rfl

/-! ## Pushes -/

/-- A string without its end, and the end. -/
theorem cutEnd_append_self {str suffix : String} (h : strEndsWith str suffix = true) :
    cutEnd str suffix ++ suffix = str := by
  obtain ⟨base, hbase⟩ := strEndsWith_iff.mp h
  have hstr : str = String.ofList base ++ suffix := by
    apply String.toList_inj.mp
    rw [String.toList_append, String.toList_ofList, hbase]
  rw [hstr, cutEnd_append]

/-- What a ticker does to the offsets is the push it stands for. -/
theorem processTickerInfoPriceOffset_eq (composite : TickerRole → TickerComposite)
    (tickerInfo : UmTickerInfo) (now : Fin 18446744073709551616) (offsets : PriceOffsetComposite) :
    (processTickerInfoPriceOffset config composite tickerInfo now offsets).1 =
      match pushOf config composite tickerInfo now with
      | some push => offsets.updatePriceOffset push.1 push.2.benchmarkTick push.2.followerTick
        push.2.now
      | none => offsets := by
  unfold processTickerInfoPriceOffset pushOf
  cases pairTickers config composite tickerInfo <;> rfl

/-- A push takes the wrapper of its base asset one call further. -/
theorem wrapperMap_updatePriceOffset (c : PriceOffsetComposite) (baseAsset : String)
    (call : OffsetCall) (other : String) :
    ((c.updatePriceOffset baseAsset call.benchmarkTick call.followerTick call.now).wrapperMap
        other).getD {} =
      if other = baseAsset then
        offsetStep c.offsetRemainSeconds ((c.wrapperMap baseAsset).getD {}) call
      else (c.wrapperMap other).getD {} := by
  unfold PriceOffsetComposite.updatePriceOffset
  cases hwrapper : c.wrapperMap baseAsset with
  | some wrapper =>
    dsimp only
    rw [StringMap.set_apply]
    split_ifs <;> rfl
  | none =>
    simp only [StringMap.insert_apply, hwrapper]
    split_ifs <;> rfl

theorem offsetRemainSeconds_updatePriceOffset (c : PriceOffsetComposite) (baseAsset : String)
    (benchmarkTick followerTick : UmTickerInfo) (now : ℕ) :
    (c.updatePriceOffset baseAsset benchmarkTick followerTick now).offsetRemainSeconds =
      c.offsetRemainSeconds := by
  unfold PriceOffsetComposite.updatePriceOffset
  cases c.wrapperMap baseAsset <;> rfl

/-! ## Where the offsets come from -/

/-- A subscriber updated the composite of a side with the ticker. -/
def Updated (events : List EarlyRunEvent) (role : TickerRole) (ticker : UmTickerInfo) : Prop :=
  ∃ now, .updateTicker role ticker now ∈ events

theorem Updated.mono {events events' : List EarlyRunEvent} {role : TickerRole}
    {ticker : UmTickerInfo} (h : Updated events role ticker) (hsub : events ⊆ events') :
    Updated events' role ticker :=
  h.imp fun _ hmem => hsub hmem

/-- The tickers of a composite are filed under their ids, and were received for its side. -/
def Filed (events : List EarlyRunEvent) (composite : TickerRole → TickerComposite) : Prop :=
  ∀ role instId wrapper, (composite role).wrapperMap instId = some wrapper →
    ∀ ticker ∈ wrapper.tickerList, ticker.instId = instId ∧ Updated events role ticker

/-- The tickers of an offset are those of the two instruments of its base asset, received. -/
structure Paired (config : ReceiverConfig) (events : List EarlyRunEvent) (baseAsset : String)
    (call : OffsetCall) : Prop where
  benchmarkId : call.benchmarkTick.instId = config.instId .benchmark baseAsset
  followerId : call.followerTick.instId = config.instId .follower baseAsset
  benchmark : ∃ role, Updated events role call.benchmarkTick
  follower : ∃ role, Updated events role call.followerTick

/-- Whatever the threads hold was received. -/
structure Sourced (config : ReceiverConfig) (events : List EarlyRunEvent) (s : EarlyRunState) :
    Prop where
  filed : Filed events s.composite
  received : ∀ ticker ∈ s.received, ∃ role, Updated events role ticker
  queued : ∀ ticker ∈ s.tickerInfoChannel, ∃ role, Updated events role ticker
  inHand : ∀ ticker composite, s.inHand = some (ticker, composite) →
    (∃ role, Updated events role ticker) ∧ Filed events composite
  paired : ∀ baseAsset, ∀ call ∈ s.pushes baseAsset, Paired config events baseAsset call

section Provenance

variable {events : List EarlyRunEvent} {s : EarlyRunState} {e : EarlyRunEvent}

theorem Filed.mono {composite : TickerRole → TickerComposite} (h : Filed events composite) :
    Filed (events ++ [e]) composite := by
  intro role instId wrapper hwrapper ticker hmem
  obtain ⟨hid, hupdated⟩ := h role instId wrapper hwrapper ticker hmem
  exact ⟨hid, hupdated.mono (List.subset_append_left _ _)⟩

theorem Paired.mono {baseAsset : String} {call : OffsetCall}
    (h : Paired config events baseAsset call) : Paired config (events ++ [e]) baseAsset call where
  benchmarkId := h.benchmarkId
  followerId := h.followerId
  benchmark := h.benchmark.imp fun _ hu => hu.mono (List.subset_append_left _ _)
  follower := h.follower.imp fun _ hu => hu.mono (List.subset_append_left _ _)

/-- One more step keeps what was received. -/
theorem Sourced.mono (h : Sourced config events s) : Sourced config (events ++ [e]) s where
  filed := h.filed.mono
  received ticker hmem := (h.received ticker hmem).imp fun _ hu =>
    hu.mono (List.subset_append_left _ _)
  queued ticker hmem := (h.queued ticker hmem).imp fun _ hu =>
    hu.mono (List.subset_append_left _ _)
  inHand ticker composite hhand :=
    ⟨(h.inHand ticker composite hhand).1.imp fun _ hu => hu.mono (List.subset_append_left _ _),
      (h.inHand ticker composite hhand).2.mono⟩
  paired baseAsset call hmem := (h.paired baseAsset call hmem).mono

/-- A ticker pushed into a composite is filed there. -/
theorem Filed.updateTicker {composite : TickerRole → TickerComposite} (h : Filed events composite)
    {role : TickerRole} {ticker : UmTickerInfo} (now : ℕ) (hupdated : Updated events role ticker) :
    Filed events
      (Function.update composite role ((composite role).updateTicker ticker now)) := by
  intro role' instId wrapper hwrapper other hmem
  by_cases hrole : role' = role
  · subst hrole
    rw [Function.update_self] at hwrapper
    simp only [TickerComposite.updateTicker, StringMap.set_apply] at hwrapper
    split_ifs at hwrapper with hid
    · subst hid
      obtain rfl := Option.some.inj hwrapper
      obtain ⟨⟨n, hlist⟩, -⟩ := TickerWrapper.updateTicker_spec
        (((composite role').wrapperMap ticker.instId).getD {}) ticker now
        (composite role').tickerRemainSeconds
      rw [hlist] at hmem
      rcases List.mem_append.mp (List.mem_of_mem_drop hmem) with hold | hnew
      · cases hwrapper : (composite role').wrapperMap ticker.instId with
        | none =>
          rw [hwrapper] at hold
          simp at hold
        | some old =>
          rw [hwrapper] at hold
          exact h role' ticker.instId old hwrapper other hold
      · rw [List.mem_singleton.mp hnew]
        exact ⟨rfl, hupdated⟩
    · exact h role' instId wrapper hwrapper other hmem
  · rw [Function.update_of_ne hrole] at hwrapper
    exact h role' instId wrapper hwrapper other hmem

/-- The latest ticker of an instrument has its id. -/
theorem Filed.getLastestTicker {composite : TickerRole → TickerComposite}
    (h : Filed events composite) {role : TickerRole} {instId : String} {ticker : UmTickerInfo}
    (hlast : (composite role).getLastestTicker instId = some ticker) :
    ticker.instId = instId ∧ Updated events role ticker := by
  obtain ⟨wrapper, hwrapper, hlast⟩ := Option.bind_eq_some_iff.mp hlast
  exact h role instId wrapper hwrapper ticker (List.mem_of_getLast? hlast)

/-- A push pairs two tickers of its base asset. -/
theorem paired_pushOf {composite : TickerRole → TickerComposite} (hfiled : Filed events composite)
    {tickerInfo : UmTickerInfo} (hticker : ∃ role, Updated events role tickerInfo)
    {now : Fin 18446744073709551616} {push : String × OffsetCall}
    (hpush : pushOf config composite tickerInfo now = some push) :
    Paired config events push.1 push.2 := by
  obtain ⟨pair, hpair, rfl⟩ := Option.map_eq_some_iff.mp hpush
  unfold pairTickers at hpair
  split_ifs at hpair with hbenchmark hfollower
  · obtain ⟨other, hother, hpair⟩ := Option.bind_eq_some_iff.mp hpair
    obtain rfl := Option.some.inj hpair
    obtain ⟨hid, hupdated⟩ := hfiled.getLastestTicker hother
    exact ⟨(cutEnd_append_self hbenchmark).symm, hid, hticker, ⟨_, hupdated⟩⟩
  · obtain ⟨other, hother, hpair⟩ := Option.bind_eq_some_iff.mp hpair
    obtain rfl := Option.some.inj hpair
    obtain ⟨hid, hupdated⟩ := hfiled.getLastestTicker hother
    exact ⟨hid, (cutEnd_append_self hfollower).symm, ⟨_, hupdated⟩, hticker⟩

theorem mem_addPush {pushes : String → List OffsetCall} {push : Option (String × OffsetCall)}
    {baseAsset : String} {call : OffsetCall} (h : call ∈ addPush pushes push baseAsset) :
    call ∈ pushes baseAsset ∨ push = some (baseAsset, call) := by
  cases push with
  | none => exact .inl h
  | some push =>
    simp only [addPush, Function.update_apply] at h
    split_ifs at h with hb
    · subst hb
      rcases List.mem_append.mp h with h | h
      · exact .inl h
      · rw [List.mem_singleton.mp h]
        exact .inr rfl
    · exact .inl h

/-- **Every step keeps it** that all was received. -/
theorem Sourced.step (h : Sourced config events s) :
    Sourced config (events ++ [e]) (earlyRunStep config calculation s e) := by
  have hmono := h.mono (e := e)
  cases e with
  | updateTicker role ticker now =>
    have hupdated : Updated (events ++ [.updateTicker role ticker now]) role ticker :=
      ⟨now, by simp⟩
    refine ⟨hmono.filed.updateTicker now hupdated, fun other hmem => ?_, hmono.queued,
      hmono.inHand, hmono.paired⟩
    rcases List.mem_append.mp hmem with hmem | hmem
    · exact hmono.received other hmem
    · rw [List.mem_singleton.mp hmem]
      exact ⟨role, hupdated⟩
  | enqueueTickerInfo place queued =>
    simp only [earlyRunStep, EarlyRunState.enqueueTickerInfo]
    split
    · next tickerInfo hplace =>
      have hticker := hmono.received tickerInfo (List.mem_of_getElem? hplace)
      refine ⟨hmono.filed, fun other hmem => ?_, fun other hmem => ?_, hmono.inHand, hmono.paired⟩
      · exact hmono.received other (List.mem_of_mem_eraseIdx hmem)
      · split_ifs at hmem
        · rcases List.mem_append.mp hmem with hmem | hmem
          · exact hmono.queued other hmem
          · rw [List.mem_singleton.mp hmem]
            exact hticker
        · exact hmono.queued other hmem
    · exact hmono
  | dequeueTickerInfo place =>
    simp only [earlyRunStep, EarlyRunState.dequeueTickerInfo]
    split
    · next tickerInfo hhand hplace =>
      refine ⟨hmono.filed, hmono.received, fun other hmem => ?_, fun other composite hin => ?_,
        hmono.paired⟩
      · exact hmono.queued other (List.mem_of_mem_eraseIdx hmem)
      · obtain ⟨rfl, rfl⟩ := Prod.ext_iff.mp (Option.some.inj hin)
        exact ⟨hmono.queued tickerInfo (List.mem_of_getElem? hplace), hmono.filed⟩
    · exact hmono
  | processTickerInfo now queued =>
    simp only [earlyRunStep, EarlyRunState.processTickerInfo]
    split
    · next tickerInfo composite hhand =>
      obtain ⟨hticker, hfiled⟩ := hmono.inHand tickerInfo composite hhand
      refine ⟨hmono.filed, hmono.received, hmono.queued, fun _ _ hin => ?_,
        fun baseAsset call hmem => ?_⟩
      · cases hin
      · rcases mem_addPush hmem with hmem | hpush
        · exact hmono.paired baseAsset call hmem
        · exact paired_pushOf hfiled hticker hpush
    · exact hmono
  | calculateThreshold place now =>
    simp only [earlyRunStep, EarlyRunState.calculateThreshold]
    split
    · split
      · exact ⟨hmono.filed, hmono.received, hmono.queued, hmono.inHand, hmono.paired⟩
      · exact ⟨hmono.filed, hmono.received, hmono.queued, hmono.inHand, hmono.paired⟩
    · exact hmono

end Provenance

/-! ## What composite and slot hold -/

/-- The clock reading of a push. -/
def pushReading : EarlyRunEvent → Option ℕ
  | .processTickerInfo now _ => some now
  | _ => none

/-- The clock reading of a round of the calculator. -/
def roundReading : EarlyRunEvent → Option ℕ
  | .calculateThreshold _ now => some now
  | _ => none

/-- The slot of a base asset after rounds that stored thresholds: that of the last one. -/
def slotOf (baseAsset : String) (rounds : List StoredRound) : EarlyRunThresholdShm :=
  { (rounds.getLast?.map (·.threshold.shm)).getD {} with
    asset := baseAsset
    versionNumber := rounds.length }

/-- Rounds at clock readings that do not go back are all stored. -/
theorem foldl_store_eq_slotOf (baseAsset : String) {rounds : List StoredRound}
    (hclock : (rounds.map (·.threshold.currentTimeMills)).Pairwise (· ≤ ·)) :
    rounds.foldl (fun slot r => earlyRunKind.store r.threshold.shm slot)
      (earlyRunShmWriterInit baseAsset) = slotOf baseAsset rounds := by
  induction rounds using List.reverseRecOn with
  | nil => rfl
  | append_singleton rounds r ih =>
    rw [List.map_append, List.pairwise_append] at hclock
    rw [List.foldl_append, ih hclock.1, List.foldl_cons, List.foldl_nil]
    have hle : earlyRunKind.timeMills (slotOf baseAsset rounds) ≤
        earlyRunKind.timeMills r.threshold.shm := by
      show (slotOf baseAsset rounds).timeMills ≤ r.threshold.currentTimeMills
      cases hlast : rounds.getLast? with
      | none => simp [slotOf, hlast]
      | some before =>
        have hmem : before.threshold.currentTimeMills ∈
            rounds.map (·.threshold.currentTimeMills) :=
          List.mem_map_of_mem (List.mem_of_getLast? hlast)
        have hbefore := hclock.2.2 _ hmem r.threshold.currentTimeMills (by simp)
        simpa [slotOf, hlast, EarlyRunThreshold.shm] using hbefore
    unfold ThresholdKind.store
    rw [if_pos hle]
    simp [slotOf, earlyRunKind, EarlyRunThreshold.shm]

/-- What the ledger says of the offsets, the thresholds and the slots. -/
structure Ledgered (config : ReceiverConfig) (calculation : CalculationConfig)
    (slots : ℤ → EarlyRunThresholdShm) (events : List EarlyRunEvent) (s : EarlyRunState) :
    Prop where
  remain : s.offsets.offsetRemainSeconds = calculation.calculateSmaIntervalSeconds
  wrapper : ∀ baseAsset, (s.offsets.wrapperMap baseAsset).getD {} =
    offsetsAfter calculation.calculateSmaIntervalSeconds (s.pushes baseAsset)
  pushClock : ∀ baseAsset,
    ((s.pushes baseAsset).map (·.now)).Sublist (events.filterMap pushReading)
  roundClock : ∀ baseAsset, ((s.stored baseAsset).map (·.threshold.currentTimeMills)).Sublist
    (events.filterMap roundReading)
  right : ∀ baseAsset, ∀ r ∈ s.stored baseAsset, r.pushes <+: s.pushes baseAsset ∧
    PublishedFrom calculation r.threshold
      (offsetsAfter calculation.calculateSmaIntervalSeconds r.pushes).offsetList
  thresholds : ∀ baseAsset, ∀ r ∈ (s.stored baseAsset).getLast?,
    s.thresholds baseAsset = some r.threshold
  slots : ∀ baseAsset i, (GlobalContext.init config).shmThresholdMapping baseAsset = some i →
    s.slots i = (s.stored baseAsset).foldl
      (fun slot r => earlyRunKind.store r.threshold.shm slot) (slots i)

section Ledger

variable {slots : ℤ → EarlyRunThresholdShm} {events : List EarlyRunEvent} {s : EarlyRunState}
  {e : EarlyRunEvent}

/-- One more step that pushes nothing and stores nothing. -/
theorem Ledgered.mono (h : Ledgered config calculation slots events s) :
    Ledgered config calculation slots (events ++ [e]) s where
  remain := h.remain
  wrapper := h.wrapper
  pushClock baseAsset := by
    rw [List.filterMap_append]
    exact (h.pushClock baseAsset).trans (List.sublist_append_left _ _)
  roundClock baseAsset := by
    rw [List.filterMap_append]
    exact (h.roundClock baseAsset).trans (List.sublist_append_left _ _)
  right := h.right
  thresholds := h.thresholds
  slots := h.slots

/-- A push takes the wrapper of its base asset and its ledger one call further. -/
theorem Ledgered.push (h : Ledgered config calculation slots events s) {push : String × OffsetCall}
    (hreading : pushReading e = some push.2.now) :
    Ledgered config calculation slots (events ++ [e])
      { s with
        offsets := s.offsets.updatePriceOffset push.1 push.2.benchmarkTick push.2.followerTick
          push.2.now
        pushes := addPush s.pushes (some push) } where
  remain := (offsetRemainSeconds_updatePriceOffset _ _ _ _ _).trans h.remain
  wrapper baseAsset := by
    rw [wrapperMap_updatePriceOffset, h.remain]
    by_cases hb : baseAsset = push.1
    · subst hb
      rw [if_pos rfl, h.wrapper]
      simp [addPush, offsetsAfter_snoc]
    · rw [if_neg hb, h.wrapper]
      simp [addPush, hb]
  pushClock baseAsset := by
    rw [List.filterMap_append]
    by_cases hb : baseAsset = push.1
    · subst hb
      simp only [addPush, Function.update_self, List.map_append]
      refine (h.pushClock _).append ?_
      simp [hreading]
    · simp only [addPush, Function.update_of_ne hb]
      exact (h.pushClock baseAsset).trans (List.sublist_append_left _ _)
  roundClock := h.mono.roundClock
  right baseAsset r hr := by
    obtain ⟨hpre, hright⟩ := h.right baseAsset r hr
    refine ⟨hpre.trans ?_, hright⟩
    by_cases hb : baseAsset = push.1
    · subst hb
      simp [addPush]
    · simp [addPush, hb]
  thresholds := h.thresholds
  slots := h.slots

/-- A round stores a threshold that is right for the offsets of its base asset. -/
theorem Ledgered.store (h : Ledgered config calculation slots events s)
    (hn : 1 ≤ calculation.calculateSmaIntervalSeconds) {baseAsset : String} {now : ℕ}
    {threshold : EarlyRunThreshold} (hreading : roundReading e = some now)
    (hthreshold : earlyRunThreshold calculation s.offsets baseAsset now = some threshold) :
    Ledgered config calculation slots (events ++ [e])
      (s.store (threshold.store (.init config) baseAsset)) where
  remain := h.remain
  wrapper := h.wrapper
  pushClock := h.mono.pushClock
  roundClock other := by
    have hsums : (offsetsAfter calculation.calculateSmaIntervalSeconds (s.pushes baseAsset)).SumsOf
        _ := sumsOf_offsetsAfter _
    rw [← h.wrapper baseAsset] at hsums
    have htime := (publishedFrom_earlyRunThreshold hn hsums hthreshold).2
    rw [List.filterMap_append]
    simp only [EarlyRunState.store, EarlyRunThreshold.store]
    by_cases hb : other = baseAsset
    · subst hb
      rw [Function.update_self, List.map_append]
      refine (h.roundClock _).append ?_
      simp [hreading, htime]
    · rw [Function.update_of_ne hb]
      exact (h.roundClock other).trans (List.sublist_append_left _ _)
  right other r hr := by
    simp only [EarlyRunState.store, EarlyRunThreshold.store] at hr ⊢
    by_cases hb : other = baseAsset
    · subst hb
      rw [Function.update_self] at hr
      rcases List.mem_append.mp hr with hr | hr
      · exact h.right other r hr
      · rw [List.mem_singleton.mp hr]
        refine ⟨List.prefix_rfl, ?_⟩
        have hsums : (offsetsAfter calculation.calculateSmaIntervalSeconds (s.pushes other)).SumsOf
            _ := sumsOf_offsetsAfter _
        rw [← h.wrapper other] at hsums ⊢
        exact (publishedFrom_earlyRunThreshold hn hsums hthreshold).1
    · rw [Function.update_of_ne hb] at hr
      exact h.right other r hr
  thresholds other r hr := by
    simp only [EarlyRunState.store, EarlyRunThreshold.store] at hr ⊢
    by_cases hb : other = baseAsset
    · subst hb
      rw [Function.update_self, List.getLast?_concat] at hr
      obtain rfl := Option.some.inj hr
      exact StringMap.set_self _ _ _
    · rw [Function.update_of_ne hb] at hr
      rw [StringMap.set_of_ne _ _ hb]
      exact h.thresholds other r hr
  slots other i hi := by
    simp only [EarlyRunState.store, EarlyRunThreshold.store]
    by_cases hb : other = baseAsset
    · subst hb
      rw [hi, Function.update_self, List.foldl_append]
      simp only [Option.map_some, Function.update_self, List.foldl_cons, List.foldl_nil]
      rw [h.slots other i hi]
    · rw [Function.update_of_ne hb, ← h.slots other i hi]
      cases hj : (GlobalContext.init config).shmThresholdMapping baseAsset with
      | none => rfl
      | some j =>
        have hij : i ≠ j := fun hij => hb (slotMapping_distinct _ hi (hij ▸ hj))
        simp [Function.update_of_ne hij]

/-- **Every step keeps what the ledger says.** -/
theorem Ledgered.step (h : Ledgered config calculation slots events s)
    (hn : 1 ≤ calculation.calculateSmaIntervalSeconds) :
    Ledgered config calculation slots (events ++ [e]) (earlyRunStep config calculation s e) := by
  have hmono := h.mono (e := e)
  cases e with
  | updateTicker role ticker now =>
    exact ⟨hmono.remain, hmono.wrapper, hmono.pushClock, hmono.roundClock, hmono.right,
      hmono.thresholds, hmono.slots⟩
  | enqueueTickerInfo place queued =>
    simp only [earlyRunStep, EarlyRunState.enqueueTickerInfo]
    split
    · exact ⟨hmono.remain, hmono.wrapper, hmono.pushClock, hmono.roundClock, hmono.right,
        hmono.thresholds, hmono.slots⟩
    · exact hmono
  | dequeueTickerInfo place =>
    simp only [earlyRunStep, EarlyRunState.dequeueTickerInfo]
    split
    · exact ⟨hmono.remain, hmono.wrapper, hmono.pushClock, hmono.roundClock, hmono.right,
        hmono.thresholds, hmono.slots⟩
    · exact hmono
  | processTickerInfo now queued =>
    simp only [earlyRunStep, EarlyRunState.processTickerInfo, processTickerInfoPriceOffset_eq]
    split
    · next tickerInfo composite hhand =>
      cases hpush : pushOf config composite tickerInfo now with
      | none =>
        exact ⟨hmono.remain, hmono.wrapper, hmono.pushClock, hmono.roundClock, hmono.right,
          hmono.thresholds, hmono.slots⟩
      | some push =>
        have hreading : pushReading (.processTickerInfo now queued) = some push.2.now := by
          obtain ⟨pair, -, rfl⟩ := Option.map_eq_some_iff.mp hpush
          rfl
        have hpushed := h.push hreading
        exact ⟨hpushed.remain, hpushed.wrapper, hpushed.pushClock, hpushed.roundClock,
          hpushed.right, hpushed.thresholds, hpushed.slots⟩
    · exact hmono
  | calculateThreshold place now =>
    simp only [earlyRunStep, EarlyRunState.calculateThreshold]
    split
    · next instId hplace =>
      split
      · next stored hstored =>
        obtain ⟨threshold, hthreshold, rfl⟩ := Option.map_eq_some_iff.mp hstored
        have h' : Ledgered config calculation slots events
            { s with
              earlyRunCalculationChannel := s.earlyRunCalculationChannel.eraseIdx place } :=
          ⟨h.remain, h.wrapper, h.pushClock, h.roundClock, h.right, h.thresholds, h.slots⟩
        exact h'.store hn rfl hthreshold
      · exact ⟨hmono.remain, hmono.wrapper, hmono.pushClock, hmono.roundClock, hmono.right,
          hmono.thresholds, hmono.slots⟩
    · exact hmono

end Ledger

/-! ## Published thresholds -/

section Start

variable {slots : ℤ → EarlyRunThresholdShm}

theorem sourced_start : Sourced config [] (.start config calculation slots) where
  filed role instId wrapper hwrapper ticker hmem := by
    have hempty : wrapper = {} := by
      cases role <;> exact StringMap.eq_of_foldl_insert hwrapper
    rw [hempty] at hmem
    simp at hmem
  received _ hmem := by simp [EarlyRunState.start] at hmem
  queued _ hmem := by simp [EarlyRunState.start] at hmem
  inHand _ _ hhand := by cases hhand
  paired _ _ hmem := by simp [EarlyRunState.start] at hmem

theorem ledgered_start :
    Ledgered config calculation slots [] (.start config calculation slots) where
  remain := rfl
  wrapper baseAsset := by
    show ((config.nodeBaseAssets.foldl (fun m base => StringMap.insert m base {}) .empty
      baseAsset).getD {} : PriceOffsetWrapper) = {}
    cases h : config.nodeBaseAssets.foldl
      (fun m base => StringMap.insert m base ({} : PriceOffsetWrapper)) .empty baseAsset with
    | none => rfl
    | some wrapper => exact StringMap.eq_of_foldl_insert (f := id) h
  pushClock _ := List.Sublist.refl _
  roundClock _ := List.Sublist.refl _
  right _ _ hr := by simp [EarlyRunState.start] at hr
  thresholds _ _ hr := by simp [EarlyRunState.start] at hr
  slots _ _ _ := rfl

end Start

/-- A round was right: the offsets pushed for the base asset paired its two instruments, and the
threshold is right for those within the window of the last push. A median lies in every interval
that holds more than half of these. -/
structure RightRound (config : ReceiverConfig) (calculation : CalculationConfig)
    (events : List EarlyRunEvent) (baseAsset : String) (r : StoredRound) : Prop where
  paired : ∀ call ∈ r.pushes, Paired config events baseAsset call
  window : ∃ calls call, r.pushes = calls ++ [call] ∧
    let offsets := (r.pushes.map (·.offset)).filter
      (PriceOffset.inWindow call.now calculation.calculateSmaIntervalSeconds)
    PublishedFrom calculation r.threshold offsets ∧
      (calculation.earlyRunMedian = true → ∀ k lo hi,
        offsets.length < 2 * offsets.countP (fun o => decide (lo ≤ o.diff k ∧ o.diff k ≤ hi)) →
          lo ≤ r.threshold.diff k ∧ r.threshold.diff k ≤ hi)

/-- What is published of a base asset: composite and slot have the threshold of the last round that
stored one, and each of them was right. -/
structure EarlyRunPublished (config : ReceiverConfig) (calculation : CalculationConfig)
    (events : List EarlyRunEvent) (baseAsset : String) (slot : ℤ) (s : EarlyRunState) : Prop where
  composite : ∀ r ∈ (s.stored baseAsset).getLast?, s.thresholds baseAsset = some r.threshold
  slot_eq : s.slots slot = slotOf baseAsset (s.stored baseAsset)
  right : ∀ r ∈ s.stored baseAsset, RightRound config calculation events baseAsset r

section Published

variable {slots : ℤ → EarlyRunThresholdShm} {events : List EarlyRunEvent} {baseAsset : String}
  {i : ℤ}

theorem sourced_after :
    Sourced config events (earlyRunAfter config calculation slots events) := by
  induction events using List.reverseRecOn with
  | nil => exact sourced_start
  | append_singleton events e ih =>
    unfold earlyRunAfter
    rw [Run.after_snoc]
    exact Sourced.step ih

theorem ledgered_after (hn : 1 ≤ calculation.calculateSmaIntervalSeconds) :
    Ledgered config calculation slots events (earlyRunAfter config calculation slots events) := by
  induction events using List.reverseRecOn with
  | nil => exact ledgered_start
  | append_singleton events e ih =>
    unfold earlyRunAfter
    rw [Run.after_snoc]
    exact Ledgered.step ih hn

/-- **Composite and slot hold the right threshold.** In every run of the threads in which the
readings of the pushes do not go back, nor those of the rounds: both hold the threshold of the last
round of the base asset that stored one, whose offsets pair tickers of its two instruments, and
which is the median or the mean of those within the window of the last push. -/
theorem early_run_published (hn : 1 ≤ calculation.calculateSmaIntervalSeconds)
    (hslot : (GlobalContext.init config).shmThresholdMapping baseAsset = some i)
    (hinit : slots i = earlyRunShmWriterInit baseAsset)
    (hpush : (events.filterMap pushReading).Pairwise (· ≤ ·))
    (hround : (events.filterMap roundReading).Pairwise (· ≤ ·)) :
    EarlyRunPublished config calculation events baseAsset i
      (earlyRunAfter config calculation slots events) := by
  have hsourced : Sourced config events (earlyRunAfter config calculation slots events) :=
    sourced_after
  have hledger : Ledgered config calculation slots events
      (earlyRunAfter config calculation slots events) := ledgered_after hn
  refine ⟨hledger.thresholds baseAsset, ?_, fun r hr => ?_⟩
  · rw [hledger.slots baseAsset i hslot, hinit]
    exact foldl_store_eq_slotOf baseAsset (hround.sublist (hledger.roundClock baseAsset))
  obtain ⟨hpre, hright⟩ := hledger.right baseAsset r hr
  refine ⟨fun call hcall => hsourced.paired baseAsset call (hpre.subset hcall), ?_⟩
  -- a threshold takes at least one offset, so something was pushed
  have hne : r.pushes ≠ [] := by
    intro hnil
    have henough := hright.enough
    rw [hnil] at henough
    exact absurd (hn.trans henough) (by simp [offsetsAfter])
  obtain ⟨calls, call, hcalls⟩ := (List.eq_nil_or_concat r.pushes).resolve_left hne
  rw [List.concat_eq_append] at hcalls
  have hclock : (calls ++ [call]).Pairwise (·.now ≤ ·.now) := by
    rw [← hcalls, ← List.pairwise_map]
    exact (hpush.sublist (hledger.pushClock baseAsset)).sublist (hpre.sublist.map _)
  rw [hcalls, offsetList_offsetsAfter hclock, ← hcalls] at hright
  exact ⟨calls, call, hcalls, hright, fun hmedian k _ _ => hright.mem_of_majority hmedian k⟩

/-- One ticker of each side is enough for a threshold. -/
theorem early_run_published_one :
    let events : List EarlyRunEvent :=
      [.updateTicker .benchmark { instId := "BTCUSDT", avgPrice := 5 } 0,
        .updateTicker .follower { instId := "BTCUSDC", avgPrice := 3 } 0,
        .enqueueTickerInfo 1 true, .dequeueTickerInfo 0, .processTickerInfo 1000 true,
        .calculateThreshold 0 1001]
    let s := earlyRunAfter sampleReceiverConfig ⟨false, 1⟩ (fun _ => earlyRunShmWriterInit "BTC")
      events
    (s.stored "BTC").map (·.threshold.avgPriceDiffMedian) = [1] ∧
      EarlyRunPublished sampleReceiverConfig ⟨false, 1⟩ events "BTC" 0 s :=
  ⟨by decide +kernel, early_run_published (by decide) (by decide +kernel) rfl (by decide)
    (by decide)⟩

end Published

end UmTaker.Receiver
