import UmTaker.Shm.Layout
import UmTaker.Shm.TickerSlot
import UmTaker.Trader.GlobalContext

/-!
# Agreement on the slots

Receiver, actuary and trader number the slots of the segments they share each on its own. The one
that creates a segment initialises the slot of every name of its mapping, in the order the map is
walked; a writer updates, and a reader reads, the slot its own mapping gives to a name.

## Main definitions

* `earlyRunShmWriterInit`, `betaShmWriterInit`: the initialisation of the threshold slots
* `MappingsAgree`: the three processes have the same mappings
* `ReadsWritten`: a reader of a name finds the slot that was initialised and written for it

## Main results

* `slots_agree`: with the same quote assets, and lists of all assets that are permutations of one
  another, the mappings agree and every reader reads what was written for its name
-/

namespace UmTaker.Shm

open Receiver Actuary Trader

/-! ## Initialisation -/

/-- `early_run_shm_writer_init`. -/
def earlyRunShmWriterInit (asset : String) : EarlyRunThresholdShm where
  asset := asset
  avgMedian := 0
  bidAskMedian := 0
  askBidMedian := 0
  versionNumber := 0
  timeMills := 0

/-- `beta_shm_writer_init`. -/
def betaShmWriterInit (asset : String) : BetaThresholdShm where
  asset := asset
  sma := 0
  volatility := 0
  volatilityMultiplier := 0
  betaThreshold := 0
  bidSma := 0
  bidVolatility := 0
  bidVolatilityMultiplier := 0
  bidBetaThreshold := 0
  askSma := 0
  askVolatility := 0
  askVolatilityMultiplier := 0
  askBetaThreshold := 0
  versionNumber := 0
  timeMills := 0

/-! ## Agreement -/

/-- The mappings that two processes use with one segment are the same. -/
structure MappingsAgree (receiver : Receiver.GlobalContext) (actuary : Actuary.GlobalContext)
    (trader : Trader.GlobalContext) : Prop where
  threshold : actuary.shmThresholdMapping = receiver.shmThresholdMapping
  benchmark : actuary.shmBenchmarkTickerMapping = receiver.shmBenchmarkTickerMapping
  follower : actuary.shmFollowerTickerMapping = receiver.shmFollowerTickerMapping
  order : trader.shmOrderMapping = actuary.shmOrderMapping

/-- Whatever the memory held, in whatever order the creator walks its mapping, and whatever the
writers do to the slots they address: the slot a reader addresses by a name was initialised for this
name, and has gone through exactly the writes made for it. -/
def ReadsWritten {α : Type} (init : α → String → α) (creator writer reader : StringMap ℤ) : Prop :=
  ∀ (memory : ℤ → α) (entries : List (String × ℤ)), Cells.Enumerates entries creator →
    ∀ {υ : Type} (write : α → υ → α) (writes : List (String × υ)) (name : String) (i : ℤ),
      reader name = some i →
        writes.foldl (Cells.change write writer) (Cells.fill init entries memory) i =
          ((writes.filter (·.1 = name)).map (·.2)).foldl write (init (memory i) name)

/-- The slots of all segments, each with the process that creates and writes it and the one that
reads it. -/
structure SlotsRead (receiver : Receiver.GlobalContext) (actuary : Actuary.GlobalContext)
    (trader : Trader.GlobalContext) : Prop where
  earlyRun : ReadsWritten (fun _ => earlyRunShmWriterInit) receiver.shmThresholdMapping
    receiver.shmThresholdMapping actuary.shmThresholdMapping
  beta : ReadsWritten (fun _ => betaShmWriterInit) receiver.shmThresholdMapping
    receiver.shmThresholdMapping actuary.shmThresholdMapping
  benchmark : ReadsWritten (fun _ => tickerShmWriterInit) receiver.shmBenchmarkTickerMapping
    receiver.shmBenchmarkTickerMapping actuary.shmBenchmarkTickerMapping
  follower : ReadsWritten (fun _ => tickerShmWriterInit) receiver.shmFollowerTickerMapping
    receiver.shmFollowerTickerMapping actuary.shmFollowerTickerMapping
  order : ReadsWritten (fun memory instId => (orderShmWriterInit memory instId).record)
    actuary.shmOrderMapping actuary.shmOrderMapping trader.shmOrderMapping

/-- Every mapping of the three processes has this property. -/
structure EveryMapping (P : StringMap ℤ → Prop) (receiver : Receiver.GlobalContext)
    (actuary : Actuary.GlobalContext) (trader : Trader.GlobalContext) : Prop where
  receiverThreshold : P receiver.shmThresholdMapping
  receiverBenchmark : P receiver.shmBenchmarkTickerMapping
  receiverFollower : P receiver.shmFollowerTickerMapping
  actuaryThreshold : P actuary.shmThresholdMapping
  actuaryBenchmark : P actuary.shmBenchmarkTickerMapping
  actuaryFollower : P actuary.shmFollowerTickerMapping
  actuaryOrder : P actuary.shmOrderMapping
  traderOrder : P trader.shmOrderMapping

/-- A mapping under which different names have different slots lets readers find what was
written. -/
theorem readsWritten_of_distinct {α : Type} (init : α → String → α) {m : StringMap ℤ}
    (hm : Cells.Distinct m) : ReadsWritten init m m m := by
  intro memory entries hentries υ write writes name i hi
  rw [Cells.foldl_change_apply hm hi, Cells.fill_apply hm hi init hentries]

/-- The mappings of instruments do not depend on the order of the assets. -/
theorem slotMapping_instruments {assets assets' : List String} (h : assets.Perm assets')
    (quote : String) :
    slotMapping (assets.map (· ++ quote)) = slotMapping (assets'.map (· ++ quote)) :=
  slotMapping_perm (h.map _)

/-- Instruments of different assets are different. -/
theorem nodup_instruments {assets : List String} (h : assets.Nodup) (quote : String) :
    (assets.map (· ++ quote)).Nodup :=
  h.map fun _ _ he => (String.append_left_inj quote).mp he

/-- What holds of the mappings of receiver and actuary holds of the others that agree with them. -/
theorem EveryMapping.of_agree {P : StringMap ℤ → Prop} {receiver : Receiver.GlobalContext}
    {actuary : Actuary.GlobalContext} {trader : Trader.GlobalContext}
    (h : MappingsAgree receiver actuary trader) (hthreshold : P receiver.shmThresholdMapping)
    (hbenchmark : P receiver.shmBenchmarkTickerMapping)
    (hfollower : P receiver.shmFollowerTickerMapping) (horder : P actuary.shmOrderMapping) :
    EveryMapping P receiver actuary trader where
  receiverThreshold := hthreshold
  receiverBenchmark := hbenchmark
  receiverFollower := hfollower
  actuaryThreshold := by rwa [h.threshold]
  actuaryBenchmark := by rwa [h.benchmark]
  actuaryFollower := by rwa [h.follower]
  actuaryOrder := horder
  traderOrder := by rwa [h.order]

/-- Readers whose mappings agree with those of the writers find what was written. -/
theorem SlotsRead.of_agree {receiver : Receiver.GlobalContext} {actuary : Actuary.GlobalContext}
    {trader : Trader.GlobalContext} (h : MappingsAgree receiver actuary trader)
    (hd : EveryMapping Cells.Distinct receiver actuary trader) :
    SlotsRead receiver actuary trader where
  earlyRun := by
    rw [h.threshold]
    exact readsWritten_of_distinct _ hd.receiverThreshold
  beta := by
    rw [h.threshold]
    exact readsWritten_of_distinct _ hd.receiverThreshold
  benchmark := by
    rw [h.benchmark]
    exact readsWritten_of_distinct _ hd.receiverBenchmark
  follower := by
    rw [h.follower]
    exact readsWritten_of_distinct _ hd.receiverFollower
  order := by
    rw [h.order]
    exact readsWritten_of_distinct _ hd.actuaryOrder

/-- **The slots agree**: for configurations with the same quote assets whose lists of all assets are
permutations of one another, every name has the same index in each mapping that two processes share,
different names have different indexes, which are exactly those below the number of assets if none
occurs twice, and a reader of a name reads the slot initialised and written for it. -/
theorem slots_agree (receiver : ReceiverConfig) (actuary : ActuaryConfig)
    (trader : TraderContextConfig) (infoList : List InstConfigItem) (lites : List ExchangeInfoLite)
    (hbenchmark : actuary.benchmarkQuoteAsset = receiver.benchmarkQuoteAsset)
    (hfollower : actuary.followerQuoteAsset = receiver.followerQuoteAsset)
    (hfollower' : trader.followerQuoteAsset = receiver.followerQuoteAsset)
    (hactuary : actuary.allBaseAssets.Perm receiver.allBaseAssets)
    (htrader : trader.allBaseAssets.Perm receiver.allBaseAssets) :
    let r := Receiver.GlobalContext.init receiver
    let a := Actuary.GlobalContext.init actuary infoList lites
    let t := Trader.GlobalContext.init trader
    MappingsAgree r a t ∧
      EveryMapping Cells.Distinct r a t ∧
      (receiver.allBaseAssets.Nodup →
        EveryMapping (fun m => ∀ i, (∃ name, m name = some i) ↔
          0 ≤ i ∧ i < receiver.allBaseAssets.length) r a t) ∧
      SlotsRead r a t := by
  intro r a t
  -- the order slots are numbered by the instruments of the follower
  have horder : a.shmOrderMapping = r.shmFollowerTickerMapping := by
    show slotMapping _ = slotMapping _
    rw [hfollower]
    exact slotMapping_instruments hactuary _
  have hagree : MappingsAgree r a t := by
    refine ⟨slotMapping_perm hactuary, ?_, horder, ?_⟩
    · show slotMapping _ = slotMapping _
      rw [hbenchmark]
      exact slotMapping_instruments hactuary _
    · rw [horder]
      show slotMapping _ = slotMapping _
      rw [hfollower']
      exact slotMapping_instruments htrader _
  have hdistinct : EveryMapping Cells.Distinct r a t :=
    .of_agree hagree (slotMapping_distinct _) (slotMapping_distinct _) (slotMapping_distinct _)
      (slotMapping_distinct _)
  refine ⟨hagree, hdistinct, fun hnodup => ?_, .of_agree hagree hdistinct⟩
  have hinstruments (quote : String) (i : ℤ) :
      (∃ name, slotMapping (receiver.allBaseAssets.map (· ++ quote)) name = some i) ↔
        0 ≤ i ∧ i < receiver.allBaseAssets.length := by
    rw [slotMapping_range (nodup_instruments hnodup quote), List.length_map]
  refine .of_agree hagree (slotMapping_range hnodup) (hinstruments _) (hinstruments _) ?_
  rw [horder]
  exact hinstruments _

/-- The trader's settings for the two assets of the receiver, in the other order. -/
def sampleTraderConfig : TraderContextConfig where
  orderValidityMicros := 10
  benchmarkQuoteAsset := "USDT"
  followerQuoteAsset := "USDC"
  nodeBaseAssets := ["CRV"]
  allBaseAssets := ["CRV", "BTC"]

/-- A trader that lists the two assets in the other order has the two indexes of the actuary, and
reads the orders of both. -/
theorem slots_agree_two_assets :
    SlotsRead (.init sampleReceiverConfig) (.init sampleConfig [] []) (.init sampleTraderConfig) ∧
      (Trader.GlobalContext.init sampleTraderConfig).shmOrderMapping =
        (Actuary.GlobalContext.init sampleConfig [] []).shmOrderMapping ∧
      ∀ i, (∃ name, (Trader.GlobalContext.init sampleTraderConfig).shmOrderMapping name = some i) ↔
        0 ≤ i ∧ i < 2 := by
  obtain ⟨hagree, -, hrange, hread⟩ := slots_agree sampleReceiverConfig sampleConfig
    sampleTraderConfig [] [] rfl rfl rfl (.refl _) (.swap "BTC" "CRV" [])
  exact ⟨hread, hagree.order, (hrange (by decide)).traderOrder⟩

end UmTaker.Shm
