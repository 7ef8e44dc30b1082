import UmTaker.Actuary.GlobalContext
import UmTaker.Receiver.GlobalContext

/-!
# The layout of the shared memory

The receiver and the actuary index the same segments through mappings of their own. A segment is
sized by the process that creates it.

## Main definitions

* `IndexesInRange`: every index either process uses is a slot of its segment

## Main results

* `indexesInRange_iff`: exactly when the receiver's node handles every asset, as the ticker
  segments have a slot only for each asset of the node
-/

namespace UmTaker.Shm

open Receiver Actuary

/-- Every index stored in a mapping is a slot of the segment the mapping is used with. -/
structure IndexesInRange (receiver : ReceiverConfig) (actuary : ActuaryConfig)
    (receiverContext : Receiver.GlobalContext) (actuaryContext : Actuary.GlobalContext) :
    Prop where
  receiverEarlyRun :
    SlotsInRange receiverContext.shmThresholdMapping (initShmForMain receiver).earlyRun
  receiverBenchmarkBeta :
    SlotsInRange receiverContext.shmThresholdMapping (initShmForMain receiver).benchmarkBeta
  receiverFollowerBeta :
    SlotsInRange receiverContext.shmThresholdMapping (initShmForMain receiver).followerBeta
  receiverBenchmark :
    SlotsInRange receiverContext.shmBenchmarkTickerMapping (initShmForMain receiver).benchmark
  receiverFollower :
    SlotsInRange receiverContext.shmFollowerTickerMapping (initShmForMain receiver).follower
  actuaryEarlyRun :
    SlotsInRange actuaryContext.shmThresholdMapping (initShmForMain receiver).earlyRun
  actuaryBenchmarkBeta :
    SlotsInRange actuaryContext.shmThresholdMapping (initShmForMain receiver).benchmarkBeta
  actuaryFollowerBeta :
    SlotsInRange actuaryContext.shmThresholdMapping (initShmForMain receiver).followerBeta
  actuaryBenchmark :
    SlotsInRange actuaryContext.shmBenchmarkTickerMapping (initShmForMain receiver).benchmark
  actuaryFollower :
    SlotsInRange actuaryContext.shmFollowerTickerMapping (initShmForMain receiver).follower
  actuaryOrder : SlotsInRange actuaryContext.shmOrderMapping (initShmOrder actuary)

variable (receiver : ReceiverConfig) (actuary : ActuaryConfig)
  (infoList : List InstConfigItem) (lites : List ExchangeInfoLite)

theorem benchmark_slots :
    (initShmForMain receiver).benchmark.slots = receiver.nodeBaseAssets.length :=
  List.length_map _

theorem follower_slots :
    (initShmForMain receiver).follower.slots = receiver.nodeBaseAssets.length :=
  List.length_map _

/-- Instruments are in range exactly when there is a slot for every asset. -/
theorem slotsInRange_instruments {α : Type} {assets : List String} {quote : String}
    {s : Segment α} :
    SlotsInRange (slotMapping (assets.map (· ++ quote))) s ↔ assets.length ≤ s.slots := by
  rw [slotsInRange_slotMapping, List.length_map]

/-- **The indexes are in range** exactly when the actuary has no more assets than the receiver, and
the receiver's main node handles as many assets as there are. -/
theorem indexesInRange_iff :
    IndexesInRange receiver actuary (.init receiver) (.init actuary infoList lites) ↔
      actuary.allBaseAssets.length ≤ receiver.allBaseAssets.length ∧
      receiver.allBaseAssets.length ≤ receiver.nodeBaseAssets.length := by
  constructor
  · intro h
    constructor
    · exact (slotsInRange_slotMapping _ _).mp h.actuaryEarlyRun
    · rw [← benchmark_slots]
      exact slotsInRange_instruments.mp h.receiverBenchmark
  · rintro ⟨hactuary, hnode⟩
    have hthreshold {α : Type} {s : Segment α} (hs : s.slots = receiver.allBaseAssets.length) :
        SlotsInRange (slotMapping receiver.allBaseAssets) s ∧
          SlotsInRange (slotMapping actuary.allBaseAssets) s := by
      rw [slotsInRange_slotMapping, slotsInRange_slotMapping, hs]
      exact ⟨le_rfl, hactuary⟩
    have hticker {s : Segment TickerInfoShm} (hs : s.slots = receiver.nodeBaseAssets.length)
        (q q' : String) :
        SlotsInRange (slotMapping (receiver.allBaseAssets.map (· ++ q))) s ∧
          SlotsInRange (slotMapping (actuary.allBaseAssets.map (· ++ q'))) s := by
      rw [slotsInRange_instruments, slotsInRange_instruments, hs]
      exact ⟨hnode, hactuary.trans hnode⟩
    -- the order segment needs no condition: its creator sizes it by the list it numbers
    have hbenchmark := hticker (benchmark_slots receiver)
    have hfollower := hticker (follower_slots receiver)
    exact {
      receiverEarlyRun := (hthreshold rfl).1
      receiverBenchmarkBeta := (hthreshold rfl).1
      receiverFollowerBeta := (hthreshold rfl).1
      receiverBenchmark := (hbenchmark _ "").1
      receiverFollower := (hfollower _ "").1
      actuaryEarlyRun := (hthreshold rfl).2
      actuaryBenchmarkBeta := (hthreshold rfl).2
      actuaryFollowerBeta := (hthreshold rfl).2
      actuaryBenchmark := (hbenchmark "" _).2
      actuaryFollower := (hfollower "" _).2
      actuaryOrder := slotsInRange_instruments.mpr le_rfl }

/-- A receiver node that handles one of the two assets the actuary knows as well: the ticker
segments have one slot, and the second instrument is indexed past their end. -/
theorem indexesInRange_two_nodes :
    sampleReceiverConfig.nodeBaseAssets ⊆ sampleReceiverConfig.allBaseAssets ∧
      sampleReceiverConfig.allBaseAssets = sampleConfig.allBaseAssets ∧
      ¬ IndexesInRange sampleReceiverConfig sampleConfig (.init sampleReceiverConfig)
        (.init sampleConfig [] []) := by
  refine ⟨by decide, rfl, fun h => ?_⟩
  have hle := slotsInRange_instruments.mp h.receiverBenchmark
  exact absurd hle (by decide)

end UmTaker.Shm
