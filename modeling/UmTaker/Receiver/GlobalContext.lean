import UmTaker.Shm.Mapping

/-!
# The receiver's context

The receiver's main node creates the ticker and threshold segments; every node numbers their
slots.

## Main definitions

* `ReceiverConfig`: the settings the context is built from
* `GlobalContext`, `GlobalContext.init`: the instruments of the node and the slot mappings
* `initShmForMain`: the segments the main node creates
-/

namespace UmTaker.Receiver

open Shm

/-- The settings of the receiver process. -/
structure ReceiverConfig where
  benchmarkQuoteAsset : String
  followerQuoteAsset : String
  nodeBaseAssets : List String
  allBaseAssets : List String
  shareMemoryProjectId : ℤ
  shareMemoryPathBenchmarkTicker : String
  shareMemoryPathFollowerTicker : String
  shareMemoryPathEarlyRun : String
  shareMemoryPathBenchmarkBeta : String
  shareMemoryPathFollowerBeta : String

/-- The settings of a node that handles the first of two assets. -/
def sampleReceiverConfig : ReceiverConfig where
  benchmarkQuoteAsset := "USDT"
  followerQuoteAsset := "USDC"
  nodeBaseAssets := ["BTC"]
  allBaseAssets := ["BTC", "CRV"]
  shareMemoryProjectId := 65
  shareMemoryPathBenchmarkTicker := "shm_umtaker_bechmark_ticker"
  shareMemoryPathFollowerTicker := "shm_umtaker_follower_ticker"
  shareMemoryPathEarlyRun := "shm_umtaker_early_run"
  shareMemoryPathBenchmarkBeta := "shm_umtaker_benchmark_beta"
  shareMemoryPathFollowerBeta := "shm_umtaker_follower_beta"

/-- The instruments of this node and of all nodes, and the slot of each of the latter. -/
structure GlobalContext where
  benchmarkInstIds : List String
  followerInstIds : List String
  shmThresholdMapping : StringMap ℤ
  shmBenchmarkTickerMapping : StringMap ℤ
  shmFollowerTickerMapping : StringMap ℤ

/-- `init` and `init_shm_mapping`. -/
def GlobalContext.init (config : ReceiverConfig) : GlobalContext where
  benchmarkInstIds := config.nodeBaseAssets.map (· ++ config.benchmarkQuoteAsset)
  followerInstIds := config.nodeBaseAssets.map (· ++ config.followerQuoteAsset)
  shmThresholdMapping := slotMapping config.allBaseAssets
  shmBenchmarkTickerMapping :=
    slotMapping (config.allBaseAssets.map (· ++ config.benchmarkQuoteAsset))
  shmFollowerTickerMapping :=
    slotMapping (config.allBaseAssets.map (· ++ config.followerQuoteAsset))

/-- The segments of tickers and thresholds. -/
structure ShmStoreInfo where
  earlyRun : Segment EarlyRunThresholdShm
  benchmarkBeta : Segment BetaThresholdShm
  followerBeta : Segment BetaThresholdShm
  benchmark : Segment TickerInfoShm
  follower : Segment TickerInfoShm

/-- `init_shm_for_main`: a slot for each asset of all nodes in the threshold segments, a slot for
each instrument of this node in the ticker segments. -/
def initShmForMain (config : ReceiverConfig) : ShmStoreInfo where
  earlyRun := writerCommonCreateShm _ config.shareMemoryPathEarlyRun
    config.shareMemoryProjectId config.allBaseAssets.length
  benchmarkBeta := writerCommonCreateShm _ config.shareMemoryPathBenchmarkBeta
    config.shareMemoryProjectId config.allBaseAssets.length
  followerBeta := writerCommonCreateShm _ config.shareMemoryPathFollowerBeta
    config.shareMemoryProjectId config.allBaseAssets.length
  benchmark := writerCommonCreateShm _ config.shareMemoryPathBenchmarkTicker
    config.shareMemoryProjectId (GlobalContext.init config).benchmarkInstIds.length
  follower := writerCommonCreateShm _ config.shareMemoryPathFollowerTicker
    config.shareMemoryProjectId (GlobalContext.init config).followerInstIds.length

end UmTaker.Receiver
