import UmTaker.Shm.Mapping
import UmTaker.Trader.TradeProcessor

/-!
# The trader's context

The trader attaches to the order segment of the actuary, and numbers its slots on its own.

## Main definitions

* `TraderContextConfig`: the settings the context is built from
* `GlobalContext`, `GlobalContext.init`: the instruments of the node and the slot mapping
-/

namespace UmTaker.Trader

open Shm

/-- The settings of the trader process, with those its context is built from. -/
structure TraderContextConfig extends TraderConfig where
  benchmarkQuoteAsset : String
  followerQuoteAsset : String
  nodeBaseAssets : List String
  allBaseAssets : List String

/-- The instruments of this node, and the order slot of each instrument of all nodes. -/
structure GlobalContext where
  benchmarkInstIds : List String
  followerInstIds : List String
  shmOrderMapping : StringMap ℤ

/-- `init` and `init_shm_mapping`. -/
def GlobalContext.init (config : TraderContextConfig) : GlobalContext where
  benchmarkInstIds := config.nodeBaseAssets.map (· ++ config.benchmarkQuoteAsset)
  followerInstIds := config.nodeBaseAssets.map (· ++ config.followerQuoteAsset)
  shmOrderMapping :=
    slotMapping (config.allBaseAssets.map (· ++ config.followerQuoteAsset))

end UmTaker.Trader
