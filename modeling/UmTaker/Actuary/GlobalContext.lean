import UmTaker.Actuary.Config
import UmTaker.Shm.Mapping

/-!
# The actuary's context

What the actuary builds from its configuration before its threads start: the settings of the
follower's instruments, their exchange information, the slot mappings, and the order segment.

## Main definitions

* `loadInstConfig`: the settings of the instruments
* `followerExchangeInfoMap`: the exchange information of the node's instruments
* `GlobalContext`, `GlobalContext.init`: the context
* `initShmOrder`: the order segment the main node creates

## Main results

* `positionCloseOnly_of_close`: the instruments the node only closes are marked
-/

namespace UmTaker.Actuary

open Shm

/-- `loadInstConfig`: a later item for an asset replaces an earlier one. When positions are only
closed the beta makes them close quickly. -/
def loadInstConfig (infoList : List InstConfigItem) (positionCloseOnly : Bool) :
    StringMap InstConfigItem :=
  infoList.foldl
    (fun m item =>
      m.set item.asset (if positionCloseOnly then { item with beta := -1 / 10000 } else item))
    .empty

/-- The benchmark and follower instruments of the node. -/
def allInstIdsSet (config : ActuaryConfig) : List String :=
  config.nodeBaseAssets.map (· ++ config.benchmarkQuoteAsset) ++
    config.nodeBaseAssets.map (· ++ config.followerQuoteAsset)

/-- The follower instruments the node only closes. -/
def followerCloseInstIdsSet (config : ActuaryConfig) : List String :=
  config.nodeCloseBaseAssets.map (· ++ config.followerQuoteAsset)

/-- One step of the loop over the exchange's instruments: those of the node are kept, the first
of a symbol wins, and those only closed are marked. -/
def putExchangeInfo (config : ActuaryConfig) (m : StringMap ExchangeInfoLite)
    (lite : ExchangeInfoLite) : StringMap ExchangeInfoLite :=
  if lite.symbol ∈ allInstIdsSet config then
    m.insert lite.symbol
      (if lite.symbol ∈ followerCloseInstIdsSet config then
        { lite with positionCloseOnly := true }
      else lite)
  else m

/-- The exchange information of the node's follower instruments. -/
def followerExchangeInfoMap (config : ActuaryConfig) (lites : List ExchangeInfoLite) :
    StringMap ExchangeInfoLite :=
  lites.foldl (putExchangeInfo config) .empty

/-- The settings, exchange information and slots of the instruments. -/
structure GlobalContext where
  followerInstConfig : StringMap InstConfigItem
  followerExchangeInfo : StringMap ExchangeInfoLite
  shmThresholdMapping : StringMap ℤ
  shmBenchmarkTickerMapping : StringMap ℤ
  shmFollowerTickerMapping : StringMap ℤ
  shmOrderMapping : StringMap ℤ

/-- `init` and `init_shm_mapping`, from the configuration, the instrument file and the exchange's
answer. -/
def GlobalContext.init (config : ActuaryConfig) (infoList : List InstConfigItem)
    (lites : List ExchangeInfoLite) : GlobalContext where
  followerInstConfig := loadInstConfig infoList config.makePositionCloseOnly
  followerExchangeInfo := followerExchangeInfoMap config lites
  shmThresholdMapping := slotMapping config.allBaseAssets
  shmBenchmarkTickerMapping :=
    slotMapping (config.allBaseAssets.map (· ++ config.benchmarkQuoteAsset))
  shmFollowerTickerMapping :=
    slotMapping (config.allBaseAssets.map (· ++ config.followerQuoteAsset))
  shmOrderMapping :=
    slotMapping (config.allBaseAssets.map (· ++ config.followerQuoteAsset))

/-- `init_shm`, the part of the main node: a slot for each asset of all nodes. -/
def initShmOrder (config : ActuaryConfig) : Segment OrderShm :=
  writerCommonCreateShm _ config.shareMemoryPathOrder config.shareMemoryProjectId
    config.allBaseAssets.length

/-- **The instruments only closed are marked** in the exchange information. -/
theorem positionCloseOnly_of_close {config : ActuaryConfig} {lites : List ExchangeInfoLite}
    {instId : String} {info : ExchangeInfoLite} (hclose : instId ∈ followerCloseInstIdsSet config)
    (h : followerExchangeInfoMap config lites instId = some info) :
    info.positionCloseOnly = true := by
  induction lites using List.reverseRecOn generalizing info with
  | nil => cases h
  | append_singleton lites lite ih =>
    rw [followerExchangeInfoMap, List.foldl_append] at h
    change putExchangeInfo config (followerExchangeInfoMap config lites) lite instId = _ at h
    unfold putExchangeInfo at h
    split_ifs at h with hnode hmark
    · rw [StringMap.insert_apply] at h
      split_ifs at h with hi
      · cases hm : followerExchangeInfoMap config lites lite.symbol with
        | none =>
          obtain rfl : _ = info := by simpa [hm] using h
          rfl
        | some earlier =>
          obtain rfl : earlier = info := by simpa [hm] using h
          exact ih (hi ▸ hm)
      · exact ih h
    · rw [StringMap.insert_apply] at h
      split_ifs at h with hi
      · exact absurd (hi ▸ hclose) hmark
      · exact ih h
    · exact ih h

end UmTaker.Actuary
