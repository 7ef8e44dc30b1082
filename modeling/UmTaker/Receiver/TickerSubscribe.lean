import UmTaker.Common.Tools
import UmTaker.Receiver.GlobalContext
import UmTaker.Receiver.TickerContainer
import UmTaker.Shm.TickerSlot

/-!
# The ticker subscribers

A book ticker reaches the receiver through its own websocket, through zmq, or through udp. Each
handler pushes it into the composite of its role, and publishes it to the slot of its instrument.
The websocket handler publishes without an update id; the other two classify the instrument by its
quote asset and publish the id of the exchange.

## Main definitions

* `BookTicker`, `TickerStores`: a message, and the composites and slots it goes to
* `processNormalTickerMessage`, `subscribeProcessZmqBestTicker`, `subscribeProcessUdpTicker`: the
  handlers
* `InOrderStream`: the messages of one instrument in order, none expired on arrival
* `Published`: the latest ticker and the slot both have the prices of a message
* `lastKeys`, `Distinguished`: the keys of the last message told apart, and the messages that are

## Main results

* `published_iff_distinguished`: the two stores agree after every message exactly when each one is
  told apart by its keys or has the prices of the one before
-/

namespace UmTaker.Receiver

open Shm

/-! ## Messages and stores -/

/-- The side of the pair an instrument is on. -/
inductive TickerRole
  | benchmark
  | follower
  deriving DecidableEq, Repr

/-- A book ticker as the exchange sent it. -/
structure BookTicker where
  instId : String
  bidPrice : ℚ
  bidSize : ℚ
  askPrice : ℚ
  askSize : ℚ
  updateId : ℕ
  eventTime : ℕ

/-- The ticker pushed into the composite. -/
def BookTicker.info (event : BookTicker) : UmTickerInfo where
  instId := event.instId
  bidPrice := event.bidPrice
  bidVolume := event.bidSize
  askPrice := event.askPrice
  askVolume := event.askSize
  avgPrice := (event.bidPrice + event.askPrice) / 2
  updateTimeMillis := event.eventTime
  isFromTrade := false

/-- The ticker published to the slot, with the update id the handler gives it. The slot keeps both
keys in signed fields. -/
def BookTicker.infoShm (event : BookTicker) (updateId : ℤ) : TickerInfoShm where
  bidPrice := event.bidPrice
  bidSize := event.bidSize
  askPrice := event.askPrice
  askSize := event.askSize
  updateId := int64 updateId
  updateTime := int64 event.eventTime

/-- The composite and the slots of each role. -/
structure TickerStores where
  composite : TickerRole → TickerComposite
  slots : TickerRole → ℤ → TickerInfoShm

/-- The slots of the instruments of a role. -/
def GlobalContext.shmTickerMapping (context : GlobalContext) : TickerRole → StringMap ℤ
  | .benchmark => context.shmBenchmarkTickerMapping
  | .follower => context.shmFollowerTickerMapping

/-- `inst_ids_set`: the instruments of the node. -/
def GlobalContext.instIdsSet (context : GlobalContext) : List String :=
  context.benchmarkInstIds ++ context.followerInstIds

/-! ## The handlers -/

/-- Push a ticker into the composite of its role, and publish it to the slot of its instrument, if
it has one. -/
def TickerStores.update (context : GlobalContext) (role : TickerRole) (info : UmTickerInfo)
    (infoShm : TickerInfoShm) (now : ℕ) (s : TickerStores) : TickerStores where
  composite := Function.update s.composite role ((s.composite role).updateTicker info now)
  slots := Function.update s.slots role
    (Cells.change publish (context.shmTickerMapping role) (s.slots role) (info.instId, infoShm))

/-- `process_normal_ticker_message`: the role is that of the thread, and no update id is
published. -/
def processNormalTickerMessage (context : GlobalContext) (role : TickerRole) (event : BookTicker)
    (now : ℕ) (s : TickerStores) : TickerStores :=
  s.update context role event.info (event.infoShm 0) now

/-- The role of an instrument by its quote asset. -/
def tickerRole (config : ReceiverConfig) (instId : String) : Option TickerRole :=
  if strEndsWith instId config.benchmarkQuoteAsset then some .benchmark
  else if strEndsWith instId config.followerQuoteAsset then some .follower
  else none

/-- The handling of a ticker that comes with an update id, of an instrument of any role. -/
def processBestTicker (config : ReceiverConfig) (context : GlobalContext) (event : BookTicker)
    (now : ℕ) (s : TickerStores) : TickerStores :=
  if event.instId ∈ context.instIdsSet then
    match tickerRole config event.instId with
    | some role => s.update context role event.info (event.infoShm event.updateId) now
    | none => s
  else s

/-- `subscribe_process_zmq_best_ticker`, for one message. -/
def subscribeProcessZmqBestTicker (config : ReceiverConfig) (context : GlobalContext)
    (event : BookTicker) (now : ℕ) (s : TickerStores) : TickerStores :=
  processBestTicker config context event now s

/-- `subscribe_process_udp_ticker`, for one message. -/
def subscribeProcessUdpTicker (config : ReceiverConfig) (context : GlobalContext)
    (event : BookTicker) (now : ℕ) (s : TickerStores) : TickerStores :=
  processBestTicker config context event now s

/-- The way a message reaches the receiver. -/
inductive TickerSource
  | normal (role : TickerRole)
  | zmq
  | udp
  deriving DecidableEq, Repr

/-- A message with its way, and the clock reading of its handler. -/
structure Arrival where
  source : TickerSource
  event : BookTicker
  now : ℕ

/-- The handler of a message. -/
def handle (config : ReceiverConfig) (context : GlobalContext) (s : TickerStores) (a : Arrival) :
    TickerStores :=
  match a.source with
  | .normal role => processNormalTickerMessage context role a.event a.now s
  | .zmq => subscribeProcessZmqBestTicker config context a.event a.now s
  | .udp => subscribeProcessUdpTicker config context a.event a.now s

namespace Arrival

/-- The update id the handler publishes. -/
def publishedId (a : Arrival) : ℤ :=
  match a.source with
  | .normal _ => 0
  | .zmq => a.event.updateId
  | .udp => a.event.updateId

/-- The two keys of the ticker published: its update id and its update time. -/
def keys (a : Arrival) : ℤ × ℤ :=
  ((a.event.infoShm a.publishedId).updateId, (a.event.infoShm a.publishedId).updateTime)

/-- The id and the time of the message fit the signed fields of the slot. -/
def KeysFit (a : Arrival) : Prop := a.event.updateId < 2 ^ 63 ∧ a.event.eventTime < 2 ^ 63

/-- The role the handler takes the instrument for. -/
def role (config : ReceiverConfig) (a : Arrival) : Option TickerRole :=
  match a.source with
  | .normal role => some role
  | .zmq => tickerRole config a.event.instId
  | .udp => tickerRole config a.event.instId

end Arrival

/-- A message of an instrument of the node goes to the stores of its role. -/
theorem handle_eq (config : ReceiverConfig) (context : GlobalContext) (s : TickerStores)
    {a : Arrival} {role : TickerRole} (hmem : a.event.instId ∈ context.instIdsSet)
    (hrole : a.role config = some role) :
    handle config context s a =
      s.update context role a.event.info (a.event.infoShm a.publishedId) a.now := by
  obtain ⟨source, event, now⟩ := a
  cases source with
  | normal role' =>
    obtain rfl : role' = role := Option.some.inj hrole
    rfl
  | zmq =>
    have hrole : tickerRole config event.instId = some role := hrole
    simp only [handle, subscribeProcessZmqBestTicker, processBestTicker, if_pos hmem, hrole,
      Arrival.publishedId]
  | udp =>
    have hrole : tickerRole config event.instId = some role := hrole
    simp only [handle, subscribeProcessUdpTicker, processBestTicker, if_pos hmem, hrole,
      Arrival.publishedId]

/-! ## Streams -/

/-- Messages of one instrument in the order of the exchange, with positive prices and sizes, handled
for one role, and none expired on arrival. -/
structure InOrderStream (config : ReceiverConfig) (role : TickerRole) (instId : String)
    (remainSeconds : ℕ) (stream : List Arrival) : Prop where
  instId : ∀ a ∈ stream, a.event.instId = instId
  role : ∀ a ∈ stream, a.role config = some role
  positive : ∀ a ∈ stream, PositivePrices (a.event.infoShm a.publishedId)
  fresh : ∀ a ∈ stream, TickerWrapper.expired a.now remainSeconds a.event.info = false
  ids : stream.Pairwise fun a b => a.event.updateId < b.event.updateId
  times : stream.Pairwise fun a b => a.event.eventTime ≤ b.event.eventTime

theorem InOrderStream.of_prefix {config : ReceiverConfig} {role : TickerRole} {instId : String}
    {remainSeconds : ℕ} {stream before : List Arrival}
    (h : InOrderStream config role instId remainSeconds stream) (hp : before <+: stream) :
    InOrderStream config role instId remainSeconds before where
  instId a ha := h.instId a (hp.subset ha)
  role a ha := h.role a (hp.subset ha)
  positive a ha := h.positive a (hp.subset ha)
  fresh a ha := h.fresh a (hp.subset ha)
  ids := h.ids.sublist hp.sublist
  times := h.times.sublist hp.sublist

/-- The latest ticker of the instrument has the prices of the message, and so has its slot. -/
def Published (role : TickerRole) (instId : String) (i : ℤ) (s : TickerStores)
    (event : BookTicker) : Prop :=
  ∃ ticker, (s.composite role).getLastestTicker instId = some ticker ∧
    (ticker.bidPrice, ticker.askPrice) = (event.bidPrice, event.askPrice) ∧
    ((s.slots role i).bidPrice, (s.slots role i).askPrice) = (ticker.bidPrice, ticker.askPrice)

/-- The time of the last message, or zero. -/
def lastTime (before : List Arrival) : ℕ := (before.getLast?.map (·.event.eventTime)).getD 0

/-- The prices of the last message, or zero. -/
def lastPrices (before : List Arrival) : ℚ × ℚ :=
  (before.getLast?.map fun a => (a.event.bidPrice, a.event.askPrice)).getD (0, 0)

/-- The message is newer than these keys by one of its own. -/
def ToldApart (keys : ℤ × ℤ) (a : Arrival) : Prop := keys.1 < a.keys.1 ∨ keys.2 < a.keys.2

instance (keys : ℤ × ℤ) (a : Arrival) : Decidable (ToldApart keys a) :=
  inferInstanceAs (Decidable (_ ∨ _))

/-- The keys of the last message told apart from those before it, or zero. -/
def lastKeys (before : List Arrival) : ℤ × ℤ :=
  before.foldl (fun keys a => if ToldApart keys a then a.keys else keys) (0, 0)

/-- The message is told apart by its keys, or has the prices of the one before it. -/
def Distinguished (before : List Arrival) (a : Arrival) : Prop :=
  ToldApart (lastKeys before) a ∨ (a.event.bidPrice, a.event.askPrice) = lastPrices before

/-- The message has an id to publish, a later time than the one before it, or its prices. -/
def Identified (before : List Arrival) (a : Arrival) : Prop :=
  0 < a.publishedId ∨ lastTime before < a.event.eventTime ∨
    (a.event.bidPrice, a.event.askPrice) = lastPrices before

@[simp] theorem lastKeys_snoc (before : List Arrival) (a : Arrival) :
    lastKeys (before ++ [a]) =
      if ToldApart (lastKeys before) a then a.keys else lastKeys before := by
  rw [lastKeys, List.foldl_append]
  rfl

/-- What a run leaves in the stores of a role: the slot has the keys of the last message told
apart. -/
structure Tracks (role : TickerRole) (i : ℤ) (remainSeconds : ℕ) (s : TickerStores)
    (before : List Arrival) : Prop where
  remainSeconds : (s.composite role).tickerRemainSeconds = remainSeconds
  keys : ((s.slots role i).updateId, (s.slots role i).updateTime) = lastKeys before

section Keys

variable {config : ReceiverConfig} {role : TickerRole} {instId : String} {remainSeconds : ℕ}
  {stream before : List Arrival} {a : Arrival}

theorem publishedId_eq (a : Arrival) :
    a.publishedId = 0 ∨ a.publishedId = a.event.updateId := by
  obtain ⟨source, event, now⟩ := a
  cases source with
  | normal role => exact Or.inl rfl
  | zmq => exact Or.inr rfl
  | udp => exact Or.inr rfl

/-- Keys that fit are published as they are. -/
theorem Arrival.KeysFit.keys_eq (h : a.KeysFit) :
    a.keys = (a.publishedId, (a.event.eventTime : ℤ)) := by
  have hid : int64 a.publishedId = a.publishedId := by
    have hfit := h.1
    rcases publishedId_eq a with hp | hp <;> rw [hp] <;> exact int64_of_lt (by omega) (by omega)
  have htime : int64 (a.event.eventTime : ℤ) = a.event.eventTime := by
    have hfit := h.2
    exact int64_of_lt (by omega) (by omega)
  rw [Arrival.keys, BookTicker.infoShm, hid, htime]

/-- In a stream in order the last message is no later than the next. -/
theorem InOrderStream.lastTime_le
    (h : InOrderStream config role instId remainSeconds (before ++ [a])) :
    lastTime before ≤ a.event.eventTime := by
  unfold lastTime
  cases hlast : before.getLast? with
  | none => exact Nat.zero_le _
  | some b =>
    have hb : b ∈ before := List.mem_of_getLast? hlast
    exact (List.pairwise_append.mp h.times).2.2 b hb a (List.mem_singleton_self a)

/-- The keys of the last message told apart are the last time, and an id that was published before
or zero. -/
def LastKeysOf (before : List Arrival) : Prop :=
  (lastKeys before).2 = lastTime before ∧
    ((lastKeys before).1 = 0 ∨ ∃ b ∈ before, (lastKeys before).1 = b.event.updateId)

/-- In a stream in order the ids of the exchange increase, but a handler may not publish them. -/
theorem LastKeysOf.toldApart_iff (h : LastKeysOf before)
    (hstream : InOrderStream config role instId remainSeconds (before ++ [a])) (hfit : a.KeysFit) :
    ToldApart (lastKeys before) a ↔ 0 < a.publishedId ∨ lastTime before < a.event.eventTime := by
  unfold ToldApart
  rw [hfit.keys_eq, h.1]
  refine or_congr ?_ Int.ofNat_lt
  show (lastKeys before).1 < a.publishedId ↔ _
  rcases h.2 with hzero | ⟨b, hb, hid⟩
  · rw [hzero]
  · have hlt := (List.pairwise_append.mp hstream.ids).2.2 b hb a (List.mem_singleton_self a)
    rw [hid]
    rcases publishedId_eq a with hp | hp <;> rw [hp] <;> omega

/-- **While the keys fit**, the time of the last message told apart is that of the last message. -/
theorem InOrderStream.lastKeysOf (h : InOrderStream config role instId remainSeconds before)
    (hfits : ∀ a ∈ before, a.KeysFit) : LastKeysOf before := by
  induction before using List.reverseRecOn with
  | nil => exact ⟨rfl, Or.inl rfl⟩
  | append_singleton before a ih =>
    have hfit := hfits a (by simp)
    have hbefore : LastKeysOf before :=
      ih (h.of_prefix (List.prefix_append _ _)) fun b hb => hfits b (List.mem_append_left _ hb)
    have hlast : lastTime (before ++ [a]) = a.event.eventTime := by simp [lastTime]
    have htold := hbefore.toldApart_iff h hfit
    unfold LastKeysOf
    rw [lastKeys_snoc, hlast]
    split_ifs with ha
    · rw [hfit.keys_eq]
      exact ⟨rfl, (publishedId_eq a).imp id fun hid => ⟨a, by simp, hid⟩⟩
    · have hle := h.lastTime_le
      rw [htold] at ha
      refine ⟨by rw [hbefore.1]; omega, hbefore.2.imp id ?_⟩
      rintro ⟨b, hb, hid⟩
      exact ⟨b, List.mem_append_left _ hb, hid⟩

/-- Where the keys fit, a message is distinguished by its id, its time or its prices. -/
theorem distinguished_iff_identified
    (hstream : InOrderStream config role instId remainSeconds (before ++ [a]))
    (hfits : ∀ b ∈ before ++ [a], b.KeysFit) : Distinguished before a ↔ Identified before a := by
  have hlast : LastKeysOf before :=
    (hstream.of_prefix (List.prefix_append _ _)).lastKeysOf
      fun b hb => hfits b (List.mem_append_left _ hb)
  unfold Distinguished Identified
  rw [hlast.toldApart_iff hstream (hfits a (by simp)), or_assoc]

end Keys

section Step

variable {config : ReceiverConfig} {context : GlobalContext} {role : TickerRole} {instId : String}
  {i : ℤ} {remainSeconds : ℕ} {s : TickerStores} {before : List Arrival} {a : Arrival}

/-- The slot accepts the next message when it is told apart from the last one that was. -/
theorem Tracks.newer_iff (h : Tracks role i remainSeconds s before) :
    Newer (s.slots role i) (a.event.infoShm a.publishedId) ↔ ToldApart (lastKeys before) a := by
  unfold Newer ToldApart Arrival.keys
  rw [← h.keys]

variable (hmem : instId ∈ context.instIdsSet)
  (hslot : context.shmTickerMapping role instId = some i)

include hmem hslot

/-- Handling a message of the instrument pushes it into the composite, and publishes it to the
slot. -/
theorem handle_spec (hstream : InOrderStream config role instId remainSeconds (before ++ [a])) :
    (handle config context s a).composite role =
        (s.composite role).updateTicker a.event.info a.now ∧
      (handle config context s a).slots role i =
        publish (s.slots role i) (a.event.infoShm a.publishedId) := by
  have ha : a ∈ before ++ [a] := List.mem_append_right _ (List.mem_singleton_self a)
  have hinst := hstream.instId a ha
  rw [handle_eq config context s (hinst ▸ hmem) (hstream.role a ha)]
  constructor
  · exact Function.update_self ..
  · have hcell : context.shmTickerMapping role a.event.info.instId = some i := by
      show context.shmTickerMapping role a.event.instId = some i
      rw [hinst, hslot]
    simp [TickerStores.update, Cells.change, hcell]

/-- **One message** leaves the slot with the keys of the last message told apart. -/
theorem Tracks.handle (h : Tracks role i remainSeconds s before)
    (hstream : InOrderStream config role instId remainSeconds (before ++ [a])) :
    Tracks role i remainSeconds (handle config context s a) (before ++ [a]) := by
  obtain ⟨hcomposite, hslots⟩ := handle_spec (s := s) hmem hslot hstream
  constructor
  · rw [hcomposite]
    exact h.remainSeconds
  · rw [hslots, publish_updateId, publish_updateTime, lastKeys_snoc]
    simp only [h.newer_iff]
    split_ifs with hnew
    · rfl
    · exact h.keys

/-- Over a run the slot has the keys of the last message told apart. -/
theorem tracks_after {s₀ : TickerStores} (hinit : s₀.slots role i = tickerShmWriterInit instId)
    (hstream : InOrderStream config role instId (s₀.composite role).tickerRemainSeconds before) :
    Tracks role i (s₀.composite role).tickerRemainSeconds
      (Run.after (Receiver.handle config context) s₀ before) before := by
  induction before using List.reverseRecOn with
  | nil =>
    refine ⟨rfl, ?_⟩
    rw [Run.after_nil, hinit]
    rfl
  | append_singleton before a ih =>
    rw [Run.after_snoc]
    exact (ih (hstream.of_prefix (List.prefix_append _ _))).handle hmem hslot hstream

/-- After a message the stores agree when its slot accepts it, or has its prices already. -/
theorem published_handle_iff (h : Tracks role i remainSeconds s before)
    (hstream : InOrderStream config role instId remainSeconds (before ++ [a])) :
    Published role instId i (Receiver.handle config context s a) a.event ↔
      ToldApart (lastKeys before) a ∨
        ((s.slots role i).bidPrice, (s.slots role i).askPrice) =
          (a.event.bidPrice, a.event.askPrice) := by
  obtain ⟨hcomposite, hslots⟩ := handle_spec (s := s) hmem hslot hstream
  have ha : a ∈ before ++ [a] := List.mem_append_right _ (List.mem_singleton_self a)
  have hlatest : ((Receiver.handle config context s a).composite role).getLastestTicker instId =
      some a.event.info := by
    have hfresh := hstream.fresh a ha
    rw [← h.remainSeconds] at hfresh
    rw [hcomposite, ← hstream.instId a ha]
    exact TickerComposite.getLastestTicker_updateTicker _ hfresh
  have hpublished : Published role instId i (Receiver.handle config context s a) a.event ↔
      ((publish (s.slots role i) (a.event.infoShm a.publishedId)).bidPrice,
        (publish (s.slots role i) (a.event.infoShm a.publishedId)).askPrice) =
          (a.event.bidPrice, a.event.askPrice) := by
    rw [← hslots]
    constructor
    · rintro ⟨ticker, hticker, hprices, hpub⟩
      rw [hpub, hprices]
    · intro hpub
      exact ⟨a.event.info, hlatest, rfl, hpub⟩
  rw [hpublished, ← h.newer_iff]
  by_cases hnew : Newer (s.slots role i) (a.event.infoShm a.publishedId)
  · have hquote := quote_publish (hstream.positive a ha) hnew
    have hbid := congrArg TickerQuote.bidPrice hquote
    have hask := congrArg TickerQuote.askPrice hquote
    exact ⟨fun _ => Or.inl hnew, fun _ => Prod.ext hbid hask⟩
  · rw [publish_of_not_newer hnew]
    exact ⟨Or.inr, fun h => h.resolve_left hnew⟩

end Step

/-- **The composite and the slot agree after every message** of a stream in order exactly when each
message is told apart by its keys, or has the prices of the one before it. While the keys fit the
fields of the slot, that is when it has an id to publish, a later time, or these prices. -/
theorem published_iff_distinguished (config : ReceiverConfig) (context : GlobalContext)
    (role : TickerRole) (instId : String) (i : ℤ) (s₀ : TickerStores) (stream : List Arrival)
    (hmem : instId ∈ context.instIdsSet) (hslot : context.shmTickerMapping role instId = some i)
    (hinit : s₀.slots role i = tickerShmWriterInit instId)
    (hstream : InOrderStream config role instId (s₀.composite role).tickerRemainSeconds stream) :
    (Run.Every (handle config context) s₀
        (fun s a => Published role instId i (handle config context s a) a.event) stream ↔
      ∀ before a, before ++ [a] <+: stream → Distinguished before a) ∧
    ((∀ a ∈ stream, a.KeysFit) →
      ∀ before a, before ++ [a] <+: stream → (Distinguished before a ↔ Identified before a)) := by
  constructor
  case right =>
    intro hfits before a hpre
    exact distinguished_iff_identified (hstream.of_prefix hpre)
      fun b hb => hfits b (hpre.subset hb)
  refine Run.every_iff fun before a hpre hbefore => ?_
  have hstream := hstream.of_prefix hpre
  have htracks := tracks_after hmem hslot hinit (hstream.of_prefix (List.prefix_append _ _))
  rw [published_handle_iff hmem hslot htracks hstream, Distinguished]
  -- as the stores have agreed so far, the slot has the prices of the last message
  have hprices : ((((Run.after (handle config context) s₀ before).slots role i).bidPrice,
      ((Run.after (handle config context) s₀ before).slots role i).askPrice) : ℚ × ℚ) =
        lastPrices before := by
    rcases List.eq_nil_or_concat before with rfl | ⟨earlier, last, rfl⟩
    · rw [Run.after_nil, hinit]
      rfl
    · rw [List.concat_eq_append] at hbefore ⊢
      obtain ⟨ticker, -, hevent, hslots⟩ := hbefore earlier last List.prefix_rfl
      rw [Run.after_snoc, hslots, hevent]
      simp [lastPrices]
  rw [hprices, eq_comm (a := lastPrices before)]

/-- The stores of a node that handles one asset, over slots just initialised. -/
def sampleStores : TickerStores where
  composite
    | .benchmark => .init "USDT" ["BTC"] 60
    | .follower => .init "USDC" ["BTC"] 60
  slots
    | .benchmark => fun _ => tickerShmWriterInit "BTCUSDT"
    | .follower => fun _ => tickerShmWriterInit "BTCUSDC"

/-- A message of the follower's instrument, handled when it is sent. -/
def sampleArrival (source : TickerSource) (price : ℚ) (updateId eventTime : ℕ) : Arrival where
  source := source
  event :=
    { instId := "BTCUSDC", bidPrice := price, bidSize := 1, askPrice := price + 1, askSize := 2
      updateId := updateId, eventTime := eventTime }
  now := eventTime

/-- Messages of one millisecond are a stream in order. -/
theorem inOrderStream_sample (source : TickerSource)
    (hsource : source = .normal .follower ∨ source = .zmq) :
    InOrderStream sampleReceiverConfig .follower "BTCUSDC" 60
      [sampleArrival source 50 7 100, sampleArrival source 51 8 100] := by
  have hall : ∀ a ∈ [sampleArrival source 50 7 100, sampleArrival source 51 8 100],
      a = sampleArrival source 50 7 100 ∨ a = sampleArrival source 51 8 100 := by
    intro a ha
    simpa using ha
  constructor
  · intro a ha
    rcases hall a ha with rfl | rfl <;> rfl
  · intro a ha
    rcases hsource with rfl | rfl <;> rcases hall a ha with rfl | rfl <;> decide +kernel
  · intro a ha
    rcases hall a ha with rfl | rfl <;>
      constructor <;> norm_num [BookTicker.infoShm, sampleArrival]
  · intro a ha
    rcases hsource with rfl | rfl <;> rcases hall a ha with rfl | rfl <;> decide
  · simp [sampleArrival]
  · simp [sampleArrival]

/-- Two messages of one millisecond that come through zmq are both published. -/
theorem published_iff_distinguished_zmq :
    Run.Every (handle sampleReceiverConfig (.init sampleReceiverConfig)) sampleStores
      (fun s a => Published .follower "BTCUSDC" 0
        (handle sampleReceiverConfig (.init sampleReceiverConfig) s a) a.event)
      [sampleArrival .zmq 50 7 100, sampleArrival .zmq 51 8 100] := by
  obtain ⟨hevery, hfit⟩ := published_iff_distinguished sampleReceiverConfig
    (.init sampleReceiverConfig) .follower "BTCUSDC" 0 sampleStores _ (by decide)
    (by decide +kernel) rfl (inOrderStream_sample .zmq (Or.inr rfl))
  refine hevery.mpr fun before a hpre => ?_
  refine (hfit (by simp [Arrival.KeysFit, sampleArrival]) before a hpre).mpr ?_
  have ha := hpre.subset (List.mem_append_right _ (List.mem_singleton_self a))
  simp only [List.mem_cons, List.not_mem_nil, or_false] at ha
  rcases ha with rfl | rfl <;> exact Or.inl (by decide)

/-- The second of two messages of one millisecond that come through the websocket of the receiver is
the latest ticker, but is not published. -/
theorem latest_not_published :
    ¬ ∀ (config : ReceiverConfig) (context : GlobalContext) (role : TickerRole) (instId : String)
        (i : ℤ) (s₀ : TickerStores) (stream : List Arrival), instId ∈ context.instIdsSet →
      context.shmTickerMapping role instId = some i →
      s₀.slots role i = tickerShmWriterInit instId →
      InOrderStream config role instId (s₀.composite role).tickerRemainSeconds stream →
      Run.Every (handle config context) s₀
        (fun s a => Published role instId i (handle config context s a) a.event) stream := by
  intro h
  have hevery := h sampleReceiverConfig (.init sampleReceiverConfig) .follower "BTCUSDC" 0
    sampleStores _ (by decide) (by decide +kernel) rfl
    (inOrderStream_sample (.normal .follower) (Or.inl rfl))
  obtain ⟨ticker, -, hevent, hslots⟩ := hevery [sampleArrival (.normal .follower) 50 7 100]
    (sampleArrival (.normal .follower) 51 8 100) List.prefix_rfl
  rw [hevent] at hslots
  exact absurd hslots (by decide +kernel)

end UmTaker.Receiver
