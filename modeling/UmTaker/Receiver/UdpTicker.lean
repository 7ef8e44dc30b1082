import UmTaker.General.FixedArray
import UmTaker.General.Run
import UmTaker.Receiver.TickerSubscribe

/-!
# The memory of udp tickers

A feed on the same host keeps the tickers of each coin in a ring of slots, in a file the receiver
maps into its memory, with a counter of updates for each coin. The feed sends the number of a coin
in a datagram; the receiver reads the ticker at that number and at the remainder of the counter,
both signed 32-bit numbers.

## Main definitions

* `UDPBookTicker`, `UDPMapData`: a ticker in the mapped file, and the file
* `recvCoinIdx`: the number of a coin in a datagram
* `UdpState`, `UdpEvent`, `udpStep`: updates of the feed and datagrams, until a read is undefined
* `IndexesInBounds`: both indices of a datagram are within their arrays
* `CoinAddressed`: a datagram names a coin, whose counter is not negative or a multiple of the slots

## Main results

* `indexesInBounds_iff`: all indices of a run are in bounds exactly when its datagrams are
  addressed so
* `udpRun_isSome_iff`: that is when no read of the run is undefined
-/

namespace UmTaker.Receiver

open FixedArray Shm

/-! ## The mapped file -/

/-- A ticker of the feed. -/
structure UDPBookTicker where
  updateId : ℕ := 0
  ets : ℕ := 0
  buyPrice : ℚ := 0
  buyNum : ℚ := 0
  sellPrice : ℚ := 0
  sellNum : ℚ := 0
  name : String := ""

/-- What the subscriber makes of it. -/
def UDPBookTicker.event (ticker : UDPBookTicker) : BookTicker where
  instId := ticker.name
  bidPrice := ticker.buyPrice
  bidSize := ticker.buyNum
  askPrice := ticker.sellPrice
  askSize := ticker.sellNum
  updateId := ticker.updateId
  eventTime := ticker.ets

/-- `UDP_MAX_COIN_COUNT`. -/
abbrev udpMaxCoinCount : ℕ := 512

/-- `UDP_COIN_SLOT_COUNT`. -/
abbrev udpCoinSlotCount : ℕ := 32

/-- The mapped file: for each coin a counter of updates and a ring of tickers. -/
structure UDPMapData where
  coinUpdateIdx : Fin udpMaxCoinCount → Int32 := fun _ => 0
  data : Fin udpMaxCoinCount → Fin udpCoinSlotCount → UDPBookTicker := fun _ _ => {}

namespace UDPMapData

/-- An update of the feed: it counts, and writes a ticker to a slot of the coin. -/
def feed (g : UDPMapData) (coin : Fin udpMaxCoinCount) (slot : Fin udpCoinSlotCount)
    (ticker : UDPBookTicker) : UDPMapData where
  coinUpdateIdx := Function.update g.coinUpdateIdx coin (g.coinUpdateIdx coin + 1)
  data := Function.update g.data coin (Function.update (g.data coin) slot ticker)

/-- `data_idx`: the remainder of the counter of a coin. -/
def dataIdx (g : UDPMapData) (coinIdx : Int32) : Option Int32 :=
  (readAt g.coinUpdateIdx coinIdx.toInt).map (· % 32)

/-- `book_ticker`: the ticker of a coin at the remainder of its counter. -/
def bookTicker (g : UDPMapData) (coinIdx : Int32) : Option UDPBookTicker := do
  let dataIdx ← g.dataIdx coinIdx
  let tickers ← readAt g.data coinIdx.toInt
  readAt tickers dataIdx.toInt

/-- The number of a coin is within the arrays of coins, and the remainder within its ring. -/
structure InBounds (g : UDPMapData) (coinIdx : Int32) : Prop where
  coin : 0 ≤ coinIdx.toInt ∧ coinIdx.toInt < udpMaxCoinCount
  slot : ∀ dataIdx ∈ g.dataIdx coinIdx, 0 ≤ dataIdx.toInt ∧ dataIdx.toInt < udpCoinSlotCount

/-- A ticker is read exactly when both indices are in bounds. -/
theorem bookTicker_isSome_iff {g : UDPMapData} {coinIdx : Int32} :
    (g.bookTicker coinIdx).isSome ↔ g.InBounds coinIdx := by
  by_cases hcoin : 0 ≤ coinIdx.toInt ∧ coinIdx.toInt < udpMaxCoinCount
  · obtain ⟨tickers, htickers⟩ :=
      Option.isSome_iff_exists.mp (readAt_isSome_iff (a := g.data).mpr hcoin)
    obtain ⟨counter, hcounter⟩ :=
      Option.isSome_iff_exists.mp (readAt_isSome_iff (a := g.coinUpdateIdx).mpr hcoin)
    have hidx : g.dataIdx coinIdx = some (counter % 32) := by
      rw [dataIdx, hcounter, Option.map_some]
    have hticker : g.bookTicker coinIdx = readAt tickers (counter % 32).toInt := by
      simp only [bookTicker, hidx, htickers, Option.bind_eq_bind, Option.bind_some]
    rw [hticker, readAt_isSome_iff]
    constructor
    · intro hslot
      refine ⟨hcoin, fun dataIdx hmem => ?_⟩
      rw [hidx] at hmem
      obtain rfl := Option.some.inj hmem
      exact hslot
    · intro h
      exact h.slot _ hidx
  · have hnone : readAt g.coinUpdateIdx coinIdx.toInt = none := by
      rw [← Option.not_isSome_iff_eq_none, readAt_isSome_iff]
      exact hcoin
    refine iff_of_false ?_ fun h => hcoin h.coin
    simp [bookTicker, dataIdx, hnone]

/-- Both indices are in bounds exactly when the number names a coin whose counter is not negative,
or a multiple of the number of slots. -/
theorem inBounds_iff {g : UDPMapData} {coinIdx : Int32} :
    g.InBounds coinIdx ↔
      ∃ counter ∈ readAt g.coinUpdateIdx coinIdx.toInt,
        0 ≤ counter.toInt ∨ 32 ∣ counter.toInt := by
  have hslot : ∀ counter : Int32,
      (0 ≤ (counter % 32).toInt ∧ (counter % 32).toInt < udpCoinSlotCount) ↔
        0 ≤ counter.toInt ∨ 32 ∣ counter.toInt := by
    intro counter
    have hslots : (32 : Int32).toInt = (udpCoinSlotCount : ℤ) := by decide
    rw [Int32.toInt_mod, hslots]
    exact tmod_inBounds_iff (by norm_num) counter.toInt
  constructor
  · intro h
    obtain ⟨counter, hcounter⟩ :=
      Option.isSome_iff_exists.mp (readAt_isSome_iff (a := g.coinUpdateIdx).mpr h.coin)
    refine ⟨counter, hcounter, (hslot counter).mp (h.slot _ ?_)⟩
    rw [dataIdx, hcounter]
    rfl
  · rintro ⟨counter, hcounter, hcond⟩
    refine ⟨readAt_isSome_iff.mp (Option.isSome_iff_exists.mpr ⟨counter, hcounter⟩), ?_⟩
    intro dataIdx hmem
    rw [UDPMapData.dataIdx, hcounter] at hmem
    obtain rfl : counter % 32 = dataIdx := Option.some.inj hmem
    exact (hslot counter).mpr hcond

end UDPMapData

/-! ## Runs -/

/-- `recvfrom` into a buffer of four bytes, and the test of the length: the number of a coin. Longer
datagrams are cut. -/
def recvCoinIdx (datagram : List UInt8) : Option Int32 :=
  match datagram.take 4 with
  | [b₀, b₁, b₂, b₃] =>
    some (Int32.ofNat (b₀.toNat + 256 * b₁.toNat + 65536 * b₂.toNat + 16777216 * b₃.toNat))
  | _ => none

/-- The mapped file, and the stores of the receiver. -/
structure UdpState where
  mapData : UDPMapData
  stores : TickerStores

/-- An update of the feed, or a datagram with the clock reading of its handling. -/
inductive UdpEvent
  | feed (coin : Fin udpMaxCoinCount) (slot : Fin udpCoinSlotCount) (ticker : UDPBookTicker)
  | datagram (bytes : List UInt8) (now : ℕ)

/-- A round of the receive loop of `subscribe_process_udp_ticker`; a read outside an array leaves no
defined state. -/
def UdpState.receive (config : ReceiverConfig) (context : GlobalContext) (bytes : List UInt8)
    (now : ℕ) (s : UdpState) : Option UdpState :=
  match recvCoinIdx bytes with
  | none => some s
  | some coinIdx =>
    (s.mapData.bookTicker coinIdx).map fun ticker =>
      { s with stores := subscribeProcessUdpTicker config context ticker.event now s.stores }

/-- The receive loop beside the feed. -/
def udpStep (config : ReceiverConfig) (context : GlobalContext) :
    Option UdpState → UdpEvent → Option UdpState
  | none, _ => none
  | some s, .feed coin slot ticker => some { s with mapData := s.mapData.feed coin slot ticker }
  | some s, .datagram bytes now => s.receive config context bytes now

/-- A datagram handled in a defined state uses indices within their arrays. -/
def IndexesInBounds : Option UdpState → UdpEvent → Prop
  | some s, .datagram bytes _ => ∀ coinIdx ∈ recvCoinIdx bytes, s.mapData.InBounds coinIdx
  | _, _ => True

/-- The number of updates of a coin. -/
def feedCount (i : ℤ) (events : List UdpEvent) : ℕ :=
  events.countP fun
    | .feed coin _ _ => decide (((coin : ℕ) : ℤ) = i)
    | .datagram _ _ => false

/-- After the events so far the next one, if it is a datagram, names a coin, and the coin's counter,
counted from its start with 32 bits and a sign, is not negative or a multiple of the number of
slots. -/
def CoinAddressed (g : UDPMapData) (before : List UdpEvent) : UdpEvent → Prop
  | .feed _ _ _ => True
  | .datagram bytes _ => ∀ coinIdx ∈ recvCoinIdx bytes,
      ∃ start ∈ readAt g.coinUpdateIdx coinIdx.toInt,
        let counter := (start + Int32.ofNat (feedCount coinIdx.toInt before)).toInt
        0 ≤ counter ∨ 32 ∣ counter

section Runs

variable {config : ReceiverConfig} {context : GlobalContext} {s : UdpState}

/-- A datagram leads to a defined state exactly when it uses indices within their arrays; the state
has the same mapped file. -/
theorem udpStep_datagram (config : ReceiverConfig) (context : GlobalContext) (s : UdpState)
    (bytes : List UInt8) (now : ℕ) :
    ((udpStep config context (some s) (.datagram bytes now)).isSome ↔
        IndexesInBounds (some s) (.datagram bytes now)) ∧
      ∀ s' ∈ udpStep config context (some s) (.datagram bytes now), s'.mapData = s.mapData := by
  show ((s.receive config context bytes now).isSome ↔
      ∀ coinIdx ∈ recvCoinIdx bytes, s.mapData.InBounds coinIdx) ∧
    ∀ s' ∈ s.receive config context bytes now, s'.mapData = s.mapData
  unfold UdpState.receive
  cases recvCoinIdx bytes with
  | none => simp
  | some coinIdx =>
    constructor
    · simpa using UDPMapData.bookTicker_isSome_iff
    · intro s' hs'
      obtain ⟨ticker, -, rfl⟩ := Option.map_eq_some_iff.mp hs'
      rfl

/-- Where the indices of a run have been in bounds, its state is defined, and every counter has
counted the updates of its coin. -/
theorem udpRun_of_every {events : List UdpEvent}
    (h : Run.Every (udpStep config context) (some s) IndexesInBounds events) :
    ∃ s', Run.after (udpStep config context) (some s) events = some s' ∧
      ∀ i, readAt s'.mapData.coinUpdateIdx i =
        (readAt s.mapData.coinUpdateIdx i).map (· + Int32.ofNat (feedCount i events)) := by
  induction events using List.reverseRecOn with
  | nil =>
    refine ⟨s, rfl, fun i => ?_⟩
    simp [feedCount]
  | append_singleton events e ih =>
    obtain ⟨hevents, he⟩ := Run.every_snoc.mp h
    obtain ⟨s', hs', hcounters⟩ := ih hevents
    rw [Run.after_snoc, hs']
    rw [hs'] at he
    cases e with
    | feed coin slot ticker =>
      refine ⟨_, rfl, fun i => ?_⟩
      have hfeed := readAt_update s'.mapData.coinUpdateIdx coin (· + 1) i
      rw [hcounters i, Option.map_map] at hfeed
      refine hfeed.trans (congrFun (congrArg Option.map (funext fun start => ?_)) _)
      by_cases hcoin : ((coin : ℕ) : ℤ) = i
      · simp [feedCount, hcoin, Int32.add_assoc]
      · simp [feedCount, hcoin]
    | datagram bytes now =>
      obtain ⟨hdefined, hmap⟩ := udpStep_datagram config context s' bytes now
      obtain ⟨s'', hs''⟩ := Option.isSome_iff_exists.mp (hdefined.mpr he)
      refine ⟨s'', hs'', fun i => ?_⟩
      rw [hmap s'' hs'', hcounters i]
      simp [feedCount]

/-- **A run is defined** exactly when its datagrams use indices within their arrays. -/
theorem udpRun_isSome_iff {events : List UdpEvent} :
    (Run.after (udpStep config context) (some s) events).isSome ↔
      Run.Every (udpStep config context) (some s) IndexesInBounds events := by
  constructor
  · intro h
    induction events using List.reverseRecOn with
    | nil => exact Run.every_nil
    | append_singleton events e ih =>
      rw [Run.after_snoc] at h
      cases hs : Run.after (udpStep config context) (some s) events with
      | none =>
        rw [hs] at h
        cases e <;> cases h
      | some s' =>
        rw [hs] at h
        refine Run.every_snoc.mpr ⟨ih (by rw [hs]; rfl), ?_⟩
        rw [hs]
        cases e with
        | feed coin slot ticker => trivial
        | datagram bytes now => exact (udpStep_datagram _ _ _ bytes now).1.mp h
  · intro h
    obtain ⟨s', hs', -⟩ := udpRun_of_every h
    rw [hs']
    rfl

end Runs

/-- **The indices of a run are in bounds** exactly when each of its datagrams names a coin, and the
coin's counter is not negative by then or a multiple of the number of slots. -/
theorem indexesInBounds_iff (config : ReceiverConfig) (context : GlobalContext) (s : UdpState)
    (events : List UdpEvent) :
    Run.Every (udpStep config context) (some s) IndexesInBounds events ↔
      ∀ before e, before ++ [e] <+: events → CoinAddressed s.mapData before e := by
  refine Run.every_iff fun before e _ hbefore => ?_
  obtain ⟨s', hs', hcounters⟩ := udpRun_of_every hbefore
  rw [hs']
  cases e with
  | feed coin slot ticker => exact Iff.rfl
  | datagram bytes now =>
    refine forall_congr' fun coinIdx => forall_congr' fun _ => ?_
    rw [UDPMapData.inBounds_iff, hcounters coinIdx.toInt]
    simp

/-- A file whose first coin has been updated as often as its counter can count. -/
def fullCounter : UDPMapData where
  coinUpdateIdx := Function.update (fun _ => 0) 0 2147483647

/-- A datagram that names a coin past the last, and one that names the first coin after its counter
has wrapped around. -/
theorem index_out_of_bounds :
    (¬ ∀ config context s, Run.Every (udpStep config context) (some s) IndexesInBounds
        [.datagram [0, 2, 0, 0] 0]) ∧
      ¬ ∀ config context stores,
        Run.Every (udpStep config context) (some ⟨fullCounter, stores⟩) IndexesInBounds
          [.feed 0 0 {}, .feed 0 0 {}, .datagram [0, 0, 0, 0] 0] := by
  constructor
  · intro h
    have hcoin := (h sampleReceiverConfig (.init sampleReceiverConfig) ⟨{}, sampleStores⟩ []
      (.datagram [0, 2, 0, 0] 0) List.prefix_rfl 512 rfl).coin
    exact absurd hcoin (by decide)
  · intro h
    have hslot := (h sampleReceiverConfig (.init sampleReceiverConfig) sampleStores
      [.feed 0 0 {}, .feed 0 0 {}] (.datagram [0, 0, 0, 0] 0) List.prefix_rfl 0 rfl).slot
      (-31) (by decide +kernel)
    exact absurd hslot (by decide)

end UmTaker.Receiver
