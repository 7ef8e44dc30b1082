import UmTaker.Evaluator.OrderContainer
import UmTaker.General.ReceiveLoop
import UmTaker.Receiver.TickerSubscribe

/-!
# The zmq subscribers

Three threads receive from zmq: the receiver's best tickers, the trader's best paths and the
evaluator's order statistics. Each connects a new client, whether that succeeds or not, and receives
until an exception; then it is to wait five seconds. The receiver waits behind the try block of its
inner loop instead of behind the loop.

## Main definitions

* `zmqBestTickerLoop`, `bestPathLoop`, `orderStatLoop`: the loops, by what they receive
* `subscribeProcessZmqBestTicker`, `subscribeBestPathProcessor`, `subscribeProcessOrderStatZmq`:
  what the threads do

## Main results

* `subscribeBestPathProcessor_backsOff`, `subscribeProcessOrderStatZmq_backsOff`: two of them wait
  once after each exception, and only then
* `subscribeProcessZmqBestTicker_backsOff_iff`: the third does so only while nothing throws and only
  the last message is for an instrument of the node
-/

namespace UmTaker.Zmq

open ReceiveLoop

/-! ## Best paths -/

/-- A best path as it is published. -/
structure BestPathInfo where
  symbol : String
  localIp : String
  remoteIp : String
  action : String
  bestCost : ℕ
  updateTimeMillis : ℕ

/-- `is_valid_best_path`: a new path of a known instrument, with all values, not older than an
hour. -/
def isValidBestPath (followerInstIdSet : List String) (info : BestPathInfo) (now : ℕ) : Bool :=
  if info.symbol ∉ followerInstIdSet then false
  else if info.action ≠ "NEW" then false
  else if info.localIp.length = 0 ∨ info.remoteIp.length = 0 ∨ info.bestCost ≤ 0 then false
  else if u64 (info.updateTimeMillis + 3600 * 1000) < now then false
  else true

/-- The loop of `subscribe_best_path_processor`, over what `Receive` and the handling of a message
yield: a path with the clock reading of its check, or an exception. -/
def bestPathLoop (followerInstIdSet : List String) : Loop (Option (BestPathInfo × ℕ)) where
  attempt
    | none => .thrown
    | some (info, now) =>
      if isValidBestPath followerInstIdSet info now then .finished else .continued
  sleepBehindTry := false
  sleepBehindLoop := true

/-- `subscribe_best_path_processor`: it waits before it begins. -/
def subscribeBestPathProcessor (followerInstIdSet : List String)
    (received : List (Option (BestPathInfo × ℕ))) : List Action :=
  .sleep :: (bestPathLoop followerInstIdSet).trace received

theorem subscribeBestPathProcessor_backsOff (followerInstIdSet : List String)
    (received : List (Option (BestPathInfo × ℕ))) :
    BacksOff (subscribeBestPathProcessor followerInstIdSet received) :=
  (backsOff_of_behindLoop rfl rfl received).cons_sleep

/-! ## Order statistics -/

/-- The loop of `subscribe_process_order_stat_zmq`: every order is handled. -/
def orderStatLoop : Loop (Option Evaluator.StatOrderLite) where
  attempt
    | none => .thrown
    | some _ => .finished
  sleepBehindTry := false
  sleepBehindLoop := true

/-- `subscribe_process_order_stat_zmq`: it waits before it begins. -/
def subscribeProcessOrderStatZmq (received : List (Option Evaluator.StatOrderLite)) : List Action :=
  .sleep :: orderStatLoop.trace received

theorem subscribeProcessOrderStatZmq_backsOff (received : List (Option Evaluator.StatOrderLite)) :
    BacksOff (subscribeProcessOrderStatZmq received) :=
  (backsOff_of_behindLoop rfl rfl received).cons_sleep

/-! ## Best tickers -/

/-- The loop of `subscribe_process_zmq_best_ticker`, over what `Receive` and the handling of a
message yield: a ticker, which is ignored unless its instrument is one of the node, or an
exception. -/
def zmqBestTickerLoop (context : Receiver.GlobalContext) : Loop (Option Receiver.BookTicker) where
  attempt
    | none => .thrown
    | some event => if event.instId ∈ context.instIdsSet then .finished else .continued
  -- the wait stands in the inner loop: `break` passes it by, and a handled message does not
  sleepBehindTry := true
  sleepBehindLoop := false

/-- `subscribe_process_zmq_best_ticker`. -/
def subscribeProcessZmqBestTicker (context : Receiver.GlobalContext)
    (received : List (Option Receiver.BookTicker)) : List Action :=
  (zmqBestTickerLoop context).trace received

/-- **The ticker subscriber backs off after failures only** exactly while nothing throws, and every
message but the last is for an instrument of another node. -/
theorem subscribeProcessZmqBestTicker_backsOff_iff (context : Receiver.GlobalContext)
    (received : List (Option Receiver.BookTicker)) :
    BacksOff (subscribeProcessZmqBestTicker context received) ↔
      none ∉ received ∧
        ∀ event, some event ∈ received.dropLast → event.instId ∉ context.instIdsSet := by
  have hthrown : ∀ r, (zmqBestTickerLoop context).attempt r ≠ .thrown ↔ r ≠ none := by
    intro r
    cases r with
    | none => simp [zmqBestTickerLoop]
    | some event =>
      simp only [zmqBestTickerLoop]
      split_ifs <;> simp
  have hfinished : ∀ r, (zmqBestTickerLoop context).attempt r ≠ .finished ↔
      ∀ event, r = some event → event.instId ∉ context.instIdsSet := by
    intro r
    cases r with
    | none => simp [zmqBestTickerLoop]
    | some event =>
      simp only [zmqBestTickerLoop, Option.some.injEq, forall_eq']
      split_ifs with hmem <;> simp [hmem]
  rw [subscribeProcessZmqBestTicker, backsOff_iff_of_behindTry rfl rfl]
  simp only [hthrown, hfinished]
  -- both sides speak of the same rounds, as tickers and as elements of the list
  constructor
  · rintro ⟨hnone, hlast⟩
    exact ⟨fun hmem => hnone none hmem rfl, fun event hmem => hlast _ hmem event rfl⟩
  · rintro ⟨hnone, hlast⟩
    refine ⟨fun r hmem hr => hnone (hr ▸ hmem), ?_⟩
    rintro r hmem event rfl
    exact hlast event hmem

/-- A ticker of the follower's instrument of the first of two assets. -/
def followerTicker : Receiver.BookTicker where
  instId := "BTCUSDC"
  bidPrice := 50
  bidSize := 1
  askPrice := 51
  askSize := 2
  updateId := 7
  eventTime := 100

/-- Between two tickers of the node it waits, and after an exception it does not. -/
theorem subscribeProcessZmqBestTicker_misplaced :
    ¬ BacksOff (subscribeProcessZmqBestTicker (.init Receiver.sampleReceiverConfig)
        [some followerTicker, some followerTicker]) ∧
      ¬ BacksOff (subscribeProcessZmqBestTicker (.init Receiver.sampleReceiverConfig) [none]) := by
  constructor
  · intro h
    have htrace : subscribeProcessZmqBestTicker (.init Receiver.sampleReceiverConfig)
        [some followerTicker, some followerTicker] =
          [.connect, .message, .sleep, .message, .sleep] := by decide
    rw [htrace] at h
    exact h.never [.sleep] [.sleep] ⟨[.connect], rfl⟩ (by decide) (by decide)
  · intro h
    have hsleeps := h.once [.connect] ⟨[.connect], rfl⟩ (by decide)
    exact absurd hsleeps (by decide)

end UmTaker.Zmq
