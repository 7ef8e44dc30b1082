import UmTaker.Common.Tools
import UmTaker.Concurrency.Program
import UmTaker.Evaluator.OrderContainer
import UmTaker.Evaluator.TickerContainer

/-!
# The sampling of the horizons

`polling_calculate_order_pnl` goes in rounds: it copies all statistics, samples in each copy the
horizons that its order has come of age for, writes the changed ones back into memory and then into
the database, and at last evicts old orders. Other threads store fills, tickers and the time
meanwhile.

## Main definitions

* `calculateOrderPnl`: the horizons of one order
* `StatOp`, `statExec`: the atomic operations of the evaluator
* `updateWithFullInfo`, `sampleOrder`, `saveOrders`, `removeExpiredStatOrder`,
  `pollingCalculateOrderPnl`: the programs of a round
* `evaluator`: a polling thread and any number of threads that receive fills

## Main results

* `calculateOrderPnl_spec`: what sampling leaves of a record
-/

namespace UmTaker.Evaluator

open Concurrency

/-! ## One order -/

/-- The side of a buy order, as the exchange spells it. -/
def orderSideBuy : String := "BUY"

/-- Sample a horizon that the order has come of age for and that was not sampled yet. -/
def sampleHorizon (timeRange : ℤ) (currentPrice pnlPercentage : ℚ) (info : StatOrderFullInfo)
    (h : Horizon) : StatOrderFullInfo :=
  if (h.seconds : ℤ) ≤ timeRange ∧ info.priceAfter h = 0 then
    { info with
      priceAfter := Function.update info.priceAfter h currentPrice
      pnlPercentage := Function.update info.pnlPercentage h pnlPercentage
      propertyChanged := true }
  else info

/-- The part of a round between the ticker of an order and its write-back. The average price is not
zero, and the profit is one that can be cut: the code divides floating-point numbers and cuts
through an integer. -/
def calculateOrderPnl (now : ℕ) (ticker : TickerLite) (info : StatOrderFullInfo) :
    StatOrderFullInfo :=
  let isBuy := info.orderSide == orderSideBuy
  let currentPrice := if isBuy then ticker.ask else ticker.bid
  let pnlMultiple : ℚ := if isBuy then 1 else -1
  let pnlPercentage := (currentPrice - info.averagePrice) / info.averagePrice * pnlMultiple
  let pnlPercentage := decimalProcess (pnlPercentage - info.commissionRate) 5
  let timeRange : ℤ := (now : ℤ) - info.systemTimestamp
  Horizon.all.foldl (sampleHorizon timeRange currentPrice pnlPercentage) info

/-- The prices of `r` that were sampled are prices of `r'`. -/
def Extends (r r' : StatOrderFullInfo) : Prop :=
  ∀ h, r.priceAfter h ≠ 0 → r'.priceAfter h = r.priceAfter h

theorem Extends.refl (r : StatOrderFullInfo) : Extends r r := fun _ _ => rfl

theorem Extends.trans {r₁ r₂ r₃ : StatOrderFullInfo} (h₁ : Extends r₁ r₂) (h₂ : Extends r₂ r₃) :
    Extends r₁ r₃ := by
  intro h hr
  have h12 := h₁ h hr
  rw [← h12] at hr ⊢
  exact h₂ h hr

/-- The same order with the same fill, and no price sampled before is lost. -/
structure SampledFrom (info info' : StatOrderFullInfo) : Prop where
  clientOrderId : info'.clientOrderId = info.clientOrderId
  fill : info'.fill = info.fill
  ext : Extends info info'

theorem SampledFrom.refl (info : StatOrderFullInfo) : SampledFrom info info where
  clientOrderId := rfl
  fill := rfl
  ext := .refl info

theorem SampledFrom.trans {info₁ info₂ info₃ : StatOrderFullInfo} (h₁ : SampledFrom info₁ info₂)
    (h₂ : SampledFrom info₂ info₃) : SampledFrom info₁ info₃ where
  clientOrderId := h₂.clientOrderId.trans h₁.clientOrderId
  fill := h₂.fill.trans h₁.fill
  ext := h₁.ext.trans h₂.ext

theorem sampleHorizon_spec (timeRange : ℤ) (currentPrice pnlPercentage : ℚ)
    (info : StatOrderFullInfo) (h : Horizon) :
    SampledFrom info (sampleHorizon timeRange currentPrice pnlPercentage info h) := by
  unfold sampleHorizon
  split_ifs with hsample
  · refine ⟨rfl, rfl, fun other hother => ?_⟩
    -- the horizon sampled had no price
    have hne : other ≠ h := by
      rintro rfl
      exact hother hsample.2
    simp [hne]
  · exact .refl info

/-- **Sampling keeps a record** up to the horizons it had no price for. -/
theorem calculateOrderPnl_spec (now : ℕ) (ticker : TickerLite) (info : StatOrderFullInfo) :
    SampledFrom info (calculateOrderPnl now ticker info) := by
  suffices H : ∀ (hs : List Horizon) (timeRange : ℤ) (price pnl : ℚ) (start : StatOrderFullInfo),
      SampledFrom info start →
        SampledFrom info (hs.foldl (sampleHorizon timeRange price pnl) start) from
    H Horizon.all _ _ _ info (.refl info)
  intro hs timeRange price pnl
  induction hs with
  | nil => exact fun start h => h
  | cons h hs ih =>
    intro start hstart
    have hstep := sampleHorizon_spec timeRange price pnl start h
    exact ih _ (hstart.trans hstep)

/-! ## The operations -/

/-- What happens around the evaluator: time passes, a ticker arrives, the database goes down or
comes up. -/
inductive WorldEvent
  | tick (seconds : ℕ)
  | updateTicker (lite : TickerLite)
  | setDatabase (up : Bool)

/-- The statistics in memory, the tickers, the clock and the database. -/
structure EvaluatorState where
  statOrderMap : StatOrderMap
  tickerMap : TickerLiteComposite
  clock : ℕ
  databaseUp : Bool

/-- An atomic operation of the evaluator: a section behind a lock, a reading of the clock, or a
request to the database. -/
inductive StatOp
  | now
  | getAllStatOrders
  | getTicker (symbol : String)
  | updateWithLite (lite : StatOrderLite)
  | setFullInfo (info : StatOrderFullInfo)
  | warnNotUpdated (clientOrderId : String)
  | getConnection
  | saveOrderStat (info : StatOrderFullInfo)
  | findRemovable (now : ℕ)
  | eraseKeys (keys : List String)
  | world (event : WorldEvent)

abbrev StatAns : StatOp → Type
  | .now => ℕ
  | .getAllStatOrders => List StatOrderFullInfo
  | .getTicker _ => Option TickerLite
  | .updateWithLite _ => Bool
  | .setFullInfo _ => Unit
  | .warnNotUpdated _ => Unit
  | .getConnection => Bool
  | .saveOrderStat _ => Bool
  | .findRemovable _ => List String × ℕ
  | .eraseKeys _ => ℕ
  | .world _ => Unit

/-- An event carried out. -/
def WorldEvent.apply (s : EvaluatorState) : WorldEvent → EvaluatorState
  | .tick seconds => { s with clock := s.clock + seconds }
  | .updateTicker lite => { s with tickerMap := s.tickerMap.updateTicker lite }
  | .setDatabase up => { s with databaseUp := up }

/-- An operation carried out. -/
def statExec : (o : StatOp) → EvaluatorState → EvaluatorState × StatAns o
  | .now, s => (s, s.clock)
  | .getAllStatOrders, s => (s, s.statOrderMap.getAllStatOrders)
  -- the member that the copy leaves alone is not read
  | .getTicker symbol, s => (s, s.tickerMap.getTicker {} symbol)
  | .updateWithLite lite, s => ({ s with statOrderMap := s.statOrderMap.updateWithLite lite }, true)
  | .setFullInfo info, s => ({ s with statOrderMap := s.statOrderMap.setFullInfo info }, ())
  | .warnNotUpdated _, s => (s, ())
  | .getConnection, s => (s, s.databaseUp)
  | .saveOrderStat _, s => (s, s.databaseUp)
  | .findRemovable now, s => (s, s.statOrderMap.removableKeys now, s.statOrderMap.keys.length)
  | .eraseKeys keys, s =>
    let m := s.statOrderMap.eraseKeys keys
    ({ s with statOrderMap := m }, m.keys.length)
  | .world event, s => (event.apply s, ())

/-! ## The programs -/

abbrev StatProg := Prog StatOp StatAns

/-- `update_with_full_info`: the clock is read before the lock is taken. -/
def updateWithFullInfo (info : StatOrderFullInfo) : StatProg Bool := do
  let now : ℕ ← Prog.call StatOp.now
  if info.expired now then
    pure false
  else do
    Prog.call (StatOp.setFullInfo info)
    pure true

/-- Write a changed record back into memory. -/
def writeBack (info : StatOrderFullInfo) : StatProg Unit := do
  let updated ← updateWithFullInfo info
  if !updated then Prog.call (StatOp.warnNotUpdated info.clientOrderId) else pure ()

/-- One pass of the first loop of a round: sample an order and write it back if it changed. -/
def sampleOrder (now : ℕ) (info : StatOrderFullInfo) : StatProg StatOrderFullInfo := do
  let info := { info with propertyChanged := false }
  if now ≤ info.systemTimestamp then
    pure info
  else do
    let ticker : Option TickerLite ← Prog.call (StatOp.getTicker info.symbol)
    match ticker with
    | none => pure info
    | some ticker => do
      let info := calculateOrderPnl now ticker info
      if info.propertyChanged then do
        writeBack info
        pure info
      else
        pure info

/-- The second loop of a round: save the changed records, as far as the database takes them. -/
def saveOrders (now : ℕ) (infoList : List StatOrderFullInfo) : StatProg Unit := do
  let connected : Bool ← Prog.call StatOp.getConnection
  infoList.forM fun info =>
    if now ≤ info.systemTimestamp then
      pure ()
    else if !info.propertyChanged then
      pure ()
    else if connected then do
      -- a query that fails is only logged
      let _ ← Prog.call (StatOp.saveOrderStat info)
      pure ()
    else
      pure ()

/-- `remove_expired_stat_order`: the search under the shared lock and the erasure under the
exclusive one are two steps. -/
def removeExpiredStatOrder : StatProg (ℕ × ℕ) := do
  let now : ℕ ← Prog.call StatOp.now
  let found : List String × ℕ ← Prog.call (StatOp.findRemovable now)
  let remainSize : ℕ ← Prog.call (StatOp.eraseKeys found.1)
  pure (found.2, remainSize)

/-- One round of `polling_calculate_order_pnl`. -/
def pollingCalculateOrderPnl : StatProg Unit := do
  let now : ℕ ← Prog.call StatOp.now
  let infoList : List StatOrderFullInfo ← Prog.call StatOp.getAllStatOrders
  -- the copies are worked on while the map goes on changing
  let infoList : List StatOrderFullInfo ← infoList.foldlM (fun done info => do
    let info ← sampleOrder now info
    pure (done ++ [info])) []
  saveOrders now infoList
  let _ ← removeExpiredStatOrder
  pure ()

/-- The polling thread, any threads that receive fills, and what happens around them. -/
inductive StatUser (W : Type)
  | polling
  | zmq (w : W)
  | world
  deriving DecidableEq

/-- What a call is given: a received fill, or an event. -/
abbrev StatCall {W : Type} : StatUser W → Type
  | .polling => Unit
  | .zmq _ => StatOrderLite
  | .world => WorldEvent

/-- The evaluator. -/
def evaluator (W : Type) :
    System (StatUser W) EvaluatorState (fun _ => Unit) StatCall StatOp StatAns where
  exec _ o s := some (statExec o s)
  body
    | .polling, _, _ => pollingCalculateOrderPnl
    | .zmq _, _, lite => do
      let _ ← Prog.call (StatOp.updateWithLite lite)
      pure ()
    | .world, _, event => Prog.call (StatOp.world event)

/-- The evaluator after it loaded its rows. -/
def evaluatorStart (rows : List (StatOrderFullInfo × ℕ)) (now : ℕ) : EvaluatorState where
  statOrderMap := .loadStatOrders rows
  tickerMap := .empty
  clock := now
  databaseUp := true

end UmTaker.Evaluator
