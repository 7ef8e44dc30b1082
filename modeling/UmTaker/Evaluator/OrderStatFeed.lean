import UmTaker.Actuary.OrderEvents
import UmTaker.Concurrency.Program
import UmTaker.Evaluator.OrderContainer
import UmTaker.General.LogReports

/-!
# The order statistics on their way to the evaluator

In the actuary one thread saves order events and enqueues a record of each, another selects the
recent rows once and enqueues a record of each, and a third takes records from the queue and sends
them. The evaluator receives what is not lost and hands the fills to its statistics. The queue keeps
the order of each thread that enqueues, not the order between them.

## Main definitions

* `OrderStats`: the table, the records on their way, and the fills handed over in the evaluator
* `FeedOp`, `feedExec`: the atomic operations
* `processOrderTradeUpdate`, `loadRecentOrdersToZmq`, `statZmqServerListen`,
  `subscribeProcessOrderStatZmq`: the programs of the threads
* `orderStatFeed`: the threads, and what happens around them
-/

namespace UmTaker.Evaluator

open Actuary Concurrency LogReports

/-! ## The state -/

/-- The threads that enqueue records. -/
inductive Producer
  | processBalancePosition
  | loadRecentOrders
  deriving DecidableEq

/-- A record on its way: what it is a report of, and its value. -/
structure Posted (α : Type) where
  report : Report String
  value : α

/-- The saves into the table, the records on their way, the fills that the evaluator handed to
`update_with_lite`, and the world around.

Of the saves a number were announced: their thread has tried to enqueue a record. The last select
saw a number of them. The live reports that were lost are noted, and the orders of which the record
of a row was taken from the queue behind a later save. -/
structure OrderStats where
  saves : List OrderRow := []
  announced : ℕ := 0
  selected : ℕ := 0
  queue : Producer → List (Posted Actuary.StatOrderLite) := fun _ => []
  sending : Option (Posted Actuary.StatOrderLite) := none
  inFlight : List (Posted StatOrderMessage) := []
  parsing : Option (Posted StatOrderMessage) := none
  received : List (Posted StatOrderLite) := []
  lost : List (Report String) := []
  overtaken : List String := []
  commissionMap : StringMap CommissionRate := .empty
  nowMillis : ℕ := 0
  databaseUp : Bool := true
  queriesFail : Bool := false
  queueFull : Bool := false
  sendsFail : Bool := false

/-- What happens around the threads: time passes, a commission rate is loaded, the database, the
queue or the socket fails or recovers, and a message is dropped. -/
inductive FeedEvent
  | tick (millis : ℕ)
  | updateCommissionRate (rate : CommissionRate)
  | setDatabase (up queriesFail : Bool)
  | setQueueFull (full : Bool)
  | setSendsFail (fail : Bool)
  | dropMessage (i : ℕ)

namespace OrderStats

/-- A live record is lost. -/
def lose (r : Report String) (s : OrderStats) : OrderStats :=
  { s with lost := if r.live then r :: s.lost else s.lost }

/-- The thread of the order events enqueues a record of the last save. -/
def announce (lite : Actuary.StatOrderLite) (s : OrderStats) : OrderStats × Bool :=
  let r : Report String := ⟨lite.clientOrderId, s.saves.length, true⟩
  let s := { s with announced := s.saves.length }
  if s.queueFull then (s.lose r, false)
  else
    ({ s with
      queue := Function.update s.queue .processBalancePosition
        (s.queue .processBalancePosition ++ [⟨r, lite⟩]) }, true)

/-- The thread of the rows enqueues a record of a row it selected. -/
def enqueueRow (lite : Actuary.StatOrderLite) (s : OrderStats) : OrderStats × Bool :=
  if s.queueFull then (s, false)
  else
    ({ s with
      queue := Function.update s.queue .loadRecentOrders
        (s.queue .loadRecentOrders ++ [⟨⟨lite.clientOrderId, s.selected, false⟩, lite⟩]) }, true)

/-- Some save after a report is one of its order. -/
def Outdated (s : OrderStats) (r : Report String) : Prop :=
  ∃ save ∈ s.saves.drop r.stamp, save.clientOrderId = r.key

instance (s : OrderStats) (r : Report String) : Decidable (s.Outdated r) :=
  inferInstanceAs (Decidable (∃ _ ∈ _, _))

/-- A record is taken from what one thread enqueued. -/
def dequeue (producer : Producer) (s : OrderStats) : OrderStats × Option Actuary.StatOrderLite :=
  match s.queue producer with
  | [] => (s, none)
  | posted :: rest =>
    ({ s with
      queue := Function.update s.queue producer rest
      sending := some posted
      overtaken :=
        if posted.report.live = false ∧ s.Outdated posted.report then
          posted.report.key :: s.overtaken
        else s.overtaken }, some posted.value)

/-- The record taken is sent, or lost. -/
def send (message : StatOrderMessage) (s : OrderStats) : OrderStats × Bool :=
  match s.sending with
  | none => (s, false)
  | some posted =>
    let s := { s with sending := none }
    if s.sendsFail then (s.lose posted.report, false)
    else ({ s with inFlight := s.inFlight ++ [⟨posted.report, message⟩] }, true)

/-- The next message arrives. -/
def receive (s : OrderStats) : OrderStats × Option StatOrderMessage :=
  match s.inFlight with
  | [] => (s, none)
  | posted :: rest => ({ s with inFlight := rest, parsing := some posted }, some posted.value)

/-- The fill of the message that arrived is handed over. -/
def handOver (lite : StatOrderLite) (s : OrderStats) : OrderStats :=
  match s.parsing with
  | none => s
  | some posted =>
    { s with
      parsing := none
      received := s.received ++ [⟨posted.report, lite⟩] }

end OrderStats

/-- An event carried out. -/
def FeedEvent.apply (s : OrderStats) : FeedEvent → OrderStats
  | .tick millis => { s with nowMillis := s.nowMillis + millis }
  | .updateCommissionRate rate =>
    { s with commissionMap := Actuary.updateCommissionRate rate s.commissionMap }
  | .setDatabase up queriesFail => { s with databaseUp := up, queriesFail := queriesFail }
  | .setQueueFull full => { s with queueFull := full }
  | .setSendsFail fail => { s with sendsFail := fail }
  | .dropMessage i =>
    match s.inFlight[i]? with
    | none => s
    | some posted => { s.lose posted.report with inFlight := s.inFlight.eraseIdx i }

/-! ## The threads -/

/-- An atomic operation: a section behind a lock, a call of the queue, the client library or the
socket, or a reading of the clock. -/
inductive FeedOp
  | getCommissionRate (symbol : String)
  | currentEpoch
  | currentMsEpoch
  | getConnection
  | saveOrder (row : OrderRow)
  | announce (lite : Actuary.StatOrderLite)
  | selectOrders (since : ℕ) (accountFlag : String)
  | enqueueRow (lite : Actuary.StatOrderLite)
  | dequeue (producer : Producer)
  | send (message : StatOrderMessage)
  | receive
  | updateWithLite (lite : StatOrderLite)
  | world (event : FeedEvent)

abbrev FeedAns : FeedOp → Type
  | .getCommissionRate _ => Option CommissionRate
  | .currentEpoch => ℕ
  | .currentMsEpoch => ℕ
  | .getConnection => Bool
  | .saveOrder _ => Bool
  | .announce _ => Bool
  | .selectOrders _ _ => List OrderRow
  | .enqueueRow _ => Bool
  | .dequeue _ => Option Actuary.StatOrderLite
  | .send _ => Bool
  | .receive => Option StatOrderMessage
  | .updateWithLite _ => Unit
  | .world _ => Unit

/-- An operation carried out. -/
def feedExec : (o : FeedOp) → OrderStats → OrderStats × FeedAns o
  | .getCommissionRate symbol, s => (s, s.commissionMap symbol)
  | .currentEpoch, s => (s, s.nowMillis / 1000)
  | .currentMsEpoch, s => (s, s.nowMillis)
  | .getConnection, s => (s, s.databaseUp)
  | .saveOrder row, s =>
    if s.queriesFail then (s, false) else ({ s with saves := s.saves ++ [row] }, true)
  | .announce lite, s => s.announce lite
  | .selectOrders since accountFlag, s =>
    if s.queriesFail then (s, [])
    else
      ({ s with selected := s.saves.length },
        Actuary.selectOrders since accountFlag (orderTable s.saves))
  | .enqueueRow lite, s => s.enqueueRow lite
  | .dequeue producer, s => s.dequeue producer
  | .send message, s => s.send message
  | .receive, s => s.receive
  | .updateWithLite lite, s => (s.handOver lite, ())
  | .world event, s => (event.apply s, ())

abbrev FeedProg := Prog FeedOp FeedAns

/-- `process_balance_position`, for an event about an order. -/
def processOrderTradeUpdate (config : OrderStatConfig) (texts : TextLibrary)
    (event : FuturesOrderTradeUpdateEvent) : FeedProg Unit :=
  if recordsOrder texts config event then do
    let commission ← Prog.call (FeedOp.getCommissionRate event.symbol)
    let commissionRate := (commission.map (·.takerRate)).getD 0
    let now ← Prog.call FeedOp.currentEpoch
    let connected ← Prog.call FeedOp.getConnection
    if connected then do
      let saved ← Prog.call (FeedOp.saveOrder (orderRow config event commissionRate now))
      if saved then do
        let now ← Prog.call FeedOp.currentEpoch
        let _ ← Prog.call (FeedOp.announce (orderLite texts config event commissionRate now))
        pure ()
      else
        pure ()
    else
      pure ()
  else
    pure ()

/-- `load_recent_orders_to_zmq`, if it is started. -/
def loadRecentOrdersToZmq (config : OrderStatConfig) (texts : TextLibrary) : FeedProg Unit :=
  if config.dtGroupMainNode && config.enableLoadOrderToZmq then do
    let now ← Prog.call FeedOp.currentEpoch
    let connected ← Prog.call FeedOp.getConnection
    if connected then do
      let rows ← Prog.call (FeedOp.selectOrders (u64 (now - 3600)) config.accountFlag)
      rows.forM fun row => do
        let _ ← Prog.call (FeedOp.enqueueRow (rowLite texts row))
        pure ()
    else
      pure ()
  else
    pure ()

/-- `stat_zmq_server_listen`, for one record; what was enqueued by a thread comes in its order. -/
def statZmqServerListen (producer : Producer) : FeedProg Unit := do
  let orderLite ← Prog.call (FeedOp.dequeue producer)
  match orderLite with
  | none => pure ()
  | some orderLite => do
    let now ← Prog.call FeedOp.currentMsEpoch
    -- a send that fails leaves the loop, and the record with it
    let _ ← Prog.call (FeedOp.send (orderLite.message now))
    pure ()

/-- The numbers of a message are read. -/
def StatOrderLite.ofMessage (texts : TextLibrary) (message : StatOrderMessage) : StatOrderLite where
  accountFlag := message.accountFlag
  symbol := message.symbol
  orderSide := message.orderSide
  clientOrderId := message.clientOrderId
  averagePrice := texts.strToDouble message.averagePrice
  filledSize := texts.strToDouble message.filledSize
  commissionRate := texts.strToDouble message.commissionRate
  systemTimestamp := message.systemTimestamp

/-- `subscribe_process_order_stat_zmq`, for one message. -/
def subscribeProcessOrderStatZmq (texts : TextLibrary) : FeedProg Unit := do
  let message ← Prog.call FeedOp.receive
  match message with
  | none => pure ()
  | some message => Prog.call (FeedOp.updateWithLite (.ofMessage texts message))

/-- The threads, and what happens around them. -/
inductive FeedThread
  | processBalancePosition
  | loadRecentOrders
  | statZmqServer
  | subscriber
  | world
  deriving DecidableEq

/-- What a call is given. -/
abbrev FeedCall : FeedThread → Type
  | .processBalancePosition => FuturesOrderTradeUpdateEvent
  | .loadRecentOrders => Unit
  | .statZmqServer => Producer
  | .subscriber => Unit
  | .world => FeedEvent

/-- The actuary and the evaluator. -/
def orderStatFeed (config : OrderStatConfig) (texts : TextLibrary) :
    System FeedThread OrderStats (fun _ => Unit) FeedCall FeedOp FeedAns where
  exec _ o s := some (feedExec o s)
  body
    | .processBalancePosition, _, event => processOrderTradeUpdate config texts event
    | .loadRecentOrders, _, _ => loadRecentOrdersToZmq config texts
    | .statZmqServer, _, producer => statZmqServerListen producer
    | .subscriber, _, _ => subscribeProcessOrderStatZmq texts
    | .world, _, event => Prog.call (FeedOp.world event)

end UmTaker.Evaluator
