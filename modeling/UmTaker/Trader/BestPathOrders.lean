import UmTaker.Concurrency.Component
import UmTaker.Trader.OrderConnections
import UmTaker.Trader.OrderInterval
import UmTaker.Trader.OrderLimiterSafety
import UmTaker.Trader.ServiceManager
import UmTaker.Trader.TradeProcessor
import Mathlib.Data.Fintype.Card

/-!
# Orders over the best path

The threads of the trader with `trading_use_best_path`: each base asset has a scan that takes orders
from its slot and places them; others report fills, keep the best paths up to date, clean the
connections up, and refresh the limiters. They meet at the limiter of the account and the IPs, at
the connections, and at the intervals of the symbols, each behind locks of its own.

An order is placed in several steps. Between them the connection it goes to may be stopped, and
between the grant of its semaphores and the order itself the limiter of the account may be reset.

## Main definitions

* `Trading`, `TraderOp`, `traderExec`: the state the threads share, and its atomic operations
* `scanAndSendOrder`, `processOrderMessage`, `takeBestPath`: the programs
* `bestPathTrading`: the system of all threads
* `SendLedger`: what became of the semaphores granted, and the orders sent
* `OrderCount.Accounts`: the account of one window

## Main results

* `orders_accounted`: the semaphores granted are those of the orders sent, of the orders dropped at
  a stopped connection, and of the scans between grant and order
* `orders_through_connections`: the connections stay tended, and every order goes through one of the
  local IP whose limiter granted it
* `orders_in_version_order`: a scan sends orders of increasing versions, none of them expired
-/

namespace UmTaker.Trader

open Concurrency Concurrency.System.Move Shm

/-! ## The threads -/

/-- A scan for each base asset, and any other threads. -/
inductive TraderThread (A U : Type)
  | scanner (a : A)
  | worker (u : U)
  deriving DecidableEq

/-- A best path as the service reports it. -/
structure BestPathInfo where
  symbol : String
  action : String
  localIp : String
  remoteIp : String
  bestCost : ℕ
  updateTimeMillis : ℕ

/-- An order event as the library of the exchange reads it: whether it is no error, and whether its
order is filled or partially filled. -/
structure OrderCallback where
  statusOk : Bool
  filled : Bool
  symbol : String

/-- What the threads are configured with. -/
structure TradingSettings (A : Type) where
  config : TraderConfig
  openPlaceOrder : Bool
  orderIpLimitPer10Seconds : ℤ
  orderIpLimitPerMinute : ℤ
  followerInstIds : List String
  symbol : A → String

/-- What the threads share. The counters of the intervals are kept with the fills reported. -/
structure Trading (T : Type) where
  boss : Boss T
  services : ConnectionState
  intervals : IntervalRun

/-! ## The operations -/

/-- An atomic operation. -/
inductive TraderOp
  | boss (o : BossOp)
  | service (o : ServiceOp)
  | interval (e : IntervalEvent)
  | hasMoreSemaphore (symbol : String)
  | getCurrentMsEpoch
  | findIpPair (symbol : String)
  | findService (ipPair : String)
  | getLocalIp (service : ServiceHandle)
  | isStopped (service : ServiceHandle)
  | sendOrder (service : ServiceHandle) (order : BuiltOrder)

abbrev TraderAns : TraderOp → Type
  | .boss o => BossAns o
  | .service o => ServiceAns o
  | .interval _ => Unit
  | .hasMoreSemaphore _ => Bool
  | .getCurrentMsEpoch => ℕ
  | .findIpPair _ => String
  | .findService _ => Option ServiceHandle
  | .getLocalIp _ => String
  | .isStopped _ => Bool
  | .sendOrder .. => Unit

variable {A U T : Type} [DecidableEq A] [DecidableEq U] [DecidableEq T]

/-- An operation carried out. What the exchange answers to an order is only logged. -/
def traderExec (t : T) : (o : TraderOp) → Trading T → Option (Trading T × TraderAns o)
  | .boss o, s => (bossExec t o s.boss).map fun r => ({ s with boss := r.1 }, r.2)
  | .service o, s => (connectionExec o s.services).map fun r => ({ s with services := r.1 }, r.2)
  | .interval e, s => some ({ s with intervals := s.intervals.step e }, ())
  | .hasMoreSemaphore symbol, s => some (s, s.intervals.boss.hasMoreSemaphore symbol)
  | .getCurrentMsEpoch, s => some (s, s.services.clock)
  | .findIpPair symbol, s => some (s, s.services.connections.findIpPair symbol)
  | .findService ipPair, s => some (s, s.services.connections.findService ipPair)
  | .getLocalIp service, s => some (s, s.services.connections.getLocalIp service)
  | .isStopped service, s => some (s, s.services.connections.isStopped service)
  | .sendOrder _ _, s => some (s, ())

abbrev TraderProg := Prog TraderOp TraderAns

/-! ## The programs -/

/-- A program of the limiter boss. -/
def atBoss {α : Type} (p : BossProg α) : TraderProg α := p.embed TraderOp.boss fun _ a => a

theorem atBoss_call (o : BossOp) :
    atBoss (Prog.call o) = (Prog.call (TraderOp.boss o) : TraderProg (BossAns o)) := rfl

theorem atBoss_bind {α β : Type} (p : BossProg α) (f : α → BossProg β) :
    atBoss (p >>= f) = atBoss p >>= fun a => atBoss (f a) := Prog.embed_bind _ _ p f

theorem atBoss_ite {α : Type} (c : Prop) [Decidable c] (p q : BossProg α) :
    atBoss (if c then p else q) = if c then atBoss p else atBoss q := Prog.embed_ite _ _ c p q

/-- A program of the order services. -/
def atServices {α : Type} (p : ServiceProg α) : TraderProg α :=
  p.embed TraderOp.service fun _ a => a

/-- `find_best_service`: the lock is given up between its two looks. -/
def findBestService (symbol : String) : TraderProg (Option ServiceHandle) := do
  let ipPair ← Prog.call (TraderOp.findIpPair symbol)
  if ipPair.utf8ByteSize = 0 then
    pure none
  else
    Prog.call (TraderOp.findService ipPair)

/-- `WsClientWrapper::place_order`: the flag first, then the order. -/
def placeOrder (service : ServiceHandle) (order : BuiltOrder) : TraderProg Unit := do
  let stopped ← Prog.call (TraderOp.isStopped service)
  if stopped then
    pure ()
  else
    Prog.call (TraderOp.sendOrder service order)

/-- An order that passed the settings and its symbol's interval, over the best path. -/
def tradeOverBestPath (symbol : String) (order : BuiltOrder) : TraderProg Unit := do
  let bestService ← findBestService symbol
  match bestService with
  | none => pure ()
  | some service => do
    let localIp ← Prog.call (TraderOp.getLocalIp service)
    let hasSemaphore ← atBoss (getOrderSemaphore localIp 1)
    if hasSemaphore.1 && hasSemaphore.2 then
      placeOrder service order
    else
      pure ()

/-- A pass of `scan_and_send_order`, on the record it is returned and at the clock it reads then. -/
def scanAndSendOrder (settings : TradingSettings A) (a : A) (l : ScanState) (shmOrder : OrderShm)
    (now : ℕ) : TraderProg ScanState := do
  let symbol := settings.symbol a
  let l' := takeOrder settings.config symbol l shmOrder now
  if shmOrder.versionNumber ≤ l.orderVersion ∨ orderExpired settings.config shmOrder now = true then
    pure l'
  else do
    let hasIntervalSemaphore ← Prog.call (TraderOp.hasMoreSemaphore symbol)
    if settings.openPlaceOrder && hasIntervalSemaphore then do
      tradeOverBestPath symbol ⟨shmOrder, now, buildOrder symbol shmOrder now⟩
      pure l'
    else
      pure l'

/-- A message of `process_order_message`, or none where it could not be read. -/
def processOrderMessage (event : Option OrderCallback) (now : ℕ) : TraderProg Unit :=
  match event with
  | none => pure ()
  | some event =>
    if event.statusOk && event.filled then
      Prog.call (TraderOp.interval ⟨now, .burnSemaphore event.symbol⟩)
    else
      pure ()

/-- `is_valid_best_path` at a clock reading. -/
def isValidBestPath (settings : TradingSettings A) (info : BestPathInfo) (now : ℕ) : Bool :=
  decide (info.symbol ∈ settings.followerInstIds) && info.action == "NEW" &&
    decide (info.localIp.utf8ByteSize ≠ 0) && decide (info.remoteIp.utf8ByteSize ≠ 0) &&
    decide (0 < info.bestCost) && decide (now ≤ u64 (info.updateTimeMillis + 3600 * 1000))

/-- What the polling and the subscription do with a best path. A limiter created for its IP reads
the clock for both windows. -/
def takeBestPath (settings : TradingSettings A) (maxCapacity : ℤ) (info : BestPathInfo)
    (secondNow minuteNow : ℕ) : TraderProg Unit := do
  let now : ℕ ← Prog.call TraderOp.getCurrentMsEpoch
  if isValidBestPath settings info now then do
    let newService ←
      Prog.call (TraderOp.service (.updateBestService info.symbol info.localIp info.remoteIp))
    if newService then do
      let _ ← atBoss (createIpLimiter maxCapacity info.localIp
        ⟨settings.orderIpLimitPer10Seconds, 10, settings.orderIpLimitPerMinute, 1, secondNow,
          minuteNow⟩)
      pure ()
    else
      pure ()
  else
    pure ()

/-! ## The system -/

/-- What the other threads do: a round of the polling or a message of the subscription, a message of
the exchange, a round of the clean-up, a pass of a refresh, and the clock. -/
inductive WorkerCall
  | takeBestPaths (infos : List (BestPathInfo × ℕ × ℕ))
  | processOrderMessage (event : Option OrderCallback) (now : ℕ)
  | serviceZookeeperRound
  | refreshAllLimiters (now : ℕ)
  | refreshCounter (counterId : String) (now : ℕ)
  | tick (millis : ℕ)

/-- What a thread keeps: a scan its state. -/
abbrev TraderLocal {A U : Type} : TraderThread A U → Type
  | .scanner _ => ScanState
  | .worker _ => Unit

/-- What a call is given: a pass of a scan its record and its clock reading. -/
abbrev TraderCall {A U : Type} : TraderThread A U → Type
  | .scanner _ => OrderShm × ℕ
  | .worker _ => WorkerCall

/-- What a worker runs. -/
def workerBody (settings : TradingSettings A) (maxCapacity : ℤ) : WorkerCall → TraderProg Unit
  | .takeBestPaths infos =>
    infos.forM fun info => takeBestPath settings maxCapacity info.1 info.2.1 info.2.2
  | .processOrderMessage event now => processOrderMessage event now
  | .serviceZookeeperRound => atServices serviceZookeeperRound
  | .refreshAllLimiters now => atBoss (refreshAllLimiters now)
  | .refreshCounter counterId now => Prog.call (TraderOp.interval ⟨now, .refreshCounter counterId⟩)
  | .tick millis => Prog.call (TraderOp.service (.tick millis))

/-- The trader over the best path. -/
def bestPathTrading (U : Type) [DecidableEq U] (settings : TradingSettings A) (maxCapacity : ℤ) :
    System (TraderThread A U) (Trading (TraderThread A U)) TraderLocal TraderCall TraderOp
      TraderAns where
  exec := traderExec
  body
    | .scanner a, l, x => scanAndSendOrder settings a l x.1 x.2
    | .worker _, _, call => workerBody settings maxCapacity call

/-- The threads before their first calls. -/
def noPasses : (t : TraderThread A U) → TraderLocal t
  | .scanner _ => {}
  | .worker _ => ()

/-! ## The ledger -/

/-- An order that was sent: the connection it went through, the IP whose limiter was asked for it
last, and the order. -/
structure SentOrder where
  service : ServiceHandle
  localIp : String
  order : BuiltOrder

/-- The account of one window since its last reset: the orders sent, the grants dropped at a stopped
connection, and the grants from before the reset that neither had become yet. -/
structure OrderCount where
  sent : ℕ
  dropped : ℕ
  carried : ℕ

namespace OrderCount

/-- The account of a window that was reset with so many grants in use. -/
def restart (ended : Bool) (inUse : ℕ) (count : OrderCount) : OrderCount :=
  if ended then ⟨0, 0, inUse⟩ else count

def send (count : OrderCount) : OrderCount := { count with sent := count.sent + 1 }

def drop (count : OrderCount) : OrderCount := { count with dropped := count.dropped + 1 }

/-- What was granted, now and before the reset, was sent, dropped, or is in use. -/
def Accounts (count : OrderCount) (granted inUse : ℕ) : Prop :=
  count.sent + count.dropped + inUse = granted + count.carried

variable {count : OrderCount} {granted inUse : ℕ}

theorem Accounts.send (h : count.Accounts granted (inUse + 1)) :
    count.send.Accounts granted inUse := by
  simp only [Accounts, OrderCount.send] at *
  omega

theorem Accounts.drop (h : count.Accounts granted (inUse + 1)) :
    count.drop.Accounts granted inUse := by
  simp only [Accounts, OrderCount.drop] at *
  omega

/-- One more grant is in use. -/
theorem Accounts.grant (h : count.Accounts granted inUse) :
    count.Accounts (granted + 1) (inUse + 1) := by
  simp only [Accounts] at *
  omega

/-- A reset, of a window that ended or not. -/
theorem Accounts.restart (h : count.Accounts granted inUse) (ended : Bool) :
    (count.restart ended inUse).Accounts (if ended then 0 else granted) inUse := by
  unfold OrderCount.restart
  split_ifs
  · simp [Accounts]
  · exact h

end OrderCount

/-- What became of the semaphores granted: the scans that hold a grant they did not use yet, the IP
each scan asked last, the orders it sent, and the accounts of both windows. -/
structure SendLedger (A : Type) where
  permits : Finset A
  asked : A → String
  sent : A → List SentOrder
  second : OrderCount
  minute : OrderCount

namespace SendLedger

/-- Nothing was granted or sent yet. -/
def empty : SendLedger A where
  permits := ∅
  asked _ := ""
  sent _ := []
  second := ⟨0, 0, 0⟩
  minute := ⟨0, 0, 0⟩

/-- Record an operation and its answer. -/
def record : TraderThread A U → (o : TraderOp) → Trading (TraderThread A U) → TraderAns o →
    SendLedger A → SendLedger A
  -- a grant is in use from the return of the request on
  | .scanner a, .boss (.returnResult hasAccountSemaphore hasIpSemaphore), _, _, g =>
    if hasAccountSemaphore && hasIpSemaphore then { g with permits := insert a g.permits } else g
  | .scanner a, .boss (.getIpSemaphore localIp _), _, _, g =>
    { g with asked := Function.update g.asked a localIp }
  | _, .boss (.resetAccount now), s, _, g =>
    { g with
      second := g.second.restart (s.boss.data.accountLimiter.second.cycleEnded now) g.permits.card
      minute := g.minute.restart (s.boss.data.accountLimiter.minute.cycleEnded now) g.permits.card }
  | .scanner a, .isStopped _, _, stopped, g =>
    if stopped then
      { g with permits := g.permits.erase a, second := g.second.drop, minute := g.minute.drop }
    else g
  | .scanner a, .sendOrder service order, _, _, g =>
    { g with
      permits := g.permits.erase a
      sent := Function.update g.sent a (g.sent a ++ [⟨service, g.asked a, order⟩])
      second := g.second.send
      minute := g.minute.send }
  | _, _, _, _, g => g

/-- What the ledger says of a scan is the same: whether it has a grant, the IP it asked last, and
its orders. -/
def Same (a : A) (g g' : SendLedger A) : Prop :=
  (a ∈ g'.permits ↔ a ∈ g.permits) ∧ g'.asked a = g.asked a ∧ g'.sent a = g.sent a

omit [DecidableEq A] in
theorem Same.refl (a : A) (g : SendLedger A) : Same a g g := ⟨Iff.rfl, rfl, rfl⟩

omit [DecidableEq A] in
theorem Same.trans {a : A} {g₁ g₂ g₃ : SendLedger A} (h₁ : Same a g₁ g₂) (h₂ : Same a g₂ g₃) :
    Same a g₁ g₃ :=
  ⟨h₂.1.trans h₁.1, h₂.2.1.trans h₁.2.1, h₂.2.2.trans h₁.2.2⟩

end SendLedger

/-- The trader with its ledger. -/
abbrev ledgerTrading (U : Type) [DecidableEq U] (settings : TradingSettings A) (maxCapacity : ℤ) :=
  (bestPathTrading U settings maxCapacity).withGhost SendLedger.record

/-! ## The invariant -/

/-- Both accounts agree with the grants of the limiter, and no more grants came over a reset than
there are scans. -/
structure SendInv [Fintype A] (d : BossData T) (g : SendLedger A) : Prop where
  second : g.second.Accounts d.secondGranted g.permits.card
  minute : g.minute.Accounts d.minuteGranted g.permits.card
  secondCarried : g.second.carried ≤ Fintype.card A
  minuteCarried : g.minute.carried ≤ Fintype.card A

/-- Every order went through a connection of the IP that was asked for it. -/
def SentThrough (c : OrderConnections) (g : SendLedger A) : Prop :=
  ∀ a, ∀ e ∈ g.sent a, ∃ w, c.wrappers[e.service]? = some w ∧ w.localIp = e.localIp

omit [DecidableEq A] in
theorem SentThrough.grows {c c' : OrderConnections} {g : SendLedger A} (h : SentThrough c g)
    (hg : c.Grows c') : SentThrough c' g := by
  intro a e he
  obtain ⟨w, hw, hlocal⟩ := h a e he
  obtain ⟨w', hw', hlocal', -⟩ := hg e.service w hw
  exact ⟨w', hw', hlocal'.trans hlocal⟩

/-- The discipline of the trader: that of the limiter boss, connections that are tended and grow, a
ledger that accounts for the grants, and a part of it for each scan. -/
def tradingInterference (A U : Type) [DecidableEq A] [DecidableEq U] [Fintype A]
    (args : LimiterArgs) :
    Interference (TraderThread A U) (Trading (TraderThread A U) × SendLedger A) where
  inv s := (bossInterference (TraderThread A U) args).inv s.1.boss ∧
    s.1.services.connections.Tended ∧ SendInv s.1.boss.data s.2 ∧
    SentThrough s.1.services.connections s.2
  rely t s s' := (bossInterference (TraderThread A U) args).rely t s.1.boss s'.1.boss ∧
    s.1.services.connections.Grows s'.1.services.connections ∧
    ∀ a, t = .scanner a → SendLedger.Same a s.2 s'.2
  refl t s := ⟨Interference.refl _ t s.1.boss, .refl _, fun a _ => .refl a s.2⟩
  trans t s₁ s₂ s₃ := by
    rintro ⟨hboss₁, hgrows₁, hown₁⟩ ⟨hboss₂, hgrows₂, hown₂⟩
    exact ⟨Interference.trans _ t _ _ _ hboss₁ hboss₂, hgrows₁.trans hgrows₂,
      fun a ht => (hown₁ a ht).trans (hown₂ a ht)⟩

section Specs

variable [Fintype A] {settings : TradingSettings A} {maxCapacity : ℤ} {args : LimiterArgs}
  {t : TraderThread A U} {a : A}

/-- The triples of the trader. -/
abbrev TradingTriple (settings : TradingSettings A) (maxCapacity : ℤ) (args : LimiterArgs)
    (t : TraderThread A U) {α : Type}
    (P : Trading (TraderThread A U) × SendLedger A → Prop) (p : TraderProg α)
    (Q : α → Trading (TraderThread A U) × SendLedger A → Prop) : Prop :=
  Triple (ledgerTrading U settings maxCapacity) System.Unrestricted (tradingInterference A U args) t
    P p Q

/-! ## The limiter boss as a component -/

/-- The limiter boss within the trader. -/
def bossComponent (U : Type) [DecidableEq U] (settings : TradingSettings A) (maxCapacity : ℤ) :
    Component (orderLimiterBoss (TraderThread A U) maxCapacity)
      (ledgerTrading U settings maxCapacity) where
  op := TraderOp.boss
  ans _ a := a
  state s := s.1.boss
  exec t o s s' a h := by
    obtain ⟨he, -⟩ := System.exec_withGhost h
    obtain ⟨⟨b, a'⟩, hexec, hpair⟩ := Option.map_eq_some_iff.mp he
    obtain ⟨hs', rfl⟩ := Prod.mk.inj hpair
    rw [← hs']
    exact hexec

theorem bossComponent_within :
    (bossComponent U settings maxCapacity).Within (bossInterference (TraderThread A U) args)
      (tradingInterference A U args) where
  inv _ h := h.1
  rely _ _ _ h := h.1

/-- The operations that the ledger takes note of: a request granted, a reset, and one to an IP. -/
def Noted : BossOp → Prop
  | .returnResult hasAccountSemaphore hasIpSemaphore =>
    (hasAccountSemaphore && hasIpSemaphore) = true
  | .resetAccount _ => True
  | .getIpSemaphore .. => True
  | _ => False

omit [DecidableEq U] [Fintype A] in
theorem record_boss {o : BossOp} (ho : ¬ Noted o) (s : Trading (TraderThread A U)) (b : BossAns o)
    (g : SendLedger A) : SendLedger.record t (.boss o) s b g = g := by
  cases o with
  | returnResult x y =>
    have hno : (x && y) = false := by simpa [Noted] using ho
    cases t <;> simp [SendLedger.record, hno]
  | resetAccount now => exact absurd trivial ho
  | getIpSemaphore localIp n => exact absurd trivial ho
  | _ => cases t <;> rfl

/-- An operation of the boss that is not noted leaves its grants alone; so does one to an IP. -/
theorem bossExec_granted {o : BossOp} {s s' : Boss T} {b : BossAns o} {t : T}
    (ho : ¬ Noted o ∨ ∃ localIp n, o = .getIpSemaphore localIp n)
    (h : bossExec t o s = some (s', b)) :
    s'.data.secondGranted = s.data.secondGranted ∧
      s'.data.minuteGranted = s.data.minuteGranted := by
  cases o with
  | lockShared =>
    obtain ⟨s₁, he, hpair⟩ := Option.map_eq_some_iff.mp h
    obtain ⟨-, rfl⟩ := RWLocked.lockShared_eq_some he
    obtain ⟨rfl, -⟩ := Prod.ext_iff.mp hpair
    exact ⟨rfl, rfl⟩
  | lockExclusive =>
    obtain ⟨s₁, he, hpair⟩ := Option.map_eq_some_iff.mp h
    obtain ⟨-, -, rfl⟩ := RWLocked.lockExclusive_eq_some he
    obtain ⟨rfl, -⟩ := Prod.ext_iff.mp hpair
    exact ⟨rfl, rfl⟩
  | getIpSemaphore localIp n =>
    obtain ⟨limiter, -, hpair⟩ := Option.map_eq_some_iff.mp h
    obtain ⟨rfl, -⟩ := Prod.ext_iff.mp hpair
    exact ⟨rfl, rfl⟩
  | resetIp localIp now =>
    obtain ⟨limiter, -, hpair⟩ := Option.map_eq_some_iff.mp h
    obtain ⟨rfl, -⟩ := Prod.ext_iff.mp hpair
    exact ⟨rfl, rfl⟩
  | returnResult x y =>
    have hno : (x && y) = false := by simpa [Noted] using ho
    obtain ⟨rfl, -⟩ := Prod.ext_iff.mp (Option.some.inj h)
    simp [BossData.returnResult, hno]
  | resetAccount now => simp [Noted] at ho
  | _ =>
    obtain ⟨rfl, -⟩ := Prod.ext_iff.mp (Option.some.inj h)
    exact ⟨rfl, rfl⟩

/-- What an operation of the boss owes, from what it does to the ledger. -/
theorem pays_boss {o : BossOp} {R : Trading (TraderThread A U) × SendLedger A → Prop}
    {R' : BossAns o → Trading (TraderThread A U) × SendLedger A → Prop}
    (h : ∀ s b a g, bossExec t o s.1.boss = some (b, a) →
      g = SendLedger.record t (.boss o) s.1 a s.2 → SendInv s.1.boss.data s.2 → R s →
      SendInv b.data g ∧ g.sent = s.2.sent ∧ (∀ x, .scanner x ≠ t → SendLedger.Same x s.2 g) ∧
        R' a ({ s.1 with boss := b }, g)) :
    (bossComponent U settings maxCapacity).Pays (bossInterference (TraderThread A U) args)
      (tradingInterference A U args) t o R R' := by
  rintro ⟨s, g⟩ s' a ⟨-, htended, hsend, hthrough⟩ hr he howes
  obtain ⟨he, hrecord⟩ := System.exec_withGhost he
  obtain ⟨⟨b, a'⟩, hexec, hpair⟩ := Option.map_eq_some_iff.mp he
  obtain ⟨hs', rfl⟩ := Prod.mk.inj hpair
  obtain rfl : s' = ({ s with boss := b }, SendLedger.record t (.boss o) s a' g) :=
    Prod.ext hs'.symm hrecord
  obtain ⟨hsend', hsent, hown, hr'⟩ := h (s, g) b a' _ hexec rfl hsend hr
  have hthrough' : SentThrough s.services.connections
      (SendLedger.record t (.boss o) s a' g) := by
    intro x e hmem
    rw [hsent] at hmem
    exact hthrough x e hmem
  refine ⟨⟨⟨howes.1, htended, hsend', hthrough'⟩, fun u hu => ⟨howes.2 u hu, .refl _, ?_⟩⟩, hr'⟩
  rintro x rfl
  exact hown x hu

/-- An operation that is not noted keeps what is known of the ledger. -/
theorem pays_boss_aside {o : BossOp} (ho : ¬ Noted o) (P : SendLedger A → Prop) :
    (bossComponent U settings maxCapacity).Pays (bossInterference (TraderThread A U) args)
      (tradingInterference A U args) t o (fun s => P s.2) fun _ s => P s.2 := by
  apply pays_boss
  rintro s b a g he hg hsend hr
  obtain ⟨hsecond, hminute⟩ := bossExec_granted (Or.inl ho) he
  rw [record_boss ho] at hg
  subst hg
  refine ⟨⟨?_, ?_, hsend.secondCarried, hsend.minuteCarried⟩, rfl, fun x _ => .refl x s.2, hr⟩
  · rw [hsecond]
    exact hsend.second
  · rw [hminute]
    exact hsend.minute

/-- A reset starts the accounts of the windows that ended, over the grants in use. -/
theorem pays_resetAccount (now : ℕ) (P : SendLedger A → Prop)
    (hP : ∀ g second minute, P g → P { g with second := second, minute := minute }) :
    (bossComponent U settings maxCapacity).Pays (bossInterference (TraderThread A U) args)
      (tradingInterference A U args) t (.resetAccount now) (fun s => P s.2) fun _ s => P s.2 := by
  apply pays_boss
  rintro s b a g he hg hsend hr
  obtain ⟨rfl, -⟩ := Prod.ext_iff.mp (Option.some.inj he)
  have hrecord : SendLedger.record t (.boss (.resetAccount now)) s.1 a s.2 =
      { s.2 with
        second :=
          s.2.second.restart (s.1.boss.data.accountLimiter.second.cycleEnded now) s.2.permits.card
        minute :=
          s.2.minute.restart (s.1.boss.data.accountLimiter.minute.cycleEnded now)
            s.2.permits.card } := by
    cases t <;> rfl
  rw [hrecord] at hg
  subst hg
  have hcard := s.2.permits.card_le_univ
  refine ⟨⟨?_, ?_, ?_, ?_⟩, rfl,
    fun x _ => .refl x s.2, hP _ _ _ hr⟩
  · exact hsend.second.restart _
  · exact hsend.minute.restart _
  · show (OrderCount.restart _ _ _).carried ≤ _
    unfold OrderCount.restart
    split_ifs
    · exact hcard
    · exact hsend.secondCarried
  · show (OrderCount.restart _ _ _).carried ≤ _
    unfold OrderCount.restart
    split_ifs
    · exact hcard
    · exact hsend.minuteCarried

/-- What is known of a scan between its operations: whether it has a grant, the IP it asked last,
and the orders it sent. -/
structure Owns (a : A) (permit : Bool) (ip : String) (sent : List SentOrder) (g : SendLedger A) :
    Prop where
  permit : a ∈ g.permits ↔ permit = true
  asked : g.asked a = ip
  sent : g.sent a = sent

/-- A request to an IP: the scan asked for this one last. -/
theorem pays_getIpSemaphore (localIp : String) (n : ℤ) {permit : Bool} {ip : String}
    {sent : List SentOrder} :
    (bossComponent U settings maxCapacity).Pays (bossInterference (TraderThread A U) args)
      (tradingInterference A U args) (.scanner a) (.getIpSemaphore localIp n)
      (fun s => Owns a permit ip sent s.2) fun _ s => Owns a permit localIp sent s.2 := by
  apply pays_boss
  rintro s b granted g he rfl hsend hr
  obtain ⟨hsecond, hminute⟩ := bossExec_granted (Or.inr ⟨localIp, n, rfl⟩) he
  refine ⟨⟨?_, ?_, hsend.secondCarried, hsend.minuteCarried⟩, rfl, fun x hx => ?_, ?_⟩
  · rw [hsecond]
    exact hsend.second
  · rw [hminute]
    exact hsend.minute
  · have hne : x ≠ a := fun hxa => hx (congrArg _ hxa)
    exact ⟨Iff.rfl, Function.update_of_ne hne _ _, rfl⟩
  · exact ⟨hr.permit, Function.update_self _ _ _, hr.sent⟩

/-- A request returns with both semaphores: the scan has a grant. -/
theorem pays_returnResult {ip : String} {sent : List SentOrder} :
    (bossComponent U settings maxCapacity).Pays (bossInterference (TraderThread A U) args)
      (tradingInterference A U args) (.scanner a) (.returnResult true true)
      (fun s => Owns a false ip sent s.2) fun _ s => Owns a true ip sent s.2 := by
  apply pays_boss
  rintro s b _ g he rfl hsend hr
  obtain ⟨rfl, -⟩ := Prod.ext_iff.mp (Option.some.inj he)
  have hnot : a ∉ s.2.permits := by simpa using hr.permit
  have hcard : (SendLedger.record (.scanner a) (.boss (.returnResult true true)) s.1 () s.2
      : SendLedger A).permits.card = s.2.permits.card + 1 := Finset.card_insert_of_notMem hnot
  refine ⟨⟨?_, ?_, hsend.secondCarried, hsend.minuteCarried⟩, rfl, fun x hx => ?_, ?_⟩
  · rw [hcard]
    exact hsend.second.grant
  · rw [hcard]
    exact hsend.minute.grant
  · have hne : x ≠ a := fun hxa => hx (congrArg _ hxa)
    exact ⟨by simp [SendLedger.record, hne], rfl, rfl⟩
  · exact ⟨by simp [SendLedger.record], hr.asked, hr.sent⟩

theorem stable_owns (a : A) (permit : Bool) (ip : String) (sent : List SentOrder) :
    (tradingInterference A U args).Stable (.scanner a) fun s => Owns a permit ip sent s.2 := by
  intro s s' _ _ hr h
  obtain ⟨hpermit, hasked, hsent⟩ := hr.2.2 a rfl
  exact ⟨hpermit.trans h.permit, hasked.trans h.asked, hsent.trans h.sent⟩

/-! ## A request -/

/-- A scan outside the boss, with its part of the ledger. -/
def Outside (a : A) (permit : Bool) (ip : String) (sent : List SentOrder)
    (s : Trading (TraderThread A U) × SendLedger A) : Prop :=
  .scanner a ∉ s.1.boss.data.holding ∧ Owns a permit ip sent s.2

theorem stable_outside (a : A) (permit : Bool) (ip : String) (sent : List SentOrder) :
    (tradingInterference A U args).Stable (.scanner a) (Outside a permit ip sent) := by
  intro s s' hs hs' hr h
  exact ⟨stable_notHolding _ _ hs.1 hs'.1 hr.1 h.1, stable_owns a _ _ _ s s' hs hs' hr h.2⟩

/-- An operation of the boss that is not noted. -/
theorem boss_spec {o : BossOp} (ho : ¬ Noted o) {P : Boss (TraderThread A U) → Prop}
    {Q : BossAns o → Boss (TraderThread A U) → Prop} {permit : Bool} {ip : String}
    {sent : List SentOrder} (h : BossTriple args maxCapacity (.scanner a) P (Prog.call o) Q)
    (hP : (bossInterference (TraderThread A U) args).Stable (.scanner a) P) :
    TradingTriple settings maxCapacity args (.scanner a)
      (fun s => P s.1.boss ∧ Owns a permit ip sent s.2) (Prog.call (TraderOp.boss o))
      fun b s => Q b s.1.boss ∧ Owns a permit ip sent s.2 :=
  Triple.component (K := bossComponent U settings maxCapacity) bossComponent_within h hP
    (stable_owns a permit ip sent) (pays_boss_aside ho _)

/-- A request returns, with a grant or without. -/
theorem returnResult_spec (hasAccount hasIp : Bool) {ip : String} {sent : List SentOrder} :
    TradingTriple settings maxCapacity args (.scanner a : TraderThread A U)
      (fun s => Inside (.scanner a) (hasAccount && hasIp) s.1.boss ∧ Owns a false ip sent s.2)
      (atBoss (returnPair hasAccount hasIp)) fun r s =>
        Outside a (hasAccount && hasIp) ip sent s ∧ r = (hasAccount, hasIp) := by
  have hcall : BossTriple args maxCapacity (.scanner a : TraderThread A U)
      (Inside (.scanner a) (hasAccount && hasIp))
      (Prog.call (BossOp.returnResult hasAccount hasIp))
      fun _ s => .scanner a ∉ s.data.holding := returnPair_spec hasAccount hasIp
  rw [returnPair, atBoss_bind, atBoss_call]
  apply Triple.bind (R := fun _ => Outside a (hasAccount && hasIp) ip sent)
  · by_cases hboth : (hasAccount && hasIp) = true
    · obtain ⟨rfl, rfl⟩ := Bool.and_eq_true_iff.mp hboth
      exact Triple.component (K := bossComponent U settings maxCapacity) bossComponent_within hcall
        (stable_inside _) (stable_owns a false ip sent) pays_returnResult
    · have hno : (hasAccount && hasIp) = false := by simpa using hboth
      have hquiet : ¬ Noted (.returnResult hasAccount hasIp) := by simp [Noted, hno]
      rw [hno] at hcall ⊢
      exact boss_spec hquiet hcall (stable_inside false)
  · exact fun _ => Triple.ret fun s _ h => ⟨h, rfl⟩

/-- **A request** leaves its scan with a grant exactly when it returns both semaphores, which it
asked of this IP. -/
theorem atBoss_getOrderSemaphore_spec (localIp : String) {ip : String} {sent : List SentOrder} :
    TradingTriple settings maxCapacity args (.scanner a : TraderThread A U)
      (Outside a false ip sent) (atBoss (getOrderSemaphore localIp 1)) fun r s =>
        ∃ ip', Outside a (r.1 && r.2) ip' sent s ∧ ((r.1 && r.2) = true → ip' = localIp) := by
  have hreturn : ∀ (x y : Bool) (ip : String), ((x && y) = true → ip = localIp) →
      TradingTriple settings maxCapacity args (.scanner a : TraderThread A U)
        (fun s => Inside (.scanner a) (x && y) s.1.boss ∧ Owns a false ip sent s.2)
        (atBoss (returnPair x y)) fun r s =>
          ∃ ip', Outside a (r.1 && r.2) ip' sent s ∧ ((r.1 && r.2) = true → ip' = localIp) := by
    intro x y ip hip
    apply (returnResult_spec x y).weaken fun _ _ h => h
    rintro r s - ⟨hout, rfl⟩
    exact ⟨ip, hout, hip⟩
  have hgiveBack : ∀ (ip : String) (y : Bool), y = false →
      TradingTriple settings maxCapacity args (.scanner a : TraderThread A U)
        (fun s => Inside (.scanner a) true s.1.boss ∧ Owns a false ip sent s.2)
        (Prog.call (TraderOp.boss (.returnAccountSemaphore 1)) >>= fun _ =>
          atBoss (returnPair true y)) fun r s =>
            ∃ ip', Outside a (r.1 && r.2) ip' sent s ∧ ((r.1 && r.2) = true → ip' = localIp) := by
    rintro ip y rfl
    apply Triple.bind (boss_spec (by simp [Noted]) returnAccountSemaphore_spec (stable_inside true))
    exact fun _ => hreturn true false ip (by simp)
  simp only [getOrderSemaphore, atBoss_bind, atBoss_ite]
  apply Triple.bind (boss_spec (by simp [Noted]) lockShared_spec stable_notHolding)
  intro _
  apply Triple.bind (boss_spec (by simp [Noted]) getAccountSemaphore_spec (stable_inside false))
  intro hasAccount
  apply Triple.ite
  · intro hno
    obtain rfl : hasAccount = false := by simpa using hno
    exact hreturn false false ip (by simp)
  intro hyes
  obtain rfl : hasAccount = true := by simpa using hyes
  apply Triple.bind (boss_spec (by simp [Noted]) (findIpLimiter_spec localIp) (stable_inside true))
  intro found
  apply Triple.ite
  · exact fun _ => hgiveBack ip false rfl
  intro _
  apply Triple.bind (Triple.component (K := bossComponent U settings maxCapacity)
    bossComponent_within (getIpSemaphore_spec localIp 1) (stable_inside true)
    (stable_owns a false ip sent) (pays_getIpSemaphore localIp 1))
  intro (hasIp : Bool)
  apply Triple.ite
  · intro hno
    exact hgiveBack localIp hasIp (by simpa using hno)
  · intro hyes
    obtain rfl : hasIp = true := by simpa using hyes
    exact hreturn true true localIp fun _ => rfl

/-! ## The other operations -/

/-- An operation beside the boss that the ledger takes no note of. -/
theorem aside_spec {o : TraderOp} {P : Trading (TraderThread A U) × SendLedger A → Prop}
    {Q : TraderAns o → Trading (TraderThread A U) × SendLedger A → Prop}
    (hP : (tradingInterference A U args).Stable t P)
    (h : ∀ s g s' b, s.services.connections.Tended → P (s, g) → traderExec t o s = some (s', b) →
      SendLedger.record t o s b g = g ∧ s'.boss = s.boss ∧ s'.services.connections.Tended ∧
        s.services.connections.Grows s'.services.connections ∧ Q b (s', g)) :
    TradingTriple settings maxCapacity args t P (Prog.call o) Q := by
  apply Triple.call_withGhost hP
  rintro s g s' b ⟨hboss, htended, hsend, hthrough⟩ hp - he
  obtain ⟨hrecord, hsame, htended', hgrows, hq⟩ := h s g s' b htended hp he
  rw [hrecord]
  refine ⟨⟨⟨?_, htended', ?_, hthrough.grows hgrows⟩, fun u _ => ⟨?_, hgrows, ?_⟩⟩, hq⟩
  · exact hsame ▸ hboss
  · exact hsame ▸ hsend
  · show (bossInterference (TraderThread A U) args).rely u s.boss s'.boss
    rw [hsame]
    exact Interference.refl _ u s.boss
  · exact fun x _ => .refl x g

/-- An operation that reads. -/
theorem read_spec {o : TraderOp} {P : Trading (TraderThread A U) × SendLedger A → Prop}
    {Q : TraderAns o → OrderConnections → Prop}
    (hP : (tradingInterference A U args).Stable t P)
    (h : ∀ s s' b, s.services.connections.Tended → traderExec t o s = some (s', b) →
      s' = s ∧ (∀ g : SendLedger A, SendLedger.record t o s b g = g) ∧
        Q b s.services.connections) :
    TradingTriple settings maxCapacity args t P (Prog.call o)
      fun b s => P s ∧ Q b s.1.services.connections := by
  apply aside_spec hP
  intro s g s' b htended hp he
  obtain ⟨rfl, hrecord, hq⟩ := h s s' b htended he
  exact ⟨hrecord g, rfl, htended, .refl _, hp, hq⟩

/-- The connection behind the handle has this local IP. -/
def HasLocalIp (service : ServiceHandle) (localIp : String) (c : OrderConnections) : Prop :=
  ∃ w, c.wrappers[service]? = some w ∧ w.localIp = localIp

theorem HasLocalIp.grows {service : ServiceHandle} {localIp : String} {c c' : OrderConnections}
    (h : HasLocalIp service localIp c) (hg : c.Grows c') : HasLocalIp service localIp c' := by
  obtain ⟨w, hw, hlocal⟩ := h
  obtain ⟨w', hw', hlocal', -⟩ := hg service w hw
  exact ⟨w', hw', hlocal'.trans hlocal⟩

theorem stable_connections {P : OrderConnections → Prop}
    (hP : ∀ c c', c.Grows c' → P c → P c') :
    (tradingInterference A U args).Stable t fun s => P s.1.services.connections :=
  fun _ _ _ _ hr h => hP _ _ hr.2.1 h

/-- **The search** for the best connection finds one that was made. -/
theorem findBestService_spec (symbol : String)
    {P : Trading (TraderThread A U) × SendLedger A → Prop}
    (hP : (tradingInterference A U args).Stable (.scanner a) P) :
    TradingTriple settings maxCapacity args (.scanner a) P (findBestService symbol)
      fun r s => P s ∧ ∀ service, r = some service →
        ∃ localIp, HasLocalIp service localIp s.1.services.connections := by
  apply Triple.bind (R := fun _ => P)
  · apply (read_spec (Q := fun _ _ => True) hP ?_).weaken
    · exact fun _ _ h => h
    · exact fun _ _ _ h => h.1
    · intro s s' b _ he
      obtain ⟨rfl, -⟩ := Prod.ext_iff.mp (Option.some.inj he)
      exact ⟨rfl, fun _ => rfl, trivial⟩
  intro ipPair
  apply Triple.ite
  · intro _
    apply Triple.ret
    intro s _ h
    exact ⟨h, fun service hservice => by cases hservice⟩
  · intro _
    apply read_spec (o := .findService ipPair)
      (Q := fun r c => ∀ service, r = some service → ∃ localIp, HasLocalIp service localIp c) hP
    intro s s' r htended he
    obtain ⟨rfl, rfl⟩ := Prod.ext_iff.mp (Option.some.inj he)
    refine ⟨rfl, fun _ => rfl, fun service hservice => ?_⟩
    obtain ⟨w, hw, -⟩ := htended.mapped ipPair service hservice
    exact ⟨w.localIp, w, hw, rfl⟩

/-- The orders of a scan afterwards: as before, or with this one more. -/
def AtMostOneMore (order : BuiltOrder) (sent sent' : List SentOrder) : Prop :=
  sent' = sent ∨ ∃ e : SentOrder, e.order = order ∧ sent' = sent ++ [e]

omit [DecidableEq T] in
/-- A grant is used up: sent with an order, or dropped. -/
theorem SendInv.useUp {d : BossData T} {g : SendLedger A} (h : SendInv d g) (ha : a ∈ g.permits)
    (use : OrderCount → OrderCount)
    (huse : ∀ count : OrderCount, (use count).carried = count.carried)
    (haccounts : ∀ (count : OrderCount) granted inUse, count.Accounts granted (inUse + 1) →
      (use count).Accounts granted inUse) (sent : A → List SentOrder) :
    SendInv d
      { g with
        permits := g.permits.erase a
        sent := sent
        second := use g.second
        minute := use g.minute } := by
  have hcard := Finset.card_erase_add_one ha
  refine ⟨haccounts _ _ _ ?_, haccounts _ _ _ ?_, ?_, ?_⟩
  · rw [hcard]
    exact h.second
  · rw [hcard]
    exact h.minute
  · exact (huse g.second).trans_le h.secondCarried
  · exact (huse g.minute).trans_le h.minuteCarried

/-- **The order** uses the grant up, whether or not it is sent. -/
theorem placeOrder_spec (service : ServiceHandle) (order : BuiltOrder) (localIp : String)
    (sent : List SentOrder) :
    TradingTriple settings maxCapacity args (.scanner a : TraderThread A U)
      (fun s => Outside a true localIp sent s ∧ HasLocalIp service localIp s.1.services.connections)
      (placeOrder service order) fun _ s =>
        ∃ sent', Outside a false localIp sent' s ∧ AtMostOneMore order sent sent' := by
  have hstable : (tradingInterference A U args).Stable (.scanner a) fun s =>
      Outside a true localIp sent s ∧ HasLocalIp service localIp s.1.services.connections :=
    (stable_outside a true localIp sent).and (stable_connections fun _ _ hg h => h.grows hg)
  apply Triple.bind (R := fun stopped s => if stopped then Outside a false localIp sent s
    else Outside a true localIp sent s ∧ HasLocalIp service localIp s.1.services.connections)
  · apply Triple.call_withGhost hstable
    rintro s g s' stopped ⟨hboss, htended, hsend, hthrough⟩ ⟨⟨hhold, howns⟩, hip⟩ - he
    obtain ⟨hs', -⟩ := Prod.ext_iff.mp (Option.some.inj he)
    obtain rfl : s = s' := hs'
    cases stopped with
    | false =>
      exact ⟨⟨⟨hboss, htended, hsend, hthrough⟩, fun u _ => Interference.refl _ u _⟩,
        ⟨hhold, howns⟩, hip⟩
    | true =>
      have hmem : a ∈ g.permits := howns.permit.mpr rfl
      have hdropped : SendInv s.boss.data
          (SendLedger.record (.scanner a) (.isStopped service) s true g) :=
        hsend.useUp hmem .drop (fun _ => rfl) (fun _ _ _ h => h.drop) g.sent
      refine ⟨⟨⟨hboss, htended, hdropped, hthrough⟩, fun u hu => ⟨Interference.refl _ u _, .refl _,
        ?_⟩⟩, hhold, ?_⟩
      · rintro x rfl
        have hne : x ≠ a := fun hxa => hu (congrArg _ hxa)
        exact ⟨by simp [SendLedger.record, hne], rfl, rfl⟩
      · exact ⟨by simp [SendLedger.record], howns.asked, howns.sent⟩
  intro stopped
  apply Triple.ite
  · intro hstopped
    apply Triple.ret
    intro s _ h
    rw [if_pos hstopped] at h
    exact ⟨sent, h, Or.inl rfl⟩
  intro hrunning
  simp only [hrunning, if_false]
  apply Triple.call_withGhost hstable
  rintro s g s' _ ⟨hboss, htended, hsend, hthrough⟩ ⟨⟨hhold, howns⟩, hip⟩ - he
  obtain ⟨hs', -⟩ := Prod.ext_iff.mp (Option.some.inj he)
  obtain rfl : s = s' := hs'
  have hmem : a ∈ g.permits := howns.permit.mpr rfl
  have hsent : SendInv s.boss.data
      (SendLedger.record (.scanner a) (.sendOrder service order) s () g) :=
    hsend.useUp hmem .send (fun _ => rfl) (fun _ _ _ h => h.send) _
  refine ⟨⟨⟨hboss, htended, hsent, ?_⟩, fun u hu => ⟨Interference.refl _ u _, .refl _, ?_⟩⟩,
    sent ++ [⟨service, localIp, order⟩], ⟨hhold, ?_⟩, Or.inr ⟨_, rfl, rfl⟩⟩
  · intro x e he
    by_cases hxa : x = a
    · subst hxa
      simp only [SendLedger.record, Function.update_self, List.mem_append,
        List.mem_singleton] at he
      rcases he with hold | rfl
      · exact hthrough x e hold
      · rw [howns.asked]
        exact hip
    · simp only [SendLedger.record, Function.update_of_ne hxa] at he
      exact hthrough x e he
  · rintro x rfl
    have hne : x ≠ a := fun hxa => hu (congrArg _ hxa)
    exact ⟨by simp [SendLedger.record, hne], rfl, Function.update_of_ne hne _ _⟩
  · have hasked : g.asked a = localIp := howns.asked
    have hold : g.sent a = sent := howns.sent
    exact ⟨by simp [SendLedger.record], hasked, by simp [SendLedger.record, hasked, hold]⟩

/-- A request leaves the connections alone. -/
theorem request_spec (localIp : String) (service : ServiceHandle) {ip : String}
    {sent : List SentOrder} :
    TradingTriple settings maxCapacity args (.scanner a : TraderThread A U)
      (fun s => Outside a false ip sent s ∧ HasLocalIp service localIp s.1.services.connections)
      (atBoss (getOrderSemaphore localIp 1)) fun r s =>
        (∃ ip', Outside a (r.1 && r.2) ip' sent s ∧ ((r.1 && r.2) = true → ip' = localIp)) ∧
          HasLocalIp service localIp s.1.services.connections := by
  apply Triple.frame (atBoss_getOrderSemaphore_spec localIp) (Prog.embed_performs _ _ _)
    (stable_connections fun _ _ hg h => h.grows hg)
  rintro _ ⟨o, rfl⟩ s s' b hlocal he
  obtain ⟨he, -⟩ := System.exec_withGhost he
  obtain ⟨r, -, hpair⟩ := Option.map_eq_some_iff.mp he
  rw [← (Prod.mk.inj hpair).1]
  exact hlocal

/-- **Trading** sends at most the one order, and leaves no grant behind. -/
theorem tradeOverBestPath_spec (symbol : String) (order : BuiltOrder) {ip : String}
    {sent : List SentOrder} :
    TradingTriple settings maxCapacity args (.scanner a : TraderThread A U)
      (Outside a false ip sent) (tradeOverBestPath symbol order) fun _ s =>
        ∃ ip' sent', Outside a false ip' sent' s ∧ AtMostOneMore order sent sent' := by
  apply Triple.bind (findBestService_spec symbol (stable_outside a false ip sent))
  rintro (_ | service)
  · apply Triple.ret
    exact fun s _ h => ⟨ip, sent, h.1, Or.inl rfl⟩
  have hmade : (tradingInterference A U args).Stable (.scanner a : TraderThread A U) fun s =>
      Outside a false ip sent s ∧ ∃ localIp, HasLocalIp service localIp s.1.services.connections :=
    (stable_outside a false ip sent).and
      (stable_connections (P := fun c => ∃ localIp, HasLocalIp service localIp c)
        fun _ _ hg h => h.imp fun _ hip => hip.grows hg)
  apply Triple.bind (R := fun localIp s => Outside a false ip sent s ∧
    HasLocalIp service localIp s.1.services.connections)
  · apply (aside_spec hmade ?_).weaken
    · exact fun s _ h => ⟨h.1, h.2 service rfl⟩
    · exact fun _ _ _ h => h
    · rintro s g s' localIp htended ⟨hout, ip', w, hw, rfl⟩ he
      obtain ⟨rfl, rfl⟩ := Prod.ext_iff.mp (Option.some.inj he)
      refine ⟨rfl, rfl, htended, .refl _, hout, w, hw, ?_⟩
      simp [OrderConnections.getLocalIp, hw]
  intro localIp
  apply Triple.bind (request_spec localIp service)
  intro hasSemaphore
  apply Triple.ite
  · intro hboth
    apply (placeOrder_spec service order localIp sent).weaken
    · rintro s - ⟨⟨ip', hout, hip'⟩, hlocal⟩
      obtain rfl := hip' hboth
      exact ⟨hboth ▸ hout, hlocal⟩
    · rintro _ s - ⟨sent', hout, hmore⟩
      exact ⟨localIp, sent', hout, hmore⟩
  · intro hno
    apply Triple.ret
    rintro s - ⟨⟨ip', hout, -⟩, -⟩
    exact ⟨ip', sent, by simpa [hno] using hout, Or.inl rfl⟩

/-! ## The scans -/

/-- The orders a scan sent: of increasing versions, all of them seen, and only while orders are to
be placed, each built from its record at a reading that found it valid. -/
structure ScanSent (settings : TradingSettings A) (a : A) (l : ScanState) (sent : List SentOrder) :
    Prop where
  increasing : (sent.map (·.order.record.versionNumber)).Pairwise (· < ·)
  seen : ∀ e ∈ sent, e.order.record.versionNumber ≤ l.orderVersion
  built : ∀ e ∈ sent, settings.openPlaceOrder = true ∧
    orderExpired settings.config e.order.record e.order.now = false ∧
    e.order.order = buildOrder (settings.symbol a) e.order.record e.order.now

omit [DecidableEq A] [Fintype A] in
/-- A later version was seen. -/
theorem ScanSent.mono {l l' : ScanState} {sent : List SentOrder} (h : ScanSent settings a l sent)
    (hversion : l.orderVersion ≤ l'.orderVersion) : ScanSent settings a l' sent :=
  { h with seen := fun e he => (h.seen e he).trans hversion }

omit [DecidableEq A] [Fintype A] in
/-- One more order, of a record that was taken. -/
theorem ScanSent.snoc {l l' : ScanState} {sent : List SentOrder} (h : ScanSent settings a l sent)
    {e : SentOrder} (hnew : l.orderVersion < e.order.record.versionNumber)
    (hversion : l'.orderVersion = e.order.record.versionNumber)
    (hopen : settings.openPlaceOrder = true)
    (hvalid : orderExpired settings.config e.order.record e.order.now = false)
    (hbuilt : e.order.order = buildOrder (settings.symbol a) e.order.record e.order.now) :
    ScanSent settings a l' (sent ++ [e]) := by
  refine ⟨?_, fun e' he' => ?_, fun e' he' => ?_⟩
  · rw [List.map_append, List.pairwise_append]
    refine ⟨h.increasing, by simp, fun v hv w hw => ?_⟩
    obtain ⟨e', he', rfl⟩ := List.mem_map.mp hv
    simp only [List.map_cons, List.map_nil, List.mem_singleton] at hw
    rw [hw]
    exact (h.seen e' he').trans_lt hnew
  · rcases List.mem_append.mp he' with hold | hlast
    · rw [hversion]
      exact (h.seen e' hold).trans hnew.le
    · rw [List.mem_singleton.mp hlast, hversion]
  · rcases List.mem_append.mp he' with hold | hlast
    · exact h.built e' hold
    · rw [List.mem_singleton.mp hlast]
      exact ⟨hopen, hvalid, hbuilt⟩

/-- The version of a newer record is seen. -/
theorem takeOrder_orderVersion {config : TraderConfig} {symbol : String} {l : ScanState}
    {shmOrder : OrderShm} {now : ℕ} (hnew : l.orderVersion < shmOrder.versionNumber) :
    (takeOrder config symbol l shmOrder now).orderVersion = shmOrder.versionNumber := by
  unfold takeOrder
  split_ifs with hold
  · omega
  · rfl
  · rfl

theorem le_takeOrder_orderVersion (config : TraderConfig) (symbol : String) (l : ScanState)
    (shmOrder : OrderShm) (now : ℕ) :
    l.orderVersion ≤ (takeOrder config symbol l shmOrder now).orderVersion := by
  unfold takeOrder
  split_ifs
  · exact le_rfl
  · show l.orderVersion ≤ shmOrder.versionNumber
    omega
  · show l.orderVersion ≤ shmOrder.versionNumber
    omega

/-- A scan between two passes. -/
def ScanRest (settings : TradingSettings A) (a : A) (l : ScanState)
    (s : Trading (TraderThread A U) × SendLedger A) : Prop :=
  ∃ ip sent, Outside a false ip sent s ∧ ScanSent settings a l sent

/-- **A pass** of the scan. -/
theorem scanAndSendOrder_spec (l : ScanState) (shmOrder : OrderShm) (now : ℕ) :
    TradingTriple settings maxCapacity args (.scanner a : TraderThread A U)
      (ScanRest settings a l) (scanAndSendOrder settings a l shmOrder now)
      (ScanRest settings a) := by
  apply Triple.exists_pre
  intro ip
  apply Triple.exists_pre
  intro sent
  apply Triple.of_pre
  intro hsent
  have hkept := hsent.mono
    (le_takeOrder_orderVersion settings.config (settings.symbol a) l shmOrder now)
  apply Triple.ite
  · intro _
    exact Triple.ret fun s _ hout => ⟨ip, sent, hout, hkept⟩
  intro htaken
  obtain ⟨hnew, hvalid⟩ := not_or.mp htaken
  apply Triple.bind (R := fun _ => Outside a false ip sent)
  · apply aside_spec (stable_outside a false ip sent)
    rintro s g s' b htended hout he
    obtain ⟨rfl, -⟩ := Prod.ext_iff.mp (Option.some.inj he)
    exact ⟨rfl, rfl, htended, .refl _, hout⟩
  intro hasIntervalSemaphore
  apply Triple.ite
  · intro hgate
    obtain ⟨hopen, -⟩ := Bool.and_eq_true_iff.mp hgate
    apply Triple.bind (tradeOverBestPath_spec _ _)
    intro _
    apply Triple.ret
    rintro s - ⟨ip', sent', hout, rfl | ⟨e, horder, rfl⟩⟩
    · exact ⟨ip', sent', hout, hkept⟩
    · refine ⟨ip', _, hout, hsent.snoc ?_ ?_ hopen ?_ ?_⟩
      all_goals rw [horder]
      · exact not_le.mp hnew
      · exact takeOrder_orderVersion (not_le.mp hnew)
      · simpa using hvalid
  · intro _
    exact Triple.ret fun s _ hout => ⟨ip, sent, hout, hkept⟩

/-! ## The other threads -/

/-- A worker outside the boss. -/
def WorkerRest (u : U) (s : Trading (TraderThread A U) × SendLedger A) : Prop :=
  .worker u ∉ s.1.boss.data.holding

theorem stable_workerRest (u : U) :
    (tradingInterference A U args).Stable (.worker u) (WorkerRest u) := by
  intro s s' hs hs' hr h
  exact stable_notHolding _ _ hs.1 hs'.1 hr.1 h

/-- A program of the boss that settles no request. -/
theorem worker_atBoss_spec {u : U} {α : Type} {p : BossProg α}
    (h : BossTriple args maxCapacity (.worker u : TraderThread A U)
      (fun s => .worker u ∉ s.data.holding) p fun _ s => .worker u ∉ s.data.holding)
    (hp : p.Performs fun o => ¬ Noted o ∨ ∃ now, o = .resetAccount now) :
    TradingTriple settings maxCapacity args (.worker u : TraderThread A U) (WorkerRest u)
      (atBoss p) fun _ => WorkerRest u := by
  have htrue : (tradingInterference A U args).Stable (.worker u : TraderThread A U)
      fun _ => True := fun _ _ _ _ _ h => h
  apply (Triple.embed (K := bossComponent U settings maxCapacity) bossComponent_within h hp htrue
    ?_).weaken
  · exact fun _ _ h => ⟨h, trivial⟩
  · exact fun _ _ _ h => h.1
  · rintro o (ho | ⟨now, rfl⟩)
    · exact pays_boss_aside ho fun _ => True
    · exact pays_resetAccount now (fun _ => True) fun _ _ _ _ => trivial

theorem refreshAllLimiters_notes (now : ℕ) : (refreshAllLimiters now).Performs fun o =>
    ¬ Noted o ∨ ∃ now, o = .resetAccount now := by
  refine .bind (.call (Or.inl id)) fun _ => .bind (.call (Or.inr ⟨now, rfl⟩)) fun _ => ?_
  refine .bind (.call (Or.inl id)) fun ips => .bind ?_ fun _ => .call (Or.inl id)
  exact .forM _ fun _ _ => .call (Or.inl id)

theorem createIpLimiter_notes (maxCapacity : ℤ) (localIp : String) (args : LimiterArgs) :
    (createIpLimiter maxCapacity localIp args).Performs fun o =>
      ¬ Noted o ∨ ∃ now, o = .resetAccount now := by
  refine .bind (.call (Or.inl id)) fun _ => .bind (.call (Or.inl id)) fun _ => ?_
  refine .bind (.call (Or.inl id)) fun _ => .bind (.call (Or.inl id)) fun _ => ?_
  refine .ite (.ret _) (.ite (.ret _) (.bind (.call (Or.inl id)) fun _ => ?_))
  exact .bind (.call (Or.inl id)) fun _ => .bind (.call (Or.inl id)) fun _ => .ret _

/-- An operation of a worker beside the boss. -/
theorem worker_aside_spec {u : U} {o : TraderOp} (hboss : ∀ b, o ≠ .boss b) :
    TradingTriple settings maxCapacity args (.worker u : TraderThread A U) (WorkerRest u)
      (Prog.call o) fun _ => WorkerRest u := by
  apply aside_spec (stable_workerRest u)
  intro s g s' b htended hrest he
  cases o with
  | boss o => exact absurd rfl (hboss o)
  | service o =>
    obtain ⟨⟨s₁, b'⟩, hexec, hpair⟩ := Option.map_eq_some_iff.mp he
    obtain ⟨rfl, -⟩ := Prod.mk.inj hpair
    obtain ⟨htended', hgrows⟩ := connectionExec_keeps hexec htended
    exact ⟨rfl, rfl, htended', hgrows, hrest⟩
  | _ =>
    obtain ⟨rfl, -⟩ := Prod.ext_iff.mp (Option.some.inj he)
    exact ⟨rfl, rfl, htended, .refl _, hrest⟩

/-- A best path is taken. -/
theorem takeBestPath_spec {u : U} (info : BestPathInfo) (secondNow minuteNow : ℕ) :
    TradingTriple settings maxCapacity args (.worker u : TraderThread A U) (WorkerRest u)
      (takeBestPath settings maxCapacity info secondNow minuteNow) fun _ => WorkerRest u := by
  apply Triple.bind (worker_aside_spec fun _ h => by cases h)
  intro now
  apply Triple.ite
  · intro _
    apply Triple.bind (worker_aside_spec fun _ h => by cases h)
    intro newService
    apply Triple.ite
    · intro _
      apply Triple.bind
        (worker_atBoss_spec (createIpLimiter_spec _ _) (createIpLimiter_notes _ _ _))
      exact fun _ => Triple.ret fun _ _ h => h
    · exact fun _ => Triple.ret fun _ _ h => h
  · exact fun _ => Triple.ret fun _ _ h => h

/-- **Whatever a worker does** leaves it outside the boss. -/
theorem workerBody_spec {u : U} (call : WorkerCall) :
    TradingTriple settings maxCapacity args (.worker u : TraderThread A U) (WorkerRest u)
      (workerBody settings maxCapacity call) fun _ => WorkerRest u := by
  cases call with
  | takeBestPaths infos =>
    exact Triple.forM (A := fun _ => WorkerRest u) fun _ info _ _ =>
      takeBestPath_spec info.1 info.2.1 info.2.2
  | processOrderMessage event now =>
    cases event with
    | none => exact Triple.ret fun _ _ h => h
    | some event =>
      apply Triple.ite
      · exact fun _ => worker_aside_spec fun _ h => by cases h
      · exact fun _ => Triple.ret fun _ _ h => h
  | serviceZookeeperRound =>
    apply Triple.of_performs (Prog.embed_performs _ _ serviceZookeeperRound)
    rintro _ ⟨o, rfl⟩
    exact worker_aside_spec fun _ h => by cases h
  | refreshAllLimiters now =>
    exact worker_atBoss_spec (refreshAllLimiters_spec now) (refreshAllLimiters_notes now)
  | refreshCounter counterId now => exact worker_aside_spec fun _ h => by cases h
  | tick millis => exact worker_aside_spec fun _ h => by cases h

end Specs

/-! ## All threads together -/

variable [Fintype A] {settings : TradingSettings A} {maxCapacity : ℤ} {args : LimiterArgs}

/-- The proof outline of the trader. -/
def tradingOutline (U : Type) [DecidableEq U] (settings : TradingSettings A) (maxCapacity : ℤ)
    (args : LimiterArgs) :
    Outline (ledgerTrading U settings maxCapacity) System.Unrestricted where
  I := tradingInterference A U args
  atRest
    | .scanner a, l => ScanRest settings a l
    | .worker u, _ => WorkerRest u
  stable
    | .scanner a, l => by
      rintro s s' hs hs' hr ⟨ip, sent, hout, hsent⟩
      exact ⟨ip, sent, stable_outside a false ip sent s s' hs hs' hr hout, hsent⟩
    | .worker u, _ => stable_workerRest u
  body
    | .scanner _, l, x => scanAndSendOrder_spec l x.1 x.2
    | .worker _, _, call => workerBody_spec call

/-- A trader whose limiters were just initialised, with intervals as they may be, at a reading of
the clock. -/
abbrev tradingStart (A U : Type) (args : LimiterArgs) (intervals : IntervalRun) (now : ℕ) :
    Trading (TraderThread A U) where
  boss := bossStart (TraderThread A U) args
  services := ⟨.empty, now⟩
  intervals := intervals

/-- Two scans of one symbol, with room for several orders at its IP. -/
def twoScans : TradingSettings Bool where
  config := ⟨10⟩
  openPlaceOrder := true
  orderIpLimitPer10Seconds := 5
  orderIpLimitPerMinute := 5
  followerInstIds := ["BTCUSDC"]
  symbol _ := "BTCUSDC"

/-- Intervals that do not pause the symbol. -/
abbrev openIntervals : IntervalRun := .start ⟨false, 0, 0, false⟩ [⟨"BTCUSDC", "btc", 0⟩] 1 1000

/-- A scan has its grant when the limiter is reset; it sends its order after that, and so does the
other scan. -/
def overReset : List (System.Move (TraderThread Bool Unit) TraderCall) :=
  let order : OrderShm := { instId := "BTCUSDC", updateTime := 1, versionNumber := 1 }
  List.flatten
    [wholeCall (.worker ())
        (.takeBestPaths [(⟨"BTCUSDC", "NEW", "10.0.0.1", "10.0.0.2", 1, 0⟩, 0, 0)]) 9,
      beginCall (.scanner true) (order, 5) 9,
      wholeCall (.worker ()) (.refreshAllLimiters 20000) 5, endCall (.scanner true) 2,
      wholeCall (.scanner false) (order, 5) 11]

section Results

variable {intervals : IntervalRun} {now : ℕ}

theorem tradingStart_inv (hsecond : 0 ≤ args.secondSemaphoreCount)
    (hminute : 0 ≤ args.minuteSemaphoreCount) :
    (tradingOutline U settings maxCapacity args).I.inv
      (tradingStart A U args intervals now, .empty) := by
  refine ⟨⟨fun t ht => ?_, BossInv.init hsecond hminute⟩, .empty, ?_, ?_⟩
  · cases ht
  · exact ⟨rfl, rfl, Nat.zero_le _, Nat.zero_le _⟩
  · intro a e he
    simp [SendLedger.empty] at he

theorem tradingStart_atRest (t : TraderThread A U) :
    (tradingOutline U settings maxCapacity args).atRest t (noPasses t)
      (tradingStart A U args intervals now, .empty) := by
  cases t with
  | scanner a =>
    refine ⟨"", [], ⟨Finset.notMem_empty _, ?_⟩, ?_⟩
    · exact ⟨by simp [SendLedger.empty], rfl, rfl⟩
    · exact ⟨by simp, by simp, by simp⟩
  | worker u => exact Finset.notMem_empty _

/-- The account of one window of the limiter: every grant was sent, dropped at a stopped connection,
or is in the hands of a scan; what came over the last reset is at most one grant for each scan, and
beyond it no more orders were sent than the window allows. -/
structure WindowOrders (count : OrderCount) (granted inUse : ℕ) (limit : ℤ) (scans : ℕ) : Prop where
  accounts : count.sent + count.dropped + inUse = granted + count.carried
  carried_le : count.carried ≤ scans
  sent_le : (count.sent : ℤ) ≤ limit + count.carried

/-- **The orders over the best path are accounted for.** Whatever the scans, the updates of the best
paths, the clean-up and the refreshes do in whatever order: in both windows of the account, the
orders sent since the last reset are the grants since then and those that came over it, less those
dropped and those in use; so they exceed the limit by one for each scan at most. -/
theorem orders_accounted {c} (hsecond : 0 ≤ args.secondSemaphoreCount)
    (hminute : 0 ≤ args.minuteSemaphoreCount)
    (hc : (ledgerTrading U settings maxCapacity).Reachable System.Unrestricted
      (tradingStart A U args intervals now, .empty) noPasses c) :
    WindowOrders c.shared.2.second c.shared.1.boss.data.secondGranted c.shared.2.permits.card
        args.secondSemaphoreCount (Fintype.card A) ∧
      WindowOrders c.shared.2.minute c.shared.1.boss.data.minuteGranted c.shared.2.permits.card
        args.minuteSemaphoreCount (Fintype.card A) := by
  obtain ⟨⟨-, hledger⟩, -, hsend, -⟩ :=
    (tradingOutline U settings maxCapacity args).inv (tradingStart_inv hsecond hminute)
      tradingStart_atRest hc
  have hs := (WindowConserved.of_balanced hledger.secondCount hledger.second).granted_le
  have hm := (WindowConserved.of_balanced hledger.minuteCount hledger.minute).granted_le
  have hsecondAccounts := hsend.second
  have hminuteAccounts := hsend.minute
  simp only [OrderCount.Accounts] at hsecondAccounts hminuteAccounts
  refine ⟨⟨hsecondAccounts, hsend.secondCarried, ?_⟩, ⟨hminuteAccounts, hsend.minuteCarried, ?_⟩⟩
  · omega
  · omega

/-- Two orders are sent in a window that allows one: the grant of the first came over the reset. -/
theorem orders_accounted_over_reset :
    ∃ c, c.shared.2.second.sent = 2 ∧
      WindowOrders c.shared.2.second c.shared.1.boss.data.secondGranted c.shared.2.permits.card 1
        (Fintype.card Bool) ∧
      (ledgerTrading Unit twoScans 64).Reachable System.Unrestricted
        (tradingStart Bool Unit ⟨1, 10, 5, 1, 0, 0⟩ openIntervals 0, .empty) noPasses c := by
  obtain ⟨c, hc, hsent⟩ : ∃ c, (ledgerTrading Unit twoScans 64).Reachable System.Unrestricted
      (tradingStart Bool Unit ⟨1, 10, 5, 1, 0, 0⟩ openIntervals 0, .empty) noPasses c ∧
        c.shared.2.second.sent = 2 :=
    System.exists_of_schedule overReset (by decide +kernel)
  exact ⟨c, hsent, (orders_accounted (by decide) (by decide) hc).1, hc⟩

/-- **The connections of the trader.** Whatever the threads do in whatever order, the connections
that run are those in the map, one for each IP pair, and every order went through a connection of
the local IP whose limiter was asked for it. -/
theorem orders_through_connections {c} (hsecond : 0 ≤ args.secondSemaphoreCount)
    (hminute : 0 ≤ args.minuteSemaphoreCount)
    (hc : (ledgerTrading U settings maxCapacity).Reachable System.Unrestricted
      (tradingStart A U args intervals now, .empty) noPasses c) :
    c.shared.1.services.connections.Tended ∧
      SentThrough c.shared.1.services.connections c.shared.2 := by
  obtain ⟨-, htended, -, hthrough⟩ :=
    (tradingOutline U settings maxCapacity args).inv (tradingStart_inv hsecond hminute)
      tradingStart_atRest hc
  exact ⟨htended, hthrough⟩

/-- A scan sent an order through the connection of the best path. -/
theorem orders_through_best_path :
    ∃ c, (c.shared.2.sent true).map (·.service) = [0] ∧
      c.shared.1.services.connections.Tended ∧
      SentThrough c.shared.1.services.connections c.shared.2 ∧
      (ledgerTrading Unit twoScans 64).Reachable System.Unrestricted
        (tradingStart Bool Unit ⟨1, 10, 5, 1, 0, 0⟩ openIntervals 0, .empty) noPasses c := by
  obtain ⟨c, hc, hsent⟩ : ∃ c, (ledgerTrading Unit twoScans 64).Reachable System.Unrestricted
      (tradingStart Bool Unit ⟨1, 10, 5, 1, 0, 0⟩ openIntervals 0, .empty) noPasses c ∧
        (c.shared.2.sent true).map (·.service) = [0] :=
    System.exists_of_schedule overReset (by decide +kernel)
  obtain ⟨htended, hthrough⟩ := orders_through_connections (by decide) (by decide) hc
  exact ⟨c, hsent, htended, hthrough, hc⟩

/-- **A scan sends each order once.** Whatever records it is returned, a scan between two passes has
sent orders of increasing versions, each built from its record at a reading that found it valid,
and none where orders are not to be placed; and it has no grant left. -/
theorem orders_in_version_order {c} {a : A} {l : ScanState}
    (hsecond : 0 ≤ args.secondSemaphoreCount) (hminute : 0 ≤ args.minuteSemaphoreCount)
    (hc : (ledgerTrading U settings maxCapacity).Reachable System.Unrestricted
      (tradingStart A U args intervals now, .empty) noPasses c)
    (hl : c.thread (.scanner a) = .idle l) :
    ScanSent settings a l (c.shared.2.sent a) ∧ a ∉ c.shared.2.permits := by
  obtain ⟨ip, sent, ⟨-, howns⟩, hsent⟩ :=
    (tradingOutline U settings maxCapacity args).idle (tradingStart_inv hsecond hminute)
      tradingStart_atRest hc hl
  rw [howns.sent]
  exact ⟨hsent, by simpa using howns.permit⟩

/-- A scan that sent its order, and is between two passes. -/
theorem orders_in_version_order_once :
    ∃ c l, c.thread (.scanner true) = .idle l ∧ (c.shared.2.sent true).length = 1 ∧
      ScanSent twoScans true l (c.shared.2.sent true) ∧ true ∉ c.shared.2.permits ∧
      (ledgerTrading Unit twoScans 64).Reachable System.Unrestricted
        (tradingStart Bool Unit ⟨1, 10, 5, 1, 0, 0⟩ openIntervals 0, .empty) noPasses c := by
  let isIdle : Activity TraderOp TraderAns ScanState → Bool
    | .idle _ => true
    | .running _ => false
  obtain ⟨c, hc, hidle, hsent⟩ : ∃ c, (ledgerTrading Unit twoScans 64).Reachable
      System.Unrestricted
      (tradingStart Bool Unit ⟨1, 10, 5, 1, 0, 0⟩ openIntervals 0, .empty) noPasses c ∧
        isIdle (c.thread (.scanner true)) = true ∧ (c.shared.2.sent true).length = 1 :=
    System.exists_of_schedule overReset (by decide +kernel)
  cases hl : c.thread (.scanner true) with
  | idle l =>
    obtain ⟨horders, hpermit⟩ := orders_in_version_order (by decide) (by decide) hc hl
    exact ⟨c, l, hl, hsent, horders, hpermit, hc⟩
  | running p =>
    rw [hl] at hidle
    cases hidle

end Results

end UmTaker.Trader
