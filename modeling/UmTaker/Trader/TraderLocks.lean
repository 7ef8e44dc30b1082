import UmTaker.Concurrency.LockOrder
import UmTaker.Trader.BestPathOrders
import Mathlib.Data.Finite.Sum

/-!
# The locks of the trader

The programs of the trader over the best path, with every lock they take. The limiter of the account
and those of the IPs are asked behind the lock of their boss, and each takes a lock of its own; a
connection is started behind the lock of the manager; the counters of the intervals are reached
through the boss of the intervals by those who ask for them, and through the boss of the counters by
the thread that refreshes them.

What the operations under the locks answer is arbitrary, and so is which of the requests waiting at
it a lock admits: the standard library leaves open whether a shared request may pass an exclusive
one that waits.

## Main definitions

* `TraderLock`, `TraderLock.rank`: the locks, and the order they are taken in
* `bossLocks`, `serviceLocks`, `traderLocked`: the locks each operation takes
* `refreshCounters`, `createNewCounter`, `startIntervals`: the functions of the counters
* `traderLocks`: the threads behind their locks

## Main results

* `trader_calls_end`: the threads never block each other for good
-/

namespace UmTaker.Trader

open Concurrency Concurrency.System.Move Shm

/-! ## The locks -/

/-- A lock: each is the `rw_lock` of an object. The limiter of an IP is told by its IP, a connection
by its pair of IPs, and a counter by its place. -/
inductive TraderLock
  | orderServiceManager
  | wsClientWrapper (ipPair : String)
  | orderLimiterBoss
  | accountLimiter
  | ipLimiter (localIp : String)
  | orderIntervalBoss
  | counterBoss
  | counter (ref : ℕ)
  deriving DecidableEq

/-- The managers and bosses come before what they look after. -/
def TraderLock.rank : TraderLock → ℕ
  | .orderServiceManager | .orderLimiterBoss | .orderIntervalBoss => 0
  | .wsClientWrapper _ | .accountLimiter | .ipLimiter _ | .counterBoss => 1
  | .counter _ => 2

/-- An operation on the data: of the trader, or on the intervals and their counters. -/
inductive TraderDatum
  | trader (o : TraderOp)
  | startService (ipPair : String)
  | startLimiters
  | findInterval (symbol : String)
  | peekRemainSemaphoreCount (ref : ℕ)
  | getSemaphore (ref : ℕ) (requireCount : ℤ)
  | listCounters
  | findCounter (counterId : String)
  | resetIfCycleEnd (ref now : ℕ)
  | countCounters
  | insertCounter
  | isIntervalBossStarted
  | setIntervalBossStarted
  | startCounters

abbrev TraderDatumAns : TraderDatum → Type
  | .trader o => TraderAns o
  | .findInterval _ => Option ℕ
  | .peekRemainSemaphoreCount _ => ℤ
  | .getSemaphore _ _ => Bool
  | .listCounters => List ℕ
  | .findCounter _ => Option ℕ
  | .resetIfCycleEnd _ _ => Bool
  | .countCounters => ℤ
  | .isIntervalBossStarted => Bool
  | _ => Unit

abbrev TraderLockProg := LockProg TraderLock TraderDatumAns

/-! ## The operations with their locks -/

/-- An operation of the trader on the data. -/
def traderDatum (o : TraderOp) : TraderLockProg (TraderAns o) := Prog.datum (TraderDatum.trader o)

/-- An operation on the limiters. The lock of the boss is taken and given up by operations of its
own; the destructor of a `shared_lock` gives it up with the return. -/
def bossLocks : (o : BossOp) → TraderLockProg (BossAns o)
  | .lockShared => Prog.lock .orderLimiterBoss .shared
  | .unlockShared => Prog.unlock .orderLimiterBoss
  | .lockExclusive => Prog.lock .orderLimiterBoss .exclusive
  | .unlockExclusive => Prog.unlock .orderLimiterBoss
  | .getAccountSemaphore requireNum =>
    Prog.locked .accountLimiter .exclusive (traderDatum (.boss (.getAccountSemaphore requireNum)))
  | .findIpLimiter localIp => traderDatum (.boss (.findIpLimiter localIp))
  | .getIpSemaphore localIp requireNum =>
    Prog.locked (.ipLimiter localIp) .exclusive
      (traderDatum (.boss (.getIpSemaphore localIp requireNum)))
  | .returnAccountSemaphore returnNum =>
    Prog.locked .accountLimiter .exclusive (traderDatum (.boss (.returnAccountSemaphore returnNum)))
  | .returnResult hasAccountSemaphore hasIpSemaphore => do
    traderDatum (.boss (.returnResult hasAccountSemaphore hasIpSemaphore))
    Prog.unlock .orderLimiterBoss
  | .countIpLimiters => traderDatum (.boss .countIpLimiters)
  | .setIpLimiter localIp limiter => traderDatum (.boss (.setIpLimiter localIp limiter))
  | .resetAccount now =>
    Prog.locked .accountLimiter .exclusive (traderDatum (.boss (.resetAccount now)))
  | .listIpLimiters => traderDatum (.boss .listIpLimiters)
  | .resetIp localIp now =>
    Prog.locked (.ipLimiter localIp) .exclusive (traderDatum (.boss (.resetIp localIp now)))

/-- A method of the manager. A connection that is new is started before the manager's lock is given
up. -/
def serviceLocks : (o : ServiceOp) → TraderLockProg (ServiceAns o)
  | .updateBestService symbol localIp remoteIp =>
    Prog.locked .orderServiceManager .exclusive do
      let newService : Bool ← traderDatum (.service (.updateBestService symbol localIp remoteIp))
      if newService then do
        let ipPair := localIp ++ "_" ++ remoteIp
        Prog.locked (.wsClientWrapper ipPair) .exclusive
          (Prog.datum (TraderDatum.startService ipPair))
        pure newService
      else
        pure newService
  | .getAllServiceIpPairs =>
    Prog.locked .orderServiceManager .shared (traderDatum (.service .getAllServiceIpPairs))
  | .getInuseSymbolIpMapping =>
    Prog.locked .orderServiceManager .shared (traderDatum (.service .getInuseSymbolIpMapping))
  | .findUpdateExpiredService expiredMillis =>
    Prog.locked .orderServiceManager .shared
      (traderDatum (.service (.findUpdateExpiredService expiredMillis)))
  | .stopAndRemoveService reason ipPair =>
    Prog.locked .orderServiceManager .exclusive
      (traderDatum (.service (.stopAndRemoveService reason ipPair)))
  | .tick millis => traderDatum (.service (.tick millis))

/-- `AutoResetOrderIntervalBoss::has_more_semaphore`. -/
def hasMoreSemaphoreLocks (symbol : String) : TraderLockProg Bool :=
  Prog.locked .orderIntervalBoss .shared do
    let interval : Option ℕ ← Prog.datum (TraderDatum.findInterval symbol)
    match interval with
    | none => pure false
    | some ref => do
      let remain : ℤ ← Prog.locked (.counter ref) .shared
        (Prog.datum (TraderDatum.peekRemainSemaphoreCount ref))
      pure (decide (0 < remain))

/-- `AutoResetOrderIntervalBoss::burn_semaphore`. -/
def burnSemaphoreLocks (symbol : String) : TraderLockProg Bool :=
  Prog.locked .orderIntervalBoss .shared do
    let interval : Option ℕ ← Prog.datum (TraderDatum.findInterval symbol)
    match interval with
    | none => pure false
    | some ref =>
      Prog.locked (.counter ref) .exclusive (Prog.datum (TraderDatum.getSemaphore ref 1))

/-- `AutoResetCounter::reset_if_cycle_end`. -/
def resetIfCycleEndLocks (ref now : ℕ) : TraderLockProg Bool :=
  Prog.locked (.counter ref) .exclusive (Prog.datum (TraderDatum.resetIfCycleEnd ref now))

/-- What happens to an interval: a fill is reported, or the refresh comes to a counter. -/
def intervalLocks : IntervalCall → ℕ → TraderLockProg Unit
  | .burnSemaphore symbol, _ => do
    let _ ← burnSemaphoreLocks symbol
    pure ()
  | .refreshCounter counterId, now =>
    Prog.locked .counterBoss .exclusive do
      let counter : Option ℕ ← Prog.datum (TraderDatum.findCounter counterId)
      match counter with
      | none => pure ()
      | some ref => do
        let _ ← resetIfCycleEndLocks ref now
        pure ()

/-- An operation of the trader, with the locks it takes. -/
def traderLocked : (o : TraderOp) → TraderLockProg (TraderAns o)
  | .boss o => bossLocks o
  | .service o => serviceLocks o
  | .interval e => intervalLocks e.call e.time
  | .hasMoreSemaphore symbol => hasMoreSemaphoreLocks symbol
  | .getCurrentMsEpoch => traderDatum .getCurrentMsEpoch
  | .findIpPair symbol =>
    Prog.locked .orderServiceManager .shared (traderDatum (.findIpPair symbol))
  | .findService ipPair =>
    Prog.locked .orderServiceManager .shared (traderDatum (.findService ipPair))
  | .getLocalIp service => traderDatum (.getLocalIp service)
  | .isStopped service => traderDatum (.isStopped service)
  | .sendOrder service order => traderDatum (.sendOrder service order)

/-! ## The functions of the counters -/

/-- A pass of `AutoResetCounterBoss::refresh_counters`, with all the counters behind one lock. -/
def refreshCounters (now : ℕ) : TraderLockProg Unit :=
  Prog.locked .counterBoss .exclusive do
    let counters : List ℕ ← Prog.datum TraderDatum.listCounters
    counters.forM fun ref => do
      let _ ← resetIfCycleEndLocks ref now
      pure ()

/-- `AutoResetCounterBoss::create_new_counter`: the look at the size and the insertion are two
steps. -/
def createNewCounterLocks (maxCapacity : ℤ) : TraderLockProg Unit := do
  Prog.lock .counterBoss .shared
  let existsCount : ℤ ← Prog.datum TraderDatum.countCounters
  Prog.unlock .counterBoss
  if maxCapacity ≤ existsCount then
    pure ()
  else
    Prog.locked .counterBoss .exclusive (Prog.datum TraderDatum.insertCounter)

/-- `AutoResetOrderIntervalBoss::start`, which starts the boss of the counters. -/
def startIntervals : TraderLockProg Unit :=
  Prog.locked .orderIntervalBoss .exclusive do
    let isStarted : Bool ← Prog.datum TraderDatum.isIntervalBossStarted
    if isStarted then
      pure ()
    else do
      Prog.locked .counterBoss .exclusive (Prog.datum TraderDatum.startCounters)
      Prog.datum TraderDatum.setIntervalBossStarted

/-- `AutoResetOrderLimiterBoss::start`. -/
def startLimiters : TraderLockProg Unit :=
  Prog.locked .orderLimiterBoss .exclusive (Prog.datum TraderDatum.startLimiters)

/-! ## Every program takes its locks in order -/

section Takes

variable {held held' : Finset TraderLock} {k : TraderLock} {m : LockMode} {α : Type}

/-- A program takes its locks in the order of the trader. -/
abbrev Ordered (held held' : Finset TraderLock) (p : TraderLockProg α) : Prop :=
  p.Takes TraderLock.rank held' none held

/-- A lock of the second level under one of the first, or none. -/
theorem ordered_locked_datum (o : TraderDatum) (hk : ∀ h ∈ held, h.rank < k.rank) :
    Ordered held held (Prog.locked k m (Prog.datum o)) :=
  .locked hk (.datum o)

/-- A lock taken with none held. -/
theorem ordered_locked {p : TraderLockProg α} (hp : Ordered {k} {k} p) :
    Ordered ∅ ∅ (Prog.locked k m p) :=
  .locked (fun _ h => absurd h (Finset.notMem_empty _)) (by simpa using hp)

theorem rank_lt_of_mem_singleton {k' : TraderLock} (h : k'.rank < k.rank) :
    ∀ h ∈ ({k'} : Finset TraderLock), h.rank < k.rank := by
  intro h' hmem
  obtain rfl := Finset.mem_singleton.mp hmem
  exact h

/-- The operations on the limiters other than the lock of their boss. -/
def InsideBoss : BossOp → Prop
  | .lockShared | .unlockShared | .lockExclusive | .unlockExclusive | .returnResult _ _ => False
  | _ => True

/-- Behind the lock of the boss, each limiter's own lock is taken and given up. -/
theorem bossLocks_ordered {o : BossOp} (ho : InsideBoss o) :
    Ordered {.orderLimiterBoss} {.orderLimiterBoss} (bossLocks o) := by
  cases o with
  | lockShared => exact ho.elim
  | unlockShared => exact ho.elim
  | lockExclusive => exact ho.elim
  | unlockExclusive => exact ho.elim
  | returnResult => exact ho.elim
  | getAccountSemaphore n => exact ordered_locked_datum _ (rank_lt_of_mem_singleton Nat.one_pos)
  | getIpSemaphore ip n => exact ordered_locked_datum _ (rank_lt_of_mem_singleton Nat.one_pos)
  | returnAccountSemaphore n => exact ordered_locked_datum _ (rank_lt_of_mem_singleton Nat.one_pos)
  | resetAccount now => exact ordered_locked_datum _ (rank_lt_of_mem_singleton Nat.one_pos)
  | resetIp ip now => exact ordered_locked_datum _ (rank_lt_of_mem_singleton Nat.one_pos)
  | _ => exact .datum _

theorem lockBoss_ordered : Ordered ∅ {.orderLimiterBoss} (Prog.lock .orderLimiterBoss m) :=
  .lock fun _ h => absurd h (Finset.notMem_empty _)

theorem unlockBoss_ordered : Ordered {.orderLimiterBoss} ∅ (Prog.unlock .orderLimiterBoss) := by
  have h : Ordered {.orderLimiterBoss} (Finset.erase {.orderLimiterBoss} .orderLimiterBoss)
    (Prog.unlock .orderLimiterBoss) := .unlock (Finset.mem_singleton_self _)
  rwa [Finset.erase_singleton] at h

/-- A return gives up the lock of the boss. -/
theorem returnPair_ordered (hasAccountSemaphore hasIpSemaphore : Bool) :
    Ordered {.orderLimiterBoss} ∅
      ((returnPair hasAccountSemaphore hasIpSemaphore).expand bossLocks) :=
  .expand_call (.bind (.datum _) fun _ => unlockBoss_ordered) fun _ => .ret _

theorem getOrderSemaphore_ordered (localIp : String) (requireNum : ℤ) :
    Ordered ∅ ∅ ((getOrderSemaphore localIp requireNum).expand bossLocks) := by
  refine .expand_call lockBoss_ordered fun _ => ?_
  refine .expand_call (bossLocks_ordered trivial) fun hasAccountSemaphore => ?_
  refine .expand_ite (returnPair_ordered _ _) ?_
  refine .expand_call (bossLocks_ordered trivial) fun found => ?_
  refine .expand_ite ?_ ?_
  · exact .expand_call (bossLocks_ordered trivial) fun _ => returnPair_ordered _ _
  · refine .expand_call (bossLocks_ordered trivial) fun hasIpSemaphore => ?_
    refine .expand_ite ?_ (returnPair_ordered _ _)
    exact .expand_call (bossLocks_ordered trivial) fun _ => returnPair_ordered _ _

theorem refreshAllLimiters_ordered (now : ℕ) :
    Ordered ∅ ∅ ((refreshAllLimiters now).expand bossLocks) := by
  refine .expand_call lockBoss_ordered fun _ => ?_
  refine .expand_call (bossLocks_ordered trivial) fun _ => ?_
  refine .expand_call (bossLocks_ordered trivial) fun ips => ?_
  refine .expand_bind ?_ fun _ => .expand_call unlockBoss_ordered fun _ => .ret _
  -- the limiters of the IPs, one after the other
  exact .expand (fun _ => bossLocks_ordered) (.forM _ fun _ _ => .call trivial)

theorem createIpLimiter_ordered (maxCapacity : ℤ) (localIp : String) (args : LimiterArgs) :
    Ordered ∅ ∅ ((createIpLimiter maxCapacity localIp args).expand bossLocks) := by
  refine .expand_call lockBoss_ordered fun _ => ?_
  refine .expand_call (bossLocks_ordered trivial) fun ipLimiterCount => ?_
  refine .expand_call (bossLocks_ordered trivial) fun ipLimiterExists => ?_
  refine .expand_call unlockBoss_ordered fun _ => ?_
  refine .expand_ite (.ret _) (.expand_ite (.ret _) ?_)
  refine .expand_call lockBoss_ordered fun _ => ?_
  refine .expand_call (bossLocks_ordered trivial) fun _ => ?_
  exact .expand_call unlockBoss_ordered fun _ => .ret _

theorem serviceLocks_ordered (o : ServiceOp) : Ordered ∅ ∅ (serviceLocks o) := by
  cases o with
  | updateBestService symbol localIp remoteIp =>
    refine ordered_locked (.bind (.datum _) fun newService => .ite ?_ (.ret _))
    -- a new connection is started behind the lock of the manager
    exact .bind (ordered_locked_datum _ (rank_lt_of_mem_singleton Nat.one_pos)) fun _ => .ret _
  | tick millis => exact .datum _
  | _ => exact ordered_locked (.datum _)

theorem resetIfCycleEndLocks_ordered (ref now : ℕ) :
    Ordered {.counterBoss} {.counterBoss} (resetIfCycleEndLocks ref now) :=
  ordered_locked_datum _ (rank_lt_of_mem_singleton Nat.one_lt_two)

theorem hasMoreSemaphoreLocks_ordered (symbol : String) :
    Ordered ∅ ∅ (hasMoreSemaphoreLocks symbol) := by
  refine ordered_locked (.bind (.datum _) fun interval => ?_)
  cases interval with
  | none => exact .ret _
  | some ref =>
    exact .bind (ordered_locked_datum _ (rank_lt_of_mem_singleton Nat.two_pos)) fun _ => .ret _

theorem burnSemaphoreLocks_ordered (symbol : String) :
    Ordered ∅ ∅ (burnSemaphoreLocks symbol) := by
  refine ordered_locked (.bind (.datum _) fun interval => ?_)
  cases interval with
  | none => exact .ret _
  | some ref => exact ordered_locked_datum _ (rank_lt_of_mem_singleton Nat.two_pos)

theorem intervalLocks_ordered (call : IntervalCall) (now : ℕ) :
    Ordered ∅ ∅ (intervalLocks call now) := by
  cases call with
  | burnSemaphore symbol => exact .bind (burnSemaphoreLocks_ordered symbol) fun _ => .ret _
  | refreshCounter counterId =>
    refine ordered_locked (.bind (.datum _) fun counter => ?_)
    cases counter with
    | none => exact .ret _
    | some ref => exact .bind (resetIfCycleEndLocks_ordered ref now) fun _ => .ret _

/-- The operations of the trader other than those on the limiters. -/
def NotBoss : TraderOp → Prop
  | .boss _ => False
  | _ => True

theorem traderLocked_ordered {o : TraderOp} (ho : NotBoss o) : Ordered ∅ ∅ (traderLocked o) := by
  cases o with
  | boss o => exact ho.elim
  | service o => exact serviceLocks_ordered o
  | interval e => exact intervalLocks_ordered e.call e.time
  | hasMoreSemaphore symbol => exact hasMoreSemaphoreLocks_ordered symbol
  | findIpPair symbol => exact ordered_locked (.datum _)
  | findService ipPair => exact ordered_locked (.datum _)
  | _ => exact .datum _

/-- A program on the limiters takes the locks of its operations. -/
theorem atBoss_expand (p : BossProg α) : (atBoss p).expand traderLocked = p.expand bossLocks := by
  induction p with
  | ret a => rfl
  | perform o k ih => exact congrArg (bossLocks o >>= ·) (funext ih)

theorem atBoss_ordered {p : BossProg α} (hp : Ordered ∅ ∅ (p.expand bossLocks)) :
    Ordered ∅ ∅ ((atBoss p).expand traderLocked) := by
  rwa [atBoss_expand]

theorem findBestService_ordered (symbol : String) :
    Ordered ∅ ∅ ((findBestService symbol).expand traderLocked) := by
  refine .expand (fun _ => traderLocked_ordered) ?_
  exact .bind (.call trivial) fun _ => .ite (.ret _) (.call trivial)

theorem placeOrder_ordered (service : ServiceHandle) (order : BuiltOrder) :
    Ordered ∅ ∅ ((placeOrder service order).expand traderLocked) := by
  refine .expand (fun _ => traderLocked_ordered) ?_
  exact .bind (.call trivial) fun _ => .ite (.ret _) (.call trivial)

theorem tradeOverBestPath_ordered (symbol : String) (order : BuiltOrder) :
    Ordered ∅ ∅ ((tradeOverBestPath symbol order).expand traderLocked) := by
  refine .expand_bind (findBestService_ordered symbol) fun bestService => ?_
  cases bestService with
  | none => exact .ret _
  | some service =>
    refine .expand_call (traderLocked_ordered trivial) fun localIp => ?_
    refine .expand_bind (atBoss_ordered (getOrderSemaphore_ordered localIp 1)) fun _ => ?_
    exact .expand_ite (placeOrder_ordered service order) (.ret _)

theorem scanAndSendOrder_ordered {A : Type} (settings : TradingSettings A) (a : A) (l : ScanState)
    (shmOrder : OrderShm) (now : ℕ) :
    Ordered ∅ ∅ ((scanAndSendOrder settings a l shmOrder now).expand traderLocked) := by
  refine .expand_ite (.ret _) ?_
  refine .expand_call (traderLocked_ordered trivial) fun _ => .expand_ite ?_ (.ret _)
  exact .expand_bind (tradeOverBestPath_ordered _ _) fun _ => .ret _

theorem takeBestPath_ordered {A : Type} (settings : TradingSettings A) (maxCapacity : ℤ)
    (info : BestPathInfo) (secondNow minuteNow : ℕ) :
    Ordered ∅ ∅
      ((takeBestPath settings maxCapacity info secondNow minuteNow).expand traderLocked) := by
  refine .expand_call (traderLocked_ordered trivial) fun now => .expand_ite ?_ (.ret _)
  refine .expand_call (traderLocked_ordered trivial) fun newService => .expand_ite ?_ (.ret _)
  exact .expand_bind (atBoss_ordered (createIpLimiter_ordered _ _ _)) fun _ => .ret _

theorem takeBestPaths_ordered {A : Type} (settings : TradingSettings A) (maxCapacity : ℤ)
    (infos : List (BestPathInfo × ℕ × ℕ)) :
    Ordered ∅ ∅ ((infos.forM fun info =>
      takeBestPath settings maxCapacity info.1 info.2.1 info.2.2).expand traderLocked) := by
  induction infos with
  | nil => exact .ret _
  | cons info infos ih => exact .expand_bind (takeBestPath_ordered _ _ _ _ _) fun _ => ih

theorem atServices_ordered (p : ServiceProg α) :
    Ordered ∅ ∅ ((atServices p).expand traderLocked) := by
  refine .expand (fun _ => traderLocked_ordered) ((Prog.embed_performs _ _ p).mono ?_)
  rintro _ ⟨o, rfl⟩
  trivial

theorem workerBody_ordered {A : Type} (settings : TradingSettings A) (maxCapacity : ℤ)
    (call : WorkerCall) :
    Ordered ∅ ∅ ((workerBody settings maxCapacity call).expand traderLocked) := by
  cases call with
  | takeBestPaths infos => exact takeBestPaths_ordered settings maxCapacity infos
  | processOrderMessage event now =>
    refine .expand (fun _ => traderLocked_ordered) ?_
    cases event with
    | none => exact .ret _
    | some event => exact .ite (.call trivial) (.ret _)
  | serviceZookeeperRound => exact atServices_ordered _
  | refreshAllLimiters now => exact atBoss_ordered (refreshAllLimiters_ordered now)
  | refreshCounter counterId now =>
    exact .expand (fun _ => traderLocked_ordered) (.call trivial)
  | tick millis => exact .expand (fun _ => traderLocked_ordered) (.call trivial)

theorem refreshCounters_ordered (now : ℕ) : Ordered ∅ ∅ (refreshCounters now) := by
  refine ordered_locked (.bind (.datum _) fun counters => .forM _ fun ref _ => ?_)
  exact .bind (resetIfCycleEndLocks_ordered ref now) fun _ => .ret _

theorem createNewCounterLocks_ordered (maxCapacity : ℤ) :
    Ordered ∅ ∅ (createNewCounterLocks maxCapacity) := by
  have hunlock : Ordered {.counterBoss} ∅ (Prog.unlock .counterBoss) := by
    have h : Ordered {.counterBoss} (Finset.erase {.counterBoss} .counterBoss)
      (Prog.unlock .counterBoss) := .unlock (Finset.mem_singleton_self _)
    rwa [Finset.erase_singleton] at h
  refine .bind (.lock fun _ h => absurd h (Finset.notMem_empty _)) fun _ => ?_
  refine .bind (.datum _) fun existsCount => .bind hunlock fun _ => ?_
  exact .ite (.ret _) (ordered_locked (.datum _))

theorem startIntervals_ordered : Ordered ∅ ∅ startIntervals := by
  refine ordered_locked (.bind (.datum _) fun isStarted => .ite (.ret _) ?_)
  exact .bind (ordered_locked_datum _ (rank_lt_of_mem_singleton Nat.one_pos)) fun _ => .datum _

theorem startLimiters_ordered : Ordered ∅ ∅ startLimiters := ordered_locked (.datum _)

end Takes

/-! ## The threads behind their locks -/

/-- What the threads other than the scans do. -/
inductive LockedCall
  | worker (call : WorkerCall)
  | refreshCounters (now : ℕ)
  | createNewCounter (maxCapacity : ℤ)
  | startIntervals
  | startLimiters

abbrev LockedTraderCall {A U : Type} : TraderThread A U → Type
  | .scanner _ => OrderShm × ℕ
  | .worker _ => LockedCall

/-- What a thread runs, with the locks it takes. -/
def lockedCallBody {A : Type} (settings : TradingSettings A) (maxCapacity : ℤ) :
    LockedCall → TraderLockProg Unit
  | .worker call => (workerBody settings maxCapacity call).expand traderLocked
  | .refreshCounters now => refreshCounters now
  | .createNewCounter maxCapacity => createNewCounterLocks maxCapacity
  | .startIntervals => startIntervals
  | .startLimiters => startLimiters

variable {A U σ : Type} [DecidableEq A] [DecidableEq U]

/-- The threads of the trader behind their locks. -/
def traderLocks (settings : TradingSettings A) (maxCapacity : ℤ)
    (policy : TraderLock → LockPolicy (TraderThread A U))
    (exec : TraderThread A U → (d : TraderDatum) → σ → σ × TraderDatumAns d) :
    LockSystem (TraderThread A U) TraderLock σ TraderLocal LockedTraderCall TraderDatumAns where
  rank := TraderLock.rank
  policy := policy
  exec := exec
  body
    | .scanner a, l, x => (scanAndSendOrder settings a l x.1 x.2).expand traderLocked
    | .worker _, _, call => lockedCallBody settings maxCapacity call
  takes
    | .scanner a, l, x => scanAndSendOrder_ordered settings a l x.1 x.2
    | .worker _, _, call => by
      cases call with
      | worker call => exact workerBody_ordered settings maxCapacity call
      | refreshCounters now => exact refreshCounters_ordered now
      | createNewCounter maxCapacity => exact createNewCounterLocks_ordered maxCapacity
      | startIntervals => exact startIntervals_ordered
      | startLimiters => exact startLimiters_ordered

instance [Finite A] [Finite U] : Finite (TraderThread A U) :=
  .of_surjective (Sum.elim TraderThread.scanner TraderThread.worker) fun t => by
    cases t with
    | scanner a => exact ⟨.inl a, rfl⟩
    | worker u => exact ⟨.inr u, rfl⟩

/-- What the threads are at in a state reached: an exclusive holder of a lock is alone, some call
can go on while any is under way, and all of them can be brought to their end. -/
structure NeverStuck (S : LockSystem (TraderThread A U) TraderLock σ TraderLocal LockedTraderCall
    TraderDatumAns)
    (c : Config (TraderThread A U) (Guarded (TraderThread A U) TraderLock σ) TraderLocal
      (LockOp TraderLock TraderDatum) (LockAns TraderDatumAns)) : Prop where
  alone : ∀ k t u, (c.shared.queue k).writer = some t → (c.shared.queue k).Holds u → u = t
  goes : (∃ t p, c.thread t = .running p) → ∃ c', S.system.Goes System.Unrestricted c c'
  ends : ∃ c', Relation.ReflTransGen (S.system.Goes System.Unrestricted) c c' ∧
    ∀ t, ∃ l, c'.thread t = .idle l
  finite : Acc (fun c₂ c₁ => S.system.Goes System.Unrestricted c₁ c₂) c

/-- **The threads of the trader never block each other for good**, whatever the operations under the
locks answer and whichever requests the locks let in first: while a call is under way some call can
go on, the calls under way cannot go on for ever, and so they all end unless new ones come. -/
theorem trader_calls_end [Finite A] [Finite U] {settings : TradingSettings A} {maxCapacity : ℤ}
    {policy : TraderLock → LockPolicy (TraderThread A U)}
    {exec : TraderThread A U → (d : TraderDatum) → σ → σ × TraderDatumAns d} {d : σ} {c}
    (hc : (traderLocks settings maxCapacity policy exec).system.Reachable System.Unrestricted
      (LockSystem.start d) noPasses c) :
    NeverStuck (traderLocks settings maxCapacity policy exec) c where
  alone _ _ _ ht hu := LockSystem.excludes hc ht hu
  goes := fun ⟨_, _, ht⟩ => LockSystem.exists_goes hc ht
  ends := LockSystem.can_end hc
  finite := System.goes_wellFounded.apply c

instance (o : BossOp) : Inhabited (BossAns o) := ⟨by cases o <;> exact default⟩

instance (o : ServiceOp) : Inhabited (ServiceAns o) := ⟨by cases o <;> exact default⟩

instance (o : TraderOp) : Inhabited (TraderAns o) := ⟨by cases o <;> exact default⟩

instance (d : TraderDatum) : Inhabited (TraderDatumAns d) := ⟨by cases d <;> exact default⟩

/-- Answers that let an order through. -/
def obliging : (d : TraderDatum) → TraderDatumAns d
  | .findInterval _ => some 0
  | .peekRemainSemaphoreCount _ => (1 : ℤ)
  | .trader (.findIpPair _) => "10.0.0.1_10.0.0.2"
  | .trader (.findService _) => some default
  | .trader (.boss (.getAccountSemaphore _)) => true
  | _ => default

/-- A scan is at the limiter of the account when the refresh comes; another scan comes after it. -/
def threeAtBoss : List (System.Move (TraderThread Bool Unit) LockedTraderCall) :=
  let order : OrderShm := { instId := "BTCUSDC", updateTime := 1, versionNumber := 1 }
  List.flatten
    [beginCall (.scanner true) (order, 5) 21,
      beginCall (.worker ()) (.worker (.refreshAllLimiters 20000)) 1,
      beginCall (.scanner false) (order, 5) 18]

/-- The refresh waits for the first scan, and the second scan for the refresh. -/
theorem trader_calls_end_waiting :
    ∃ c, ((c.shared.queue .orderLimiterBoss).readers = {.scanner true} ∧
        (c.shared.queue .orderLimiterBoss).waiting =
          [(.worker (), .exclusive), (.scanner false, .shared)] ∧
        (c.shared.queue .accountLimiter).writer = some (.scanner true)) ∧
      NeverStuck (traderLocks twoScans 64 (fun _ => .writersFirst)
        fun _ d (s : Unit) => (s, obliging d)) c := by
  obtain ⟨c, hc, hwaiting⟩ : ∃ c, (traderLocks twoScans 64 (fun _ => .writersFirst)
      fun _ d (s : Unit) => (s, obliging d)).system.Reachable System.Unrestricted
        (LockSystem.start ()) noPasses c ∧
      ((c.shared.queue .orderLimiterBoss).readers = {.scanner true} ∧
        (c.shared.queue .orderLimiterBoss).waiting =
          [(.worker (), .exclusive), (.scanner false, .shared)] ∧
        (c.shared.queue .accountLimiter).writer = some (.scanner true)) :=
    System.exists_of_schedule threeAtBoss (by decide +kernel)
  exact ⟨c, hwaiting, trader_calls_end hc⟩

end UmTaker.Trader
