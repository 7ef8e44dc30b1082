import UmTaker.Common.AutoResetCounter
import UmTaker.Concurrency.RWLock
import Mathlib.Data.List.AList

/-!
# The best-path order limiter

`AutoResetOrderLimiter` grants an order when both its windows have a semaphore left.
`AutoResetOrderLimiterBoss` asks two of them in a row: that of the account, then that of the local
IP; when the second one refuses, the account gets its semaphore back. Requests hold the lock of the
boss shared, the refresh and the insertion of a new limiter hold it exclusively.

## Main definitions

* `AutoResetOrderLimiter`: a window of seconds and a window of minutes
* `BossOp`, `bossExec`: the atomic operations behind the lock of the boss
* `getOrderSemaphore`, `refreshAllLimiters`, `createIpLimiter`: the programs
* `BossData`: the limiters, with the ledger of the account's semaphores
* `orderLimiterBoss`: any number of threads that run these programs
-/

namespace UmTaker.Trader

open Concurrency

/-! ## One limiter -/

/-- The arguments of a new limiter, and the clock readings of its windows. -/
structure LimiterArgs where
  secondSemaphoreCount : ℤ
  durationSecond : ℤ
  minuteSemaphoreCount : ℤ
  durationMinute : ℤ
  secondNow : ℕ
  minuteNow : ℕ

/-- A limiter of orders: a window of seconds and a window of minutes. -/
structure AutoResetOrderLimiter where
  second : SemaphoreWindow
  minute : SemaphoreWindow
  deriving DecidableEq

namespace AutoResetOrderLimiter

/-- `init`, as the boss calls it: the durations come in seconds and minutes. -/
def init (args : LimiterArgs) : AutoResetOrderLimiter where
  second := .init args.secondSemaphoreCount (u64 (args.durationSecond * 1000)) args.secondNow
  minute := .init args.minuteSemaphoreCount (u64 (args.durationMinute * 60 * 1000)) args.minuteNow

/-- `reset_if_cycle_end`: each window by itself. -/
def resetIfCycleEnd (limiter : AutoResetOrderLimiter) (now : ℕ) : AutoResetOrderLimiter where
  second := limiter.second.resetIfCycleEnd now
  minute := limiter.minute.resetIfCycleEnd now

/-- `get_order_semaphore`: from both windows or from none. -/
def getOrderSemaphore (limiter : AutoResetOrderLimiter) (requireNum : ℤ) :
    Bool × AutoResetOrderLimiter :=
  if requireNum ≤ limiter.second.remainCount ∧ requireNum ≤ limiter.minute.remainCount then
    (true, ⟨limiter.second.take requireNum, limiter.minute.take requireNum⟩)
  else (false, limiter)

/-- `return_order_semaphore`: each window takes back what fits under its initial count. -/
def returnOrderSemaphore (limiter : AutoResetOrderLimiter) (returnNum : ℤ) :
    AutoResetOrderLimiter where
  second := limiter.second.giveBack returnNum
  minute := limiter.minute.giveBack returnNum

/-- A request is granted out of both windows, or leaves the limiter as it is. -/
theorem getOrderSemaphore_cases (limiter : AutoResetOrderLimiter) (n : ℤ) :
    (n ≤ limiter.second.remainCount ∧ n ≤ limiter.minute.remainCount ∧
      limiter.getOrderSemaphore n = (true, ⟨limiter.second.take n, limiter.minute.take n⟩)) ∨
    limiter.getOrderSemaphore n = (false, limiter) := by
  unfold getOrderSemaphore
  split_ifs with h
  · exact Or.inl ⟨h.1, h.2, rfl⟩
  · exact Or.inr rfl

end AutoResetOrderLimiter

/-! ## The data of the boss -/

/-- The limiters of the account and of the local IPs, and the ledger of the account's semaphores:
the threads that hold one, and for each window the calls that were granted both semaphores since
its last reset. -/
structure BossData (T : Type) where
  accountLimiter : AutoResetOrderLimiter
  ipLimiterMap : AList fun _ : String => AutoResetOrderLimiter
  holding : Finset T
  secondGranted : ℕ
  minuteGranted : ℕ

namespace BossData

variable {T : Type}

/-- `init`: no IP has a limiter yet. -/
def init (args : LimiterArgs) : BossData T where
  accountLimiter := .init args
  ipLimiterMap := ∅
  holding := ∅
  secondGranted := 0
  minuteGranted := 0

/-- Ask the account's limiter; who is granted a semaphore holds it. -/
def getAccountSemaphore [DecidableEq T] (t : T) (requireNum : ℤ) (d : BossData T) :
    Bool × BossData T :=
  let r := d.accountLimiter.getOrderSemaphore requireNum
  (r.1, { d with accountLimiter := r.2, holding := if r.1 then insert t d.holding else d.holding })

/-- Return a semaphore to the account's limiter. -/
def returnAccountSemaphore [DecidableEq T] (t : T) (returnNum : ℤ) (d : BossData T) :
    BossData T :=
  { d with
    accountLimiter := d.accountLimiter.returnOrderSemaphore returnNum
    holding := d.holding.erase t }

/-- A call returns: granted both semaphores, it turns the one it holds into an order. -/
def returnResult [DecidableEq T] (t : T) (hasAccountSemaphore hasIpSemaphore : Bool)
    (d : BossData T) : BossData T :=
  if hasAccountSemaphore && hasIpSemaphore then
    { d with
      holding := d.holding.erase t
      secondGranted := d.secondGranted + 1
      minuteGranted := d.minuteGranted + 1 }
  else d

/-- Reset the account's limiter; the ledger of a window starts again with it. -/
def resetAccount (now : ℕ) (d : BossData T) : BossData T :=
  { d with
    accountLimiter := d.accountLimiter.resetIfCycleEnd now
    secondGranted := if d.accountLimiter.second.cycleEnded now then 0 else d.secondGranted
    minuteGranted := if d.accountLimiter.minute.cycleEnded now then 0 else d.minuteGranted }

/-- `ip_limiter_map[local_ip] = limiter`. -/
def setIpLimiter (localIp : String) (limiter : AutoResetOrderLimiter) (d : BossData T) :
    BossData T :=
  { d with ipLimiterMap := d.ipLimiterMap.insert localIp limiter }

theorem lookup_setIpLimiter (d : BossData T) (localIp other : String)
    (limiter : AutoResetOrderLimiter) :
    (d.setIpLimiter localIp limiter).ipLimiterMap.lookup other =
      if other = localIp then some limiter else d.ipLimiterMap.lookup other := by
  unfold setIpLimiter
  split_ifs with h
  · rw [h, AList.lookup_insert]
  · exact AList.lookup_insert_ne h

end BossData

/-! ## Operations and programs -/

/-- An atomic operation on the boss. Every limiter has a lock of its own, which makes each request
to it atomic. -/
inductive BossOp
  | lockShared
  | unlockShared
  | lockExclusive
  | unlockExclusive
  | getAccountSemaphore (requireNum : ℤ)
  | findIpLimiter (localIp : String)
  | getIpSemaphore (localIp : String) (requireNum : ℤ)
  | returnAccountSemaphore (returnNum : ℤ)
  | returnResult (hasAccountSemaphore hasIpSemaphore : Bool)
  | countIpLimiters
  | setIpLimiter (localIp : String) (limiter : AutoResetOrderLimiter)
  | resetAccount (now : ℕ)
  | listIpLimiters
  | resetIp (localIp : String) (now : ℕ)

abbrev BossAns : BossOp → Type
  | .getAccountSemaphore _ => Bool
  | .findIpLimiter _ => Bool
  | .getIpSemaphore _ _ => Bool
  | .countIpLimiters => ℤ
  | .listIpLimiters => List String
  | _ => Unit

variable {T : Type} [DecidableEq T]

/-- The boss with its lock. -/
abbrev Boss (T : Type) := RWLocked T (BossData T)

/-- An operation carried out. An operation on the limiter of an IP follows the iterator of a find,
and has no answer where there is none. -/
def bossExec (t : T) : (o : BossOp) → Boss T → Option (Boss T × BossAns o)
  | .lockShared, s => (s.lockShared t).map fun s' => (s', ())
  | .unlockShared, s => some (s.unlockShared t, ())
  | .lockExclusive, s => (s.lockExclusive t).map fun s' => (s', ())
  | .unlockExclusive, s => some (s.unlockExclusive, ())
  | .getAccountSemaphore requireNum, s =>
    let r := s.data.getAccountSemaphore t requireNum
    some ({ s with data := r.2 }, r.1)
  | .findIpLimiter localIp, s => some (s, (s.data.ipLimiterMap.lookup localIp).isSome)
  | .getIpSemaphore localIp requireNum, s =>
    (s.data.ipLimiterMap.lookup localIp).map fun limiter =>
      let r := limiter.getOrderSemaphore requireNum
      ({ s with data := s.data.setIpLimiter localIp r.2 }, r.1)
  | .returnAccountSemaphore returnNum, s =>
    some ({ s with data := s.data.returnAccountSemaphore t returnNum }, ())
  -- the return destroys the shared lock of the call
  | .returnResult hasAccountSemaphore hasIpSemaphore, s =>
    some ({ s with
      data := s.data.returnResult t hasAccountSemaphore hasIpSemaphore
      readers := s.readers.erase t }, ())
  | .countIpLimiters, s => some (s, s.data.ipLimiterMap.keys.length)
  | .setIpLimiter localIp limiter, s =>
    some ({ s with data := s.data.setIpLimiter localIp limiter }, ())
  | .resetAccount now, s => some ({ s with data := s.data.resetAccount now }, ())
  | .listIpLimiters, s => some (s, s.data.ipLimiterMap.keys)
  | .resetIp localIp now, s =>
    (s.data.ipLimiterMap.lookup localIp).map fun limiter =>
      ({ s with data := s.data.setIpLimiter localIp (limiter.resetIfCycleEnd now) }, ())

abbrev BossProg := Prog BossOp BossAns

/-- Return a pair, which gives up the shared lock. -/
def returnPair (hasAccountSemaphore hasIpSemaphore : Bool) : BossProg (Bool × Bool) := do
  Prog.call (BossOp.returnResult hasAccountSemaphore hasIpSemaphore)
  pure (hasAccountSemaphore, hasIpSemaphore)

/-- `AutoResetOrderLimiterBoss::get_order_semaphore`. -/
def getOrderSemaphore (localIp : String) (requireNum : ℤ) : BossProg (Bool × Bool) := do
  Prog.call BossOp.lockShared
  let hasAccountSemaphore ← Prog.call (BossOp.getAccountSemaphore requireNum)
  if !hasAccountSemaphore then
    returnPair hasAccountSemaphore false
  else do
    let found ← Prog.call (BossOp.findIpLimiter localIp)
    -- no IP limiter: the account gets its semaphore back
    if !found then do
      Prog.call (BossOp.returnAccountSemaphore requireNum)
      returnPair hasAccountSemaphore false
    else do
      let hasIpSemaphore ← Prog.call (BossOp.getIpSemaphore localIp requireNum)
      if !hasIpSemaphore then do
        Prog.call (BossOp.returnAccountSemaphore requireNum)
        returnPair hasAccountSemaphore hasIpSemaphore
      else
        returnPair hasAccountSemaphore hasIpSemaphore

/-- One pass of `refresh_all_limiters`, at the clock reading before it takes the lock. -/
def refreshAllLimiters (now : ℕ) : BossProg Unit := do
  Prog.call BossOp.lockExclusive
  Prog.call (BossOp.resetAccount now)
  let ips : List String ← Prog.call BossOp.listIpLimiters
  ips.forM fun ip => Prog.call (BossOp.resetIp ip now)
  Prog.call BossOp.unlockExclusive

/-- `create_ip_limiter`: the look under the shared lock and the insertion under the exclusive lock
are two steps. -/
def createIpLimiter (maxCapacity : ℤ) (localIp : String) (args : LimiterArgs) :
    BossProg Bool := do
  Prog.call BossOp.lockShared
  let ipLimiterCount ← Prog.call BossOp.countIpLimiters
  let ipLimiterExists ← Prog.call (BossOp.findIpLimiter localIp)
  -- from here to the exclusive lock the map may change
  Prog.call BossOp.unlockShared
  if ipLimiterExists then
    pure false
  else if maxCapacity ≤ ipLimiterCount then
    pure false
  else do
    Prog.call BossOp.lockExclusive
    Prog.call (BossOp.setIpLimiter localIp (.init args))
    Prog.call BossOp.unlockExclusive
    pure true

/-- What a thread may call. -/
inductive BossCall
  | getOrderSemaphore (localIp : String)
  | refreshAllLimiters (now : ℕ)
  | createIpLimiter (localIp : String) (args : LimiterArgs)

/-- Any number of threads at the boss; a request asks for one semaphore, as the trader does. -/
def orderLimiterBoss (T : Type) [DecidableEq T] (maxCapacity : ℤ) :
    System T (Boss T) (fun _ => Unit) (fun _ => BossCall) BossOp BossAns where
  exec := bossExec
  body
    | _, _, .getOrderSemaphore localIp => do
      let _ ← getOrderSemaphore localIp 1
      pure ()
    | _, _, .refreshAllLimiters now => refreshAllLimiters now
    | _, _, .createIpLimiter localIp args => do
      let _ ← createIpLimiter maxCapacity localIp args
      pure ()

end UmTaker.Trader
