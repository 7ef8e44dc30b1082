import UmTaker.DbSource.MysqlSource
import UmTaker.General.ConditionVariable
import UmTaker.General.FailingLoops
import UmTaker.General.Run
import Mathlib.Data.List.Perm.Basic
import Mathlib.Data.List.Nodup

/-!
# Runs of the connection pool

Any number of threads get and release the connections of a pool. A thread that finds none, and no
room for another one, blocks on the pool's condition variable; a release notifies one thread, the
shutdown all of them.

## Main definitions

* `PoolState`, `PoolEvent`, `poolStep`: the pool with what is lent and who waits, and its steps
* `Disciplined`: what is released was lent, and the pool is not shut down
* `WakesFollow`, `NotifiedServed`: no thread is left behind, and the condition for it

## Main results

* `pool_accounts`: the pool counts the connections that are idle or lent, each of them once
* `no_wakeup_lost`: no thread is left blocked while a connection can be had, if no notified thread
  fails to get one while others are blocked
-/

namespace UmTaker.DbSource

/-! ## Steps -/

/-- The pool, the client library, the connections lent, and the threads at `pool_cv`. -/
structure PoolState (T : Type*) where
  pool : MySQLConnectionPool
  client : MysqlClient
  lent : List ℕ
  poolCv : ConditionVariable T

/-- A call of `getConnection`; the end of a wait, by a notification or of itself; a release, which
notifies a thread; the shutdown. -/
inductive PoolEvent (T : Type*)
  | getConnection (t : T)
  | wake (t : T)
  | releaseConnection (conn : ℕ) (notified : T)
  | shutdown

variable {T : Type*}

/-- The connection that a call returned. -/
def returned : Except String (Option ℕ) → List ℕ
  | .ok (some conn) => [conn]
  | _ => []

namespace PoolState

/-- A pool as it was constructed. -/
def start (pool : MySQLConnectionPool) (client : MysqlClient) : PoolState T :=
  ⟨pool, client, [], .empty⟩

section Steps

variable [DecidableEq T]

/-- `getConnection` with the lock held: it blocks, or goes through to its end. -/
def tryGet (s : PoolState T) (t : T) : PoolState T :=
  match s.pool.getConnection s.client with
  | none => { s with poolCv := s.poolCv.wait t }
  | some (r, pool, client) => ⟨pool, client, returned r ++ s.lent, s.poolCv.leave t⟩

/-- `releaseConnection`, which notifies a thread unless the pool is shut down. -/
def release (s : PoolState T) (conn : ℕ) (notified : T) : PoolState T :=
  { s with
    pool := s.pool.releaseConnection conn
    lent := s.lent.erase conn
    poolCv := if s.pool.isShutdown then s.poolCv else s.poolCv.notifyOne notified }

/-- `shutdown`, which notifies all threads. -/
def shutdown (s : PoolState T) : PoolState T :=
  { s with pool := s.pool.shutdown, poolCv := s.poolCv.notifyAll }

end Steps

end PoolState

/-- A step of the pool; an event that cannot happen changes nothing. -/
def poolStep [DecidableEq T] (s : PoolState T) : PoolEvent T → PoolState T
  -- a thread in its wait makes no call
  | .getConnection t => if s.poolCv.Waits t then s else s.tryGet t
  | .wake t => if s.poolCv.Waits t then s.tryGet t else s
  | .releaseConnection conn notified =>
    if s.poolCv.MayReach notified then s.release conn notified else s
  | .shutdown => s.shutdown

/-! ## The constructor -/

/-- What the constructor leaves: so many idle connections, under handles of their own. -/
structure Constructed (size maxSize : ℕ) (pool : MySQLConnectionPool) (client : MysqlClient) :
    Prop where
  poolSize : pool.poolSize = size
  idle : pool.connections.length = size
  maxPoolSize : pool.maxPoolSize = maxSize
  isShutdown : pool.isShutdown = false
  nodup : pool.connections.Nodup
  fresh : ∀ conn ∈ pool.connections, conn < client.nextConn

/-- One more connection is made. -/
theorem Constructed.push {size maxSize conn : ℕ} {pool : MySQLConnectionPool}
    {client client' : MysqlClient} (h : Constructed size maxSize pool client)
    (hcreate : createConnection client = (.ok conn, client')) :
    Constructed (size + 1) maxSize
      { pool with connections := pool.connections ++ [conn], poolSize := pool.poolSize + 1 }
      client' := by
  obtain ⟨-, hconn, hnext⟩ := createConnection_ok hcreate
  refine ⟨congrArg (· + 1) h.poolSize, ?_, h.maxPoolSize, h.isShutdown, ?_, ?_⟩
  · rw [List.length_append, h.idle]
    rfl
  · refine h.nodup.append (List.nodup_singleton conn) fun x hx hx' => ?_
    rw [List.mem_singleton.mp hx', hconn] at hx
    exact absurd (h.fresh _ hx) (lt_irrefl _)
  · intro x hx
    rcases List.mem_append.mp hx with hx | hx
    · have := h.fresh x hx
      omega
    · rw [List.mem_singleton.mp hx]
      omega

theorem constructed_construct {initialSize maxSize : ℕ} {client client' : MysqlClient}
    {pool : MySQLConnectionPool}
    (h : MySQLConnectionPool.construct initialSize maxSize client = .ok (pool, client')) :
    Constructed initialSize maxSize pool client' := by
  have hempty : Constructed 0 maxSize ⟨[], 0, maxSize, false⟩ client :=
    ⟨rfl, rfl, rfl, rfl, List.nodup_nil, fun _ h => absurd h List.not_mem_nil⟩
  have hdone := FailingLoop.foldlM_invariant
    (P := fun n (r : MySQLConnectionPool × MysqlClient) => Constructed n maxSize r.1 r.2)
    ?_ hempty h
  · rwa [Nat.zero_add, List.length_range] at hdone
  · intro n r _ r' hr hround
    cases hcreate : createConnection r.2 with
    | mk answer after =>
      simp only [hcreate] at hround
      cases answer with
      | error e => cases hround
      | ok conn =>
        cases hround
        exact hr.push hcreate

/-! ## Counting -/

/-- What is released was lent, and the pool is not shut down. -/
def Disciplined (s : PoolState T) : PoolEvent T → Prop
  | .releaseConnection conn _ => conn ∈ s.lent
  | .shutdown => False
  | _ => True

/-- The connections in the queue and those lent. -/
def PoolState.held (s : PoolState T) : List ℕ := s.pool.connections ++ s.lent

/-- The pool counts what it holds; no handle is held twice. -/
structure Accounted (maxSize : ℕ) (s : PoolState T) : Prop where
  isOpen : s.pool.isShutdown = false
  maxPoolSize : s.pool.maxPoolSize = maxSize
  size : s.pool.poolSize = s.held.length
  le_max : s.held.length ≤ maxSize
  nodup : s.held.Nodup
  fresh : ∀ conn ∈ s.held, conn < s.client.nextConn

theorem PoolState.held_of_idle {s : PoolState T} {conn : ℕ} {rest : List ℕ}
    (hidle : s.pool.connections = conn :: rest) : (rest ++ s.lent).Sublist s.held ∧
      s.held.length = (rest ++ s.lent).length + 1 := by
  rw [PoolState.held, hidle]
  exact ⟨List.sublist_cons_self conn _, rfl⟩

/-- Counters below their bound do not wrap around. -/
theorem u64_pred {n : ℕ} (h₀ : 0 < n) (h : n < 18446744073709551616) : u64 (n - 1) = n - 1 := by
  unfold u64
  omega

theorem u64_succ {n : ℕ} (h : n + 1 < 18446744073709551616) : u64 (n + 1) = n + 1 := by
  unfold u64
  omega

theorem u64_lt (x : ℤ) : u64 x < 18446744073709551616 := by
  unfold u64
  omega

/-- A counter that wraps around below zero comes back. -/
theorem u64_pred_succ {n : ℕ} (h : n < 18446744073709551616) : u64 (u64 (n - 1) + 1) = n := by
  rcases Nat.eq_zero_or_pos n with rfl | hpos
  · rfl
  · rw [u64_pred hpos h]
    have := u64_succ (n := n - 1) (by omega)
    omega

theorem sub_u64_pred_le {n size : ℕ} (hsize : size < 18446744073709551616)
    (h : n < 18446744073709551616) : size - u64 (n - 1) ≤ size - n + 1 := by
  rcases Nat.eq_zero_or_pos n with rfl | hpos
  · show size - 18446744073709551615 ≤ _
    omega
  · rw [u64_pred hpos h]
    omega

section Counting

variable {s s' : PoolState T} {maxSize : ℕ} {kept : List ℕ}

/-- Some of what is held is still held. -/
theorem Accounted.keep (h : Accounted maxSize s) (hkept : kept.Sublist s.held)
    (hheld : s'.held.Perm kept) (hopen : s'.pool.isShutdown = false)
    (hmax : s'.pool.maxPoolSize = maxSize) (hsize : s'.pool.poolSize = kept.length)
    (hnext : s.client.nextConn ≤ s'.client.nextConn) : Accounted maxSize s' where
  isOpen := hopen
  maxPoolSize := hmax
  size := hsize.trans hheld.length_eq.symm
  le_max := hheld.length_eq.trans_le (hkept.length_le.trans h.le_max)
  nodup := hheld.nodup_iff.mpr (h.nodup.sublist hkept)
  fresh conn hconn := (h.fresh conn (hkept.subset (hheld.subset hconn))).trans_le hnext

/-- A new handle joins some of what is held. -/
theorem Accounted.add (h : Accounted maxSize s) (hkept : kept.Sublist s.held)
    (hheld : s'.held.Perm (s.client.nextConn :: kept)) (hroom : kept.length < maxSize)
    (hopen : s'.pool.isShutdown = false) (hmax : s'.pool.maxPoolSize = maxSize)
    (hsize : s'.pool.poolSize = kept.length + 1)
    (hnext : s'.client.nextConn = s.client.nextConn + 1) : Accounted maxSize s' where
  isOpen := hopen
  maxPoolSize := hmax
  size := hsize.trans hheld.length_eq.symm
  le_max := hheld.length_eq.trans_le hroom
  nodup := by
    refine hheld.nodup_iff.mpr (List.nodup_cons.mpr ⟨fun hmem => ?_, h.nodup.sublist hkept⟩)
    exact absurd (h.fresh _ (hkept.subset hmem)) (lt_irrefl _)
  fresh conn hconn := by
    rw [hnext]
    rcases List.mem_cons.mp (hheld.subset hconn) with rfl | hmem
    · exact Nat.lt_succ_self _
    · exact (h.fresh conn (hkept.subset hmem)).trans (Nat.lt_succ_self _)

variable [DecidableEq T]

/-- A thread that tries to get a connection keeps the account. -/
theorem Accounted.tryGet (h : Accounted maxSize s) (hmax : maxSize < 18446744073709551616) (t : T) :
    Accounted maxSize (s.tryGet t) := by
  have hsize : s.pool.poolSize = s.held.length := h.size
  have hlt : s.held.length < 18446744073709551616 := h.le_max.trans_lt hmax
  unfold PoolState.tryGet
  cases hget : s.pool.getConnection s.client with
  | none =>
    exact h.keep (List.Sublist.refl _) (List.Perm.refl _) h.isOpen h.maxPoolSize hsize le_rfl
  | some result =>
    obtain ⟨r, pool, client⟩ := result
    cases MySQLConnectionPool.getConnection_outcome hget with
    | shutdown hshutdown => exact absurd (h.isOpen.symm.trans hshutdown) (by decide)
    | @alive conn rest hopen hidle hping =>
      refine h.keep (List.Sublist.refl s.held) ?_ hopen h.maxPoolSize hsize le_rfl
      rw [PoolState.held, PoolState.held, hidle]
      exact List.perm_middle
    | @replaced conn new rest client' hopen hidle hping hcreate =>
      obtain ⟨-, rfl, hnext⟩ := createConnection_ok hcreate
      obtain ⟨hkept, hlength⟩ := PoolState.held_of_idle hidle
      refine h.add hkept List.perm_middle ?_ hopen h.maxPoolSize ?_ hnext
      · have := h.le_max
        omega
      · show u64 (u64 (s.pool.poolSize - 1) + 1) = _
        rw [u64_pred (by omega) (by omega), u64_succ (by omega)]
        omega
    | @replacementFailed conn rest e client' hopen hidle hping hcreate =>
      -- the dead one is no longer counted, though the call throws
      obtain ⟨hkept, hlength⟩ := PoolState.held_of_idle hidle
      refine h.keep hkept (List.Perm.refl _) hopen h.maxPoolSize ?_
        (createConnection_error hcreate).2.ge
      show u64 (s.pool.poolSize - 1) = _
      rw [u64_pred (by omega) (by omega)]
      omega
    | @created new client' hopen hidle hroom hcreate =>
      obtain ⟨-, rfl, hnext⟩ := createConnection_ok hcreate
      have hheld : s.held = s.lent := by rw [PoolState.held, hidle, List.nil_append]
      have hroom : s.held.length < maxSize := by rwa [hsize, h.maxPoolSize] at hroom
      refine h.add (List.Sublist.refl s.held) ?_ hroom hopen h.maxPoolSize ?_ hnext
      · rw [hheld]
        exact List.Perm.refl _
      · show u64 (s.pool.poolSize + 1) = _
        rw [u64_succ (by omega), hsize]
    | creationFailed hopen hidle hroom hcreate =>
      exact h.keep (List.Sublist.refl _) (List.Perm.refl _) hopen h.maxPoolSize hsize
        (createConnection_error hcreate).2.ge

/-- A connection that was lent goes back to the queue. -/
theorem Accounted.release (h : Accounted maxSize s) {conn : ℕ} (hlent : conn ∈ s.lent) (t : T) :
    Accounted maxSize (s.release conn t) := by
  have hpool : s.pool.releaseConnection conn =
      { s.pool with connections := s.pool.connections ++ [conn] } := by
    rw [MySQLConnectionPool.releaseConnection, if_neg (Bool.eq_false_iff.mp h.isOpen)]
  have hheld : (s.release conn t).held.Perm s.held := by
    show ((s.pool.releaseConnection conn).connections ++ s.lent.erase conn).Perm _
    rw [hpool, List.append_assoc]
    exact (List.perm_cons_erase hlent).symm.append_left s.pool.connections
  refine h.keep (List.Sublist.refl _) hheld ?_ ?_ ?_ le_rfl
  · show (s.pool.releaseConnection conn).isShutdown = false
    rw [hpool]
    exact h.isOpen
  · show (s.pool.releaseConnection conn).maxPoolSize = maxSize
    rw [hpool]
    exact h.maxPoolSize
  · show (s.pool.releaseConnection conn).poolSize = s.held.length
    rw [hpool]
    exact h.size

theorem Accounted.step (h : Accounted maxSize s) (hmax : maxSize < 18446744073709551616)
    {e : PoolEvent T} (he : Disciplined s e) : Accounted maxSize (poolStep s e) := by
  cases e with
  | getConnection t =>
    rw [poolStep]
    split_ifs
    · exact h
    · exact h.tryGet hmax t
  | wake t =>
    rw [poolStep]
    split_ifs
    · exact h.tryGet hmax t
    · exact h
  | releaseConnection conn t =>
    rw [poolStep]
    split_ifs
    · exact h.release he t
    · exact h
  | shutdown => exact he.elim

/-- **The pool accounts for every connection**: in every state before the shutdown it counts those
in its queue and those lent, at most as many as it may have, and none of them twice. -/
theorem pool_accounts {initialSize maxSize : ℕ} {client client' : MysqlClient}
    {pool : MySQLConnectionPool} (hsize : initialSize ≤ maxSize)
    (hmax : maxSize < 18446744073709551616)
    (hpool : MySQLConnectionPool.construct initialSize maxSize client = .ok (pool, client'))
    (es : List (PoolEvent T)) (hes : Run.Every poolStep (.start pool client') Disciplined es) :
    let s := Run.after poolStep (.start pool client') es
    s.pool.poolSize = s.pool.connections.length + s.lent.length ∧
      s.pool.poolSize ≤ s.pool.maxPoolSize ∧ s.pool.maxPoolSize = maxSize ∧
      s.pool.connections.Nodup ∧ s.pool.connections.Disjoint s.lent := by
  intro s
  have hc := constructed_construct hpool
  have hstart : Accounted maxSize (PoolState.start pool client' : PoolState T) := by
    have hheld : (PoolState.start pool client' : PoolState T).held = pool.connections :=
      List.append_nil _
    exact
      { isOpen := hc.isShutdown
        maxPoolSize := hc.maxPoolSize
        size := by rw [hheld, hc.idle]; exact hc.poolSize
        le_max := by rw [hheld, hc.idle]; exact hsize
        nodup := by rw [hheld]; exact hc.nodup
        fresh := by rw [hheld]; exact hc.fresh }
  have hs : Accounted maxSize s :=
    hes.after_invariant hstart fun _ _ h he => h.step hmax he
  obtain ⟨hconnections, -, hdisjoint⟩ := List.nodup_append'.mp hs.nodup
  refine ⟨hs.size.trans List.length_append, ?_, hs.maxPoolSize, hconnections, hdisjoint⟩
  rw [hs.size, hs.maxPoolSize]
  exact hs.le_max

/-- A database that answers always, whose client library has made so many handles. -/
def answering (nextConn : ℕ) : MysqlClient where
  ping := Stream'.const true
  init := Stream'.const true
  realConnect := Stream'.const true
  query := Stream'.const true
  error := ""
  nextConn := nextConn

/-- The connection of a pool is lent and released, and another one created for a second thread. -/
theorem pool_accounts_two_threads :
    let s := Run.after poolStep (.start ⟨[0], 1, 2, false⟩ (answering 1))
      [.getConnection 0, .getConnection 1, .releaseConnection 0 2]
    s.pool.poolSize = s.pool.connections.length + s.lent.length ∧
      s.pool.poolSize ≤ s.pool.maxPoolSize ∧ s.pool.maxPoolSize = 2 ∧
      s.pool.connections.Nodup ∧ s.pool.connections.Disjoint s.lent := by
  refine @pool_accounts ℕ _ 1 2 (answering 0) (answering 1) _ (by decide) (by decide) rfl
    [.getConnection 0, .getConnection 1, .releaseConnection 0 2] ?_
  refine Run.every_cons.mpr ⟨trivial, Run.every_cons.mpr ⟨trivial, Run.every_cons.mpr ⟨?_, ?_⟩⟩⟩
  · show 0 ∈ _
    decide
  · exact Run.every_nil

end Counting

/-! ## Wake-ups -/

/-- A thread is notified while a blocked one could go on. -/
def WakesFollow (s : PoolState T) : Prop :=
  s.poolCv.blocked.Nonempty → s.pool.WaitPredicate → s.poolCv.notified.Nonempty

/-- A notified thread gets a connection, unless no other thread is blocked. -/
def NotifiedServed (s : PoolState T) : PoolEvent T → Prop
  | .wake t => t ∈ s.poolCv.notified → s.pool.Unobtainable s.client → s.poolCv.blocked = ∅
  | _ => True

/-- How many threads can go on: one for each idle connection and for each that may be created. -/
def slots (pool : MySQLConnectionPool) : ℕ :=
  pool.connections.length + (pool.maxPoolSize - pool.poolSize)

/-- No more slots are free than notifications pending, while a thread is blocked. -/
structure Served (s : PoolState T) : Prop where
  maxPoolSize_lt : s.pool.maxPoolSize < 18446744073709551616
  poolSize_lt : s.pool.poolSize < 18446744073709551616
  shutdown : s.pool.isShutdown = true → s.poolCv.blocked = ∅
  covered : s.poolCv.Covered (slots s.pool)

section WakeUps

/-- A thread that goes on takes at most one slot, and takes one if it got a connection. -/
theorem slots_of_outcome {pool pool' : MySQLConnectionPool} {client client' : MysqlClient}
    {r : Except String (Option ℕ)} (h : pool.GetOutcome client r pool' client')
    (hmax : pool.maxPoolSize < 18446744073709551616)
    (hsize : pool.poolSize < 18446744073709551616) :
    pool'.maxPoolSize = pool.maxPoolSize ∧ pool'.isShutdown = pool.isShutdown ∧
      pool'.poolSize < 18446744073709551616 ∧ slots pool' ≤ slots pool ∧
      ∀ conn, r = .ok (some conn) → slots pool' + 1 ≤ slots pool := by
  cases h with
  | shutdown hshutdown => exact ⟨rfl, rfl, hsize, le_rfl, fun conn hconn => by cases hconn⟩
  | alive hopen hidle hping =>
    refine ⟨rfl, rfl, hsize, ?_, fun _ _ => ?_⟩ <;> simp only [slots, hidle, List.length_cons] <;>
      omega
  | replaced hopen hidle hping hcreate =>
    rw [u64_pred_succ hsize]
    refine ⟨rfl, rfl, hsize, ?_, fun _ _ => ?_⟩ <;> simp only [slots, hidle, List.length_cons] <;>
      omega
  | replacementFailed hopen hidle hping hcreate =>
    have hroom := sub_u64_pred_le hmax hsize
    refine ⟨rfl, rfl, u64_lt _, ?_, fun conn hconn => by cases hconn⟩
    simp only [slots, hidle, List.length_cons]
    omega
  | created hopen hidle hroom hcreate =>
    rw [u64_succ (by omega)]
    refine ⟨rfl, rfl, ?_, ?_, fun _ _ => ?_⟩ <;> simp only [slots, hidle] <;> omega
  | creationFailed hopen hidle hroom hcreate =>
    exact ⟨rfl, rfl, hsize, le_rfl, fun conn hconn => by cases hconn⟩

variable {s : PoolState T}

/-- What is covered has a notification pending. -/
theorem Served.wakesFollow (h : Served s) : WakesFollow s := by
  intro hblocked hpredicate
  refine h.covered.notified_nonempty hblocked ?_
  rcases hpredicate with hidle | hshutdown | hroom
  · have := List.length_pos_of_ne_nil hidle
    unfold slots
    omega
  · exact absurd (h.shutdown hshutdown) hblocked.ne_empty
  · unfold slots
    omega

variable [DecidableEq T]

/-- A thread tries to get a connection: one that comes for it, or one that was woken. -/
theorem Served.tryGet (h : Served s) {t : T}
    (ht : t ∈ s.poolCv.notified → s.pool.Unobtainable s.client → s.poolCv.blocked = ∅) :
    Served (s.tryGet t) := by
  unfold PoolState.tryGet
  cases hget : s.pool.getConnection s.client with
  | none =>
    have hwait := MySQLConnectionPool.getConnection_eq_none_iff.mp hget
    simp only [MySQLConnectionPool.WaitPredicate, not_or, not_not, not_lt] at hwait
    obtain ⟨hidle, hopen, hfull⟩ := hwait
    have hslots : slots s.pool = 0 := by
      rw [slots, hidle, Nat.sub_eq_zero_of_le hfull]
      rfl
    refine ⟨h.maxPoolSize_lt, h.poolSize_lt, fun hshutdown => absurd hshutdown hopen, ?_⟩
    show (s.poolCv.wait t).Covered (slots s.pool)
    rw [hslots]
    exact ConditionVariable.covered_wait s.poolCv t
  | some result =>
    obtain ⟨r, pool, client⟩ := result
    have houtcome := MySQLConnectionPool.getConnection_outcome hget
    obtain ⟨hmax, hshutdown, hsize, hle, htaken⟩ :=
      slots_of_outcome houtcome h.maxPoolSize_lt h.poolSize_lt
    have hempty : s.poolCv.blocked = ∅ → (s.poolCv.leave t).blocked = ∅ := fun hblocked => by
      show s.poolCv.blocked.erase t = ∅
      rw [hblocked, Finset.erase_empty]
    refine ⟨hmax.trans_lt h.maxPoolSize_lt, hsize,
      fun hs => hempty (h.shutdown (hshutdown.symm.trans hs)), ?_⟩
    show (s.poolCv.leave t).Covered (slots pool)
    by_cases hnotified : t ∈ s.poolCv.notified
    -- its notification is used up, so it must have taken a slot, or leave nobody blocked
    · rcases r with e | ⟨_ | conn⟩
      · exact ConditionVariable.covered_leave_of_empty
          (ht hnotified ((MySQLConnectionPool.getConnection_error_iff hget).mp ⟨e, rfl⟩))
      · cases houtcome with
        | shutdown hs => exact ConditionVariable.covered_leave_of_empty (h.shutdown hs)
      · exact h.covered.leave (htaken conn rfl)
    · exact (h.covered.leave_of_notMem hnotified).of_le hle

/-- A released connection is one more slot, and one thread more is notified. -/
theorem Served.release (h : Served s) (conn : ℕ) {t : T} (ht : s.poolCv.MayReach t) :
    Served (s.release conn t) := by
  by_cases hshutdown : s.pool.isShutdown = true
  · have hblocked := h.shutdown hshutdown
    have hpool : s.pool.releaseConnection conn =
        { s.pool with poolSize := u64 (s.pool.poolSize - 1) } := if_pos hshutdown
    have hcv : (s.release conn t).poolCv = s.poolCv := if_pos hshutdown
    refine ⟨?_, ?_, fun _ => hcv ▸ hblocked, ?_⟩
    · show (s.pool.releaseConnection conn).maxPoolSize < _
      rw [hpool]
      exact h.maxPoolSize_lt
    · show (s.pool.releaseConnection conn).poolSize < _
      rw [hpool]
      exact u64_lt _
    · rintro ⟨x, hx⟩
      rw [hcv, hblocked] at hx
      cases hx
  · have hpool : s.pool.releaseConnection conn =
        { s.pool with connections := s.pool.connections ++ [conn] } := if_neg hshutdown
    have hcv : (s.release conn t).poolCv = s.poolCv.notifyOne t := if_neg hshutdown
    have hslots : slots (s.pool.releaseConnection conn) = slots s.pool + 1 := by
      rw [hpool, slots, slots, List.length_append, List.length_singleton]
      exact Nat.add_right_comm _ _ _
    refine ⟨?_, ?_, fun hs => absurd ?_ hshutdown, ?_⟩
    · show (s.pool.releaseConnection conn).maxPoolSize < _
      rw [hpool]
      exact h.maxPoolSize_lt
    · show (s.pool.releaseConnection conn).poolSize < _
      rw [hpool]
      exact h.poolSize_lt
    · have hs : (s.pool.releaseConnection conn).isShutdown = true := hs
      rwa [hpool] at hs
    · show (s.release conn t).poolCv.Covered (slots (s.pool.releaseConnection conn))
      rw [hcv, hslots]
      exact h.covered.notifyOne ht

theorem Served.step (h : Served s) {e : PoolEvent T} (he : NotifiedServed s e) :
    Served (poolStep s e) := by
  cases e with
  | getConnection t =>
    rw [poolStep]
    split_ifs with hwaits
    · exact h
    · exact h.tryGet fun hnotified => absurd (Or.inr hnotified) hwaits
  | wake t =>
    rw [poolStep]
    split_ifs
    · exact h.tryGet he
    · exact h
  | releaseConnection conn t =>
    rw [poolStep]
    split_ifs with hreach
    · exact h.release conn hreach
    · exact h
  | shutdown =>
    exact ⟨h.maxPoolSize_lt, h.poolSize_lt, fun _ => rfl,
      ConditionVariable.covered_notifyAll s.poolCv⟩

/-- **No wake-up is lost** in a run in which notified threads get their connections, unless no
other thread is blocked: wherever a blocked thread could go on, a notification is pending. -/
theorem no_wakeup_lost {initialSize maxSize : ℕ} {client client' : MysqlClient}
    {pool : MySQLConnectionPool} (hinitial : initialSize < 18446744073709551616)
    (hmax : maxSize < 18446744073709551616)
    (hpool : MySQLConnectionPool.construct initialSize maxSize client = .ok (pool, client'))
    (es : List (PoolEvent T)) (hes : Run.Every poolStep (.start pool client') NotifiedServed es)
    (before : List (PoolEvent T)) (hbefore : before <+: es) :
    WakesFollow (Run.after poolStep (.start pool client') before) := by
  have hc := constructed_construct hpool
  have hstart : Served (PoolState.start pool client' : PoolState T) :=
    { maxPoolSize_lt := hc.maxPoolSize.trans_lt hmax
      poolSize_lt := hc.poolSize.trans_lt hinitial
      shutdown := fun _ => rfl
      covered := fun hblocked => absurd hblocked Finset.not_nonempty_empty }
  have hserved : Served (Run.after poolStep (.start pool client') before) :=
    (hes.of_prefix hbefore).after_invariant hstart fun _ _ h he => h.step he
  exact hserved.wakesFollow

/-- A second thread waits for the connection of a pool of one, and is notified of its release. -/
theorem no_wakeup_lost_two_threads :
    WakesFollow (Run.after poolStep (.start ⟨[0], 1, 1, false⟩ (answering 1))
      [.getConnection 0, .getConnection 1, .releaseConnection 0 1]) := by
  refine @no_wakeup_lost ℕ _ 1 1 (answering 0) (answering 1) _ (by decide) (by decide) rfl
    [.getConnection 0, .getConnection 1, .releaseConnection 0 1] ?_ _ List.prefix_rfl
  refine Run.every_cons.mpr ⟨trivial, Run.every_cons.mpr ⟨trivial, ?_⟩⟩
  exact Run.every_cons.mpr ⟨trivial, Run.every_nil⟩

/-- A database that goes away after its first connection was pinged once. -/
def dying : MysqlClient :=
  { answering 0 with
    ping := Stream'.cons true (Stream'.const false)
    realConnect := Stream'.cons true (Stream'.const false) }

/-- The notified one of two waiting threads finds the connection dead, and none takes its place: the
pool has room for a connection, but the other thread is not told. -/
theorem waiter_left_behind :
    let dead : MysqlClient :=
      { dying with realConnect := Stream'.const false, nextConn := 1 }
    MySQLConnectionPool.construct 1 1 dying = .ok (⟨[0], 1, 1, false⟩, dead) ∧
      ¬ WakesFollow (Run.after poolStep (.start ⟨[0], 1, 1, false⟩ dead)
        [.getConnection 0, .getConnection 1, .getConnection 2, .releaseConnection 0 1,
          .wake 1]) := by
  refine ⟨rfl, fun h => ?_⟩
  have hnotified := h ⟨2, by decide⟩ (by decide)
  exact absurd hnotified (by decide)

end WakeUps

end UmTaker.DbSource
