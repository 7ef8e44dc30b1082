import UmTaker.Common.Basic
import Mathlib.Data.Stream.Init

/-!
# The connection pool

A pool hands out connections to the database and takes them back. A connection that died is
replaced when it is handed out, and one more is made while the pool may grow. The client library
answers each ping, each initialisation and each connect as the database happens to be.

## Main definitions

* `MysqlClient`: the outcomes of the calls of the client library, in order
* `MySQLConnectionPool`, with `createConnection`, `construct`, `getConnection`,
  `releaseConnection`, `shutdown`
* `WaitPredicate`, `GetOutcome`: what `getConnection` waits for, and the ways in which it ends
* `Unobtainable`: the next connection asked for cannot be had

## Main results

* `getConnection_outcome`, `getConnection_eq_none_iff`: what `getConnection` does, when it blocks
* `getConnection_error_iff`: `getConnection` throws exactly when no connection can be had
-/

namespace UmTaker.DbSource

/-- The client library: the outcomes of its calls from now on, what it says of an error, and the
handle it makes next. -/
structure MysqlClient where
  ping : Stream' Bool
  init : Stream' Bool
  realConnect : Stream' Bool
  query : Stream' Bool
  error : String
  nextConn : ℕ

/-- The pool, without the address of the database. The first of `connections` is handed out next. -/
structure MySQLConnectionPool where
  connections : List ℕ
  poolSize : ℕ
  maxPoolSize : ℕ
  isShutdown : Bool

/-- `createConnection`, with the exceptions it throws. -/
def createConnection (client : MysqlClient) : Except String ℕ × MysqlClient :=
  if client.init.head then
    if client.realConnect.head then
      (.ok client.nextConn,
        { client with
          init := client.init.tail
          realConnect := client.realConnect.tail
          nextConn := client.nextConn + 1 })
    else
      (.error ("Connection failed: " ++ client.error),
        { client with init := client.init.tail, realConnect := client.realConnect.tail })
  else
    (.error "mysql_init failed", { client with init := client.init.tail })

/-- A connection can be created. -/
def Creatable (client : MysqlClient) : Prop :=
  client.init.head = true ∧ client.realConnect.head = true

instance (client : MysqlClient) : Decidable (Creatable client) :=
  inferInstanceAs (Decidable (_ ∧ _))

/-- A connection is created under the next handle. -/
theorem createConnection_ok {client client' : MysqlClient} {conn : ℕ}
    (h : createConnection client = (.ok conn, client')) :
    Creatable client ∧ conn = client.nextConn ∧ client'.nextConn = client.nextConn + 1 := by
  unfold createConnection at h
  split_ifs at h with hinit hconnect <;> cases h
  exact ⟨⟨hinit, hconnect⟩, rfl, rfl⟩

/-- A failed attempt makes no handle. -/
theorem createConnection_error {client client' : MysqlClient} {e : String}
    (h : createConnection client = (.error e, client')) :
    ¬ Creatable client ∧ client'.nextConn = client.nextConn := by
  unfold createConnection at h
  split_ifs at h with hinit hconnect <;> cases h
  · exact ⟨fun hcreate => hconnect hcreate.2, rfl⟩
  · exact ⟨fun hcreate => hinit hcreate.1, rfl⟩

namespace MySQLConnectionPool

/-- The constructor: it throws what `createConnection` throws. -/
def construct (initialSize maxSize : ℕ) (client : MysqlClient) :
    Except String (MySQLConnectionPool × MysqlClient) :=
  (List.range initialSize).foldlM
    (fun r _ =>
      match createConnection r.2 with
      | (.ok conn, client) =>
        .ok ({ r.1 with
          connections := r.1.connections ++ [conn], poolSize := r.1.poolSize + 1 }, client)
      | (.error e, _) => .error e)
    (⟨[], 0, maxSize, false⟩, client)

/-- `getConnection`: it blocks while the pool is empty and full grown, throws if it cannot create a
connection, and returns no connection once the pool is shut down. -/
def getConnection (pool : MySQLConnectionPool) (client : MysqlClient) :
    Option (Except String (Option ℕ) × MySQLConnectionPool × MysqlClient) :=
  if pool.isShutdown then
    some (.ok none, pool, client)
  else
    match pool.connections with
    | conn :: connections =>
      let popped := { pool with connections := connections }
      let pinged := { client with ping := client.ping.tail }
      if client.ping.head then
        some (.ok (some conn), popped, pinged)
      else
        -- the dead connection is closed, and another takes its place
        let closed := { popped with poolSize := u64 (popped.poolSize - 1) }
        match createConnection pinged with
        | (.ok conn, client) =>
          some (.ok (some conn), { closed with poolSize := u64 (closed.poolSize + 1) }, client)
        | (.error _, client) =>
          some (.error "Failed to create replacement connection", closed, client)
    | [] =>
      if pool.poolSize < pool.maxPoolSize then
        match createConnection client with
        | (.ok conn, client) =>
          some (.ok (some conn), { pool with poolSize := u64 (pool.poolSize + 1) }, client)
        | (.error _, client) => some (.error "Failed to create new connection", pool, client)
      else
        none

/-- `releaseConnection` of a connection. -/
def releaseConnection (pool : MySQLConnectionPool) (conn : ℕ) : MySQLConnectionPool :=
  if pool.isShutdown then { pool with poolSize := u64 (pool.poolSize - 1) }
  else { pool with connections := pool.connections ++ [conn] }

/-- `shutdown`, which the destructor calls. -/
def shutdown (pool : MySQLConnectionPool) : MySQLConnectionPool :=
  { pool with isShutdown := true, connections := [] }

/-- The predicate that `getConnection` waits for. -/
def WaitPredicate (pool : MySQLConnectionPool) : Prop :=
  pool.connections ≠ [] ∨ pool.isShutdown = true ∨ pool.poolSize < pool.maxPoolSize

instance (pool : MySQLConnectionPool) : Decidable pool.WaitPredicate :=
  inferInstanceAs (Decidable (_ ∨ _))

/-- The ways in which `getConnection` ends. -/
inductive GetOutcome (pool : MySQLConnectionPool) (client : MysqlClient) :
    Except String (Option ℕ) → MySQLConnectionPool → MysqlClient → Prop
  | shutdown (hshutdown : pool.isShutdown = true) : GetOutcome pool client (.ok none) pool client
  | alive {conn : ℕ} {rest : List ℕ} (hopen : pool.isShutdown = false)
      (hidle : pool.connections = conn :: rest) (hping : client.ping.head = true) :
      GetOutcome pool client (.ok (some conn)) { pool with connections := rest }
        { client with ping := client.ping.tail }
  | replaced {conn new : ℕ} {rest : List ℕ} {client' : MysqlClient}
      (hopen : pool.isShutdown = false) (hidle : pool.connections = conn :: rest)
      (hping : client.ping.head = false)
      (hcreate : createConnection { client with ping := client.ping.tail } = (.ok new, client')) :
      GetOutcome pool client (.ok (some new))
        { pool with connections := rest, poolSize := u64 (u64 (pool.poolSize - 1) + 1) } client'
  | replacementFailed {conn : ℕ} {rest : List ℕ} {e : String} {client' : MysqlClient}
      (hopen : pool.isShutdown = false) (hidle : pool.connections = conn :: rest)
      (hping : client.ping.head = false)
      (hcreate : createConnection { client with ping := client.ping.tail } = (.error e, client')) :
      GetOutcome pool client (.error "Failed to create replacement connection")
        { pool with connections := rest, poolSize := u64 (pool.poolSize - 1) } client'
  | created {new : ℕ} {client' : MysqlClient} (hopen : pool.isShutdown = false)
      (hidle : pool.connections = []) (hroom : pool.poolSize < pool.maxPoolSize)
      (hcreate : createConnection client = (.ok new, client')) :
      GetOutcome pool client (.ok (some new))
        { pool with connections := [], poolSize := u64 (pool.poolSize + 1) } client'
  | creationFailed {e : String} {client' : MysqlClient} (hopen : pool.isShutdown = false)
      (hidle : pool.connections = []) (hroom : pool.poolSize < pool.maxPoolSize)
      (hcreate : createConnection client = (.error e, client')) :
      GetOutcome pool client (.error "Failed to create new connection") pool client'

/-- **What `getConnection` does.** -/
theorem getConnection_outcome {pool pool' : MySQLConnectionPool} {client client' : MysqlClient}
    {r : Except String (Option ℕ)} (h : pool.getConnection client = some (r, pool', client')) :
    GetOutcome pool client r pool' client' := by
  unfold getConnection at h
  by_cases hshutdown : pool.isShutdown = true
  · rw [if_pos hshutdown] at h
    cases h
    exact .shutdown hshutdown
  rw [if_neg hshutdown] at h
  have hopen : pool.isShutdown = false := Bool.eq_false_iff.mpr hshutdown
  cases hidle : pool.connections with
  | nil =>
    simp only [hidle] at h
    split_ifs at h with hroom
    cases hcreate : createConnection client with
    | mk answer after =>
      simp only [hcreate] at h
      cases answer with
      | ok new =>
        cases h
        exact .created hopen hidle hroom hcreate
      | error e =>
        cases h
        exact .creationFailed hopen hidle hroom hcreate
  | cons conn rest =>
    simp only [hidle] at h
    by_cases hping : client.ping.head = true
    · rw [if_pos hping] at h
      cases h
      exact .alive hopen hidle hping
    rw [if_neg hping] at h
    have hdead : client.ping.head = false := Bool.eq_false_iff.mpr hping
    cases hcreate : createConnection { client with ping := client.ping.tail } with
    | mk answer after =>
      simp only [hcreate] at h
      cases answer with
      | ok new =>
        cases h
        exact .replaced hopen hidle hdead hcreate
      | error e =>
        cases h
        exact .replacementFailed hopen hidle hdead hcreate

/-- `getConnection` blocks exactly while its predicate does not hold. -/
theorem getConnection_eq_none_iff {pool : MySQLConnectionPool} {client : MysqlClient} :
    pool.getConnection client = none ↔ ¬ pool.WaitPredicate := by
  unfold getConnection WaitPredicate
  by_cases hshutdown : pool.isShutdown = true
  · simp [hshutdown]
  rw [if_neg hshutdown]
  cases pool.connections with
  | nil =>
    by_cases hroom : pool.poolSize < pool.maxPoolSize
    · refine iff_of_false ?_ (by simp [hroom])
      simp only [if_pos hroom]
      split <;> simp
    · simp [hshutdown, hroom]
  | cons conn rest =>
    refine iff_of_false ?_ (by simp)
    simp only
    split_ifs
    · simp
    · split <;> simp

/-- The next connection asked for cannot be had: the one in front is dead, or the pool is empty and
may grow, and none can be created. -/
def Unobtainable (pool : MySQLConnectionPool) (client : MysqlClient) : Prop :=
  pool.isShutdown = false ∧
    (pool.connections ≠ [] ∧ client.ping.head = false ∨
      pool.connections = [] ∧ pool.poolSize < pool.maxPoolSize) ∧
    ¬ Creatable client

/-- **`getConnection` throws exactly when no connection can be had.** -/
theorem getConnection_error_iff {pool pool' : MySQLConnectionPool} {client client' : MysqlClient}
    {r : Except String (Option ℕ)} (h : pool.getConnection client = some (r, pool', client')) :
    (∃ e, r = .error e) ↔ pool.Unobtainable client := by
  unfold Unobtainable
  have hsame : Creatable { client with ping := client.ping.tail } ↔ Creatable client := Iff.rfl
  cases getConnection_outcome h with
  | shutdown hshutdown => simp [hshutdown]
  | alive hopen hidle hping => simp [hidle, hping]
  | replaced hopen hidle hping hcreate => simp [hsame.mp (createConnection_ok hcreate).1]
  | replacementFailed hopen hidle hping hcreate =>
    simp [hopen, hidle, hping, hsame.not.mp (createConnection_error hcreate).1]
  | created hopen hidle hroom hcreate => simp [(createConnection_ok hcreate).1]
  | creationFailed hopen hidle hroom hcreate =>
    simp [hopen, hidle, hroom, (createConnection_error hcreate).1]

end MySQLConnectionPool

end UmTaker.DbSource
