import UmTaker.Concurrency.Exceptions
import UmTaker.DbSource.MysqlSource

/-!
# The workers of the database

The threads of actuary and evaluator that save to the database, or load from it, take their
connections from one pool. A worker that is given no connection warns and goes on; an exception that
leaves a worker ends the process.

## Main definitions

* `DbOp`, `dbExec`: what the workers do to the pool and the database
* `loadBalancePosition`, `saveAccountPosition`, `delaySaveExchangeInfo`, `loadRecentOrdersToZmq`,
  `pollingCalculateOrderPnl`, `loadRecentlyOrderStatResult`, `processBalancePosition`: the workers
* `SurvivesOutage`: no exception left a worker, and each goes on without a connection

## Main results

* `survivesOutage_iff`: the workers survive exactly as long as none asks for a connection in vain
-/

namespace UmTaker.DbSource

open Concurrency Concurrency.System.Move

/-! ## Operations -/

/-- The pool, the client library, and the warnings and errors logged. -/
structure Database where
  pool : MySQLConnectionPool
  client : MysqlClient
  log : List String := []

/-- What a worker does: a call of the pool or of the client library, or an entry of the log.
`handleRow` passes on a row that was loaded. -/
inductive DbOp
  | getConnection
  | releaseConnection (conn : ℕ)
  | mysqlQuery (conn : ℕ) (sql : String)
  | warnLog (msg : String)
  | errLog (msg : String)
  | handleRow
  | removeExpiredStatOrder
  | shutdown
  deriving DecidableEq

/-- The answer of an operation; that of a query says whether it failed. -/
abbrev DbAns : DbOp → Type
  | .getConnection => Except String (Option ℕ)
  | .mysqlQuery _ _ => Bool
  | _ => Unit

/-- An operation carried out. -/
def dbExec : (o : DbOp) → Database → Option (Database × DbAns o)
  | .getConnection, d =>
    (d.pool.getConnection d.client).map fun r => ({ d with pool := r.2.1, client := r.2.2 }, r.1)
  | .releaseConnection conn, d => some ({ d with pool := d.pool.releaseConnection conn }, ())
  | .mysqlQuery _ _, d =>
    some ({ d with client := { d.client with query := d.client.query.tail } }, !d.client.query.head)
  | .warnLog msg, d => some ({ d with log := d.log ++ [msg] }, ())
  | .errLog msg, d => some ({ d with log := d.log ++ [msg] }, ())
  | .handleRow, d => some (d, ())
  | .removeExpiredStatOrder, d => some (d, ())
  | .shutdown, d => some ({ d with pool := d.pool.shutdown }, ())

/-! ## The workers -/

/-- The programs of the workers: they may throw what an exception says of itself. -/
abbrev DbProg := ExceptT String (Prog DbOp DbAns)

/-- An operation that does not throw. -/
def perform (o : DbOp) : DbProg (DbAns o) := ExceptT.lift (Prog.call o)

/-- `getConnection` throws. -/
def getConnection : DbProg (Option ℕ) := ExceptT.mk (Prog.call DbOp.getConnection)

/-- What a conversion yields, or throws. -/
def orThrow {α : Type} (r : Except String α) : DbProg α := ExceptT.mk (pure r)

/-- An entry of the log if something failed. -/
def logFailure (failed : Bool) (failure : String) : DbProg Unit :=
  if failed then perform (DbOp.errLog failure) else pure ()

/-- A statement inside its `try`. -/
def execute (failure caught : String) (conn : ℕ) (sql : String) : DbProg Unit :=
  tryCatch (do
    let failed ← perform (DbOp.mysqlQuery conn sql)
    logFailure failed failure)
    fun exp => perform (DbOp.errLog (caught ++ exp))

/-- A statement with a connection of its own. -/
def saveStatement (failure caught sql : String) : DbProg Unit := do
  let myConn ← getConnection
  match myConn with
  | some conn => do
    execute failure caught conn sql
    perform (DbOp.releaseConnection conn)
  | none => perform (DbOp.warnLog "no mysql connection created")

/-- A round of `load_balance_position`, from the number of rounds since the last save: the statement
that saves the account, unless the account could not be loaded. -/
def loadBalancePosition (dtGroupMainNode : Bool) (pollingTimes : ℤ) (response : Option String) :
    DbProg ℤ :=
  match response with
  | none => do
    perform (DbOp.errLog "fail to load account info")
    pure pollingTimes
  | some sql =>
    if dtGroupMainNode then
      if pollingTimes + 1 = 300 / 10 then do
        saveStatement "fail to insert account meta"
          "exception occur while insert account meta: " sql
        pure 0
      else
        pure (pollingTimes + 1)
    else
      pure pollingTimes

/-- A round of `save_account_position`: the statement of each asset, if it has a position and a
threshold. -/
def saveAccountPosition (assets : List (Option String)) : DbProg Unit :=
  assets.forM fun
    | some sql =>
      saveStatement "fail to insert account position"
        "exception occur while insert account position: " sql
    | none => perform (DbOp.warnLog "account position or threshold not found")

/-- What there is to save of an asset: the warnings about what is not found, and the statement
unless its exchange info is among that. -/
structure AssetExchange where
  warnings : List String
  sql : Option String

/-- Save the exchange info of an asset. -/
def saveExchangeInfo (conn : ℕ) (asset : AssetExchange) : DbProg Unit := do
  asset.warnings.forM fun warning => perform (DbOp.warnLog warning)
  match asset.sql with
  | some sql =>
    execute "fail to save exchange info" "exception occur while save exchange info: " conn sql
  | none => pure ()

/-- `delay_save_exchange_info`. -/
def delaySaveExchangeInfo (assets : List AssetExchange) : DbProg Unit := do
  let myConn ← getConnection
  match myConn with
  | some conn => do
    assets.forM (saveExchangeInfo conn)
    perform (DbOp.releaseConnection conn)
  | none => perform (DbOp.warnLog "no mysql connection created")

/-- What `mysql_store_result` and the rows it yields come to: a row whose numbers cannot be read
throws. -/
inductive StoredResult
  | rows (rows : List (Except String Unit))
  | null (errorOccurred : Bool)

/-- The rows of a query, passed on one after the other. -/
def handleRows : StoredResult → DbProg Unit
  | .rows rows => rows.forM fun row => do
    orThrow row
    perform DbOp.handleRow
  | .null errorOccurred => logFailure errorOccurred "fail to get result from query order"

/-- A query and its rows: a query that failed is asked for its result all the same. -/
def queryRows (conn : ℕ) (sql : String) (result : StoredResult) : DbProg Unit := do
  let failed ← perform (DbOp.mysqlQuery conn sql)
  logFailure failed "fail to query order"
  handleRows result

/-- Load the rows of a query inside a `try`. -/
def loadRows (sql : String) (result : StoredResult) : DbProg Unit := do
  let myConn ← getConnection
  match myConn with
  | some conn => do
    tryCatch (queryRows conn sql result)
      fun exp => perform (DbOp.errLog ("exception occur while query order: " ++ exp))
    perform (DbOp.releaseConnection conn)
  | none => perform (DbOp.warnLog "no mysql connection created for query order")

/-- `load_recent_orders_to_zmq`. -/
def loadRecentOrdersToZmq (sql : String) (result : StoredResult) : DbProg Unit :=
  loadRows sql result

/-- `load_recently_order_stat_result`. -/
def loadRecentlyOrderStatResult (sql : String) (result : StoredResult) : DbProg Unit :=
  loadRows sql result

/-- What a round of the polling thread knows of an order when it comes to save it. -/
structure SampledOrder where
  systemTimestamp : ℕ
  propertyChanged : Bool
  sql : String

/-- Save an order, if it changed. -/
def saveOrder (now : ℕ) (myConn : Option ℕ) (info : SampledOrder) : DbProg Unit :=
  if now ≤ info.systemTimestamp then
    pure ()
  else if !info.propertyChanged then
    pure ()
  else
    match myConn with
    | some conn =>
      execute "fail to insert or update order"
        "exception occur while insert or update order stat: " conn info.sql
    | none => perform (DbOp.warnLog "no mysql connection created")

/-- A round of `polling_calculate_order_pnl`, from where the orders are sampled. -/
def pollingCalculateOrderPnl (now : ℕ) (infoList : List SampledOrder) : DbProg Unit := do
  let myConn ← getConnection
  infoList.forM (saveOrder now myConn)
  match myConn with
  | some conn => perform (DbOp.releaseConnection conn)
  | none => pure ()
  perform DbOp.removeExpiredStatOrder

/-- A message of `process_balance_position`, with the statement that saves an order if it is about
one: here the connection is asked for inside the `try`. -/
def processBalancePosition (message : Except String (Option String)) : DbProg Unit :=
  tryCatch (do
    let order ← orThrow message
    match order with
    | some sql =>
      saveStatement "fail to insert order" "exception occur while insert order: " sql
    | none => pure ())
    fun exp => perform (DbOp.errLog ("fail to process user data stream message: " ++ exp))

/-! ## The threads -/

/-- The threads that use a pool, and the one that destroys it. -/
inductive DatabaseWorker
  | loadBalancePosition
  | saveAccountPosition
  | delaySaveExchangeInfo
  | loadRecentOrdersToZmq
  | pollingCalculateOrderPnl
  | loadRecentlyOrderStatResult
  | processBalancePosition
  | poolOwner
  deriving DecidableEq

/-- What a round of a worker is given. -/
abbrev WorkerCall : DatabaseWorker → Type
  | .loadBalancePosition => Option String
  | .saveAccountPosition => List (Option String)
  | .delaySaveExchangeInfo => List AssetExchange
  | .loadRecentOrdersToZmq => String × StoredResult
  | .pollingCalculateOrderPnl => ℕ × List SampledOrder
  | .loadRecentlyOrderStatResult => String × StoredResult
  | .processBalancePosition => Except String (Option String)
  | .poolOwner => Unit

/-- A round of a worker. -/
def round (dtGroupMainNode : Bool) : (w : DatabaseWorker) → ℤ → WorkerCall w → DbProg ℤ
  | .loadBalancePosition, pollingTimes, response =>
    loadBalancePosition dtGroupMainNode pollingTimes response
  | .saveAccountPosition, n, assets => do
    saveAccountPosition assets
    pure n
  | .delaySaveExchangeInfo, n, assets => do
    delaySaveExchangeInfo assets
    pure n
  | .loadRecentOrdersToZmq, n, (sql, result) => do
    loadRecentOrdersToZmq sql result
    pure n
  | .pollingCalculateOrderPnl, n, (now, infoList) => do
    pollingCalculateOrderPnl now infoList
    pure n
  | .loadRecentlyOrderStatResult, n, (sql, result) => do
    loadRecentlyOrderStatResult sql result
    pure n
  | .processBalancePosition, n, message => do
    processBalancePosition message
    pure n
  | .poolOwner, n, () => do
    perform DbOp.shutdown
    pure n

variable {T : Type}

/-- Threads that work on one pool. A thread goes on until an exception leaves it. -/
def databaseWorkers (dtGroupMainNode : Bool) (worker : T → DatabaseWorker) :
    System T Database (fun _ => Except String ℤ) (fun t => WorkerCall (worker t)) DbOp DbAns where
  exec _ := dbExec
  body t
    | .ok n, x => (round dtGroupMainNode (worker t) n x).run
    | .error exp, _ => .ret (.error exp)

/-- The workers that ask for connections outside of a `try`. -/
def DatabaseWorker.uncaught : DatabaseWorker → Bool
  | .processBalancePosition => false
  | .poolOwner => false
  | _ => true

/-- The warnings of the branches without a connection. -/
def noConnectionWarnings : List String :=
  ["no mysql connection created", "no mysql connection created for query order"]

/-- Given no connection, the worker goes on with its warning, unless it has no statement for the
connection anyway. -/
def TakesNoConnectionBranch {α : Type}
    (k : Except String (Option ℕ) → Prog DbOp DbAns (Except String α)) : Prop :=
  (∃ msg ∈ noConnectionWarnings, ∃ rest, k (.ok none) = .perform (.warnLog msg) rest) ∨
    ∀ conn, (k (.ok (some conn))).Performs fun o => ∀ conn sql, o ≠ .mysqlQuery conn sql

/-- No exception has left a worker, and those about to ask for a connection can do without. -/
def SurvivesOutage {L : Type} (worker : T → DatabaseWorker)
    (c : Config T Database (fun _ => Except String L) DbOp DbAns) : Prop :=
  ∀ t, (worker t).uncaught = true → ¬ Dead (c.thread t) ∧
    ∀ k, c.thread t = .running (.perform .getConnection k) → TakesNoConnectionBranch k

/-- A worker asks for a connection, outside of a `try`, that cannot be had. -/
def AsksInVain (worker : T → DatabaseWorker) (t : T) (o : DbOp) (d : Database) : Prop :=
  o = .getConnection ∧ (worker t).uncaught = true ∧ d.pool.Unobtainable d.client

/-! ## What the workers perform -/

section Performs

variable {P : DbOp → Prop}

theorem performs_perform {o : DbOp} (h : P o) : (perform o).run.Performs P := Prog.Performs.lift h

theorem performs_logFailure (hlog : ∀ msg, P (.errLog msg)) (failed : Bool) (failure : String) :
    (logFailure failed failure).run.Performs P := by
  cases failed with
  | true => exact performs_perform (hlog failure)
  | false => trivial

/-- A statement uses its connection, and the log. -/
theorem performs_execute (hquery : ∀ conn sql, P (.mysqlQuery conn sql))
    (hlog : ∀ msg, P (.errLog msg)) (failure caught : String) (conn : ℕ) (sql : String) :
    (execute failure caught conn sql).run.Performs P := by
  refine Prog.Performs.tryCatch ?_ fun _ => performs_perform (hlog _)
  exact Prog.Performs.bindExcept (performs_perform (hquery conn sql)) fun failed =>
    performs_logFailure hlog failed failure

theorem performs_handleRows (hrow : P .handleRow) (hlog : ∀ msg, P (.errLog msg))
    (result : StoredResult) : (handleRows result).run.Performs P := by
  cases result with
  | rows rows =>
    refine Prog.Performs.forMExcept rows fun row _ => ?_
    exact Prog.Performs.bindExcept trivial fun _ => performs_perform hrow
  | null errorOccurred => exact performs_logFailure hlog errorOccurred _

theorem performs_queryRows (hquery : ∀ conn sql, P (.mysqlQuery conn sql)) (hrow : P .handleRow)
    (hlog : ∀ msg, P (.errLog msg)) (conn : ℕ) (sql : String) (result : StoredResult) :
    (queryRows conn sql result).run.Performs P := by
  refine Prog.Performs.bindExcept (performs_perform (hquery conn sql)) fun failed => ?_
  exact Prog.Performs.bindExcept (performs_logFailure hlog failed _) fun _ =>
    performs_handleRows hrow hlog result

end Performs

/-! ## Where the workers throw -/

section Throws

variable {w : DatabaseWorker}

/-- The answer that makes a worker throw. -/
def ConnectionFailed (w : DatabaseWorker) : (o : DbOp) → DbAns o → Prop
  | .getConnection, r => w.uncaught = true ∧ ∃ e, r = .error e
  | _, _ => False

/-- Only `getConnection` is ever answered badly. -/
theorem not_connectionFailed {o : DbOp} (ho : o ≠ .getConnection) :
    ∀ a, ¬ ConnectionFailed w o a := by
  intro a
  cases o with
  | getConnection => exact absurd rfl ho
  | _ => exact id

theorem throwsAt_perform {o : DbOp} (ho : o ≠ .getConnection) :
    ThrowsAt (ConnectionFailed w) (perform o).run :=
  ThrowsAt.lift (not_connectionFailed ho)

theorem throwsAt_getConnection (hw : w.uncaught = true) :
    ThrowsAt (ConnectionFailed w) getConnection.run := by
  intro r
  constructor
  · rintro ⟨-, e, rfl⟩
    exact ⟨e, rfl⟩
  · intro hgood
    cases r with
    | ok conn => exact ⟨conn, rfl⟩
    | error e => exact absurd ⟨hw, e, rfl⟩ hgood

/-- A statement throws nothing that is not caught. -/
theorem throwsAt_execute (failure caught : String) (conn : ℕ) (sql : String) :
    ThrowsAt (ConnectionFailed w) (execute failure caught conn sql).run := by
  refine ThrowsAt.tryCatch ?_ fun _ => throwsAt_perform (by rintro ⟨⟩)
  refine Prog.Performs.bindExcept
    (performs_perform (not_connectionFailed (by rintro ⟨⟩))) fun failed => ?_
  exact performs_logFailure (fun _ => not_connectionFailed (by rintro ⟨⟩)) failed failure

theorem throwsAt_saveStatement (hw : w.uncaught = true) (failure caught sql : String) :
    ThrowsAt (ConnectionFailed w) (saveStatement failure caught sql).run := by
  refine ThrowsAt.bind (throwsAt_getConnection hw) fun myConn => ?_
  cases myConn with
  | some conn =>
    exact ThrowsAt.bind (throwsAt_execute failure caught conn sql) fun _ =>
      throwsAt_perform (by rintro ⟨⟩)
  | none => exact throwsAt_perform (by rintro ⟨⟩)

theorem throwsAt_loadRows (hw : w.uncaught = true) (sql : String) (result : StoredResult) :
    ThrowsAt (ConnectionFailed w) (loadRows sql result).run := by
  refine ThrowsAt.bind (throwsAt_getConnection hw) fun myConn => ?_
  cases myConn with
  | some conn =>
    refine ThrowsAt.bind (ThrowsAt.tryCatch ?_ fun _ => throwsAt_perform (by rintro ⟨⟩)) fun _ =>
      throwsAt_perform (by rintro ⟨⟩)
    exact performs_queryRows (fun _ _ => not_connectionFailed (by rintro ⟨⟩))
      (not_connectionFailed (by rintro ⟨⟩)) (fun _ => not_connectionFailed (by rintro ⟨⟩))
      conn sql result
  | none => exact throwsAt_perform (by rintro ⟨⟩)

theorem throwsAt_loadBalancePosition (hw : w.uncaught = true) (dtGroupMainNode : Bool)
    (pollingTimes : ℤ) (response : Option String) :
    ThrowsAt (ConnectionFailed w)
      (loadBalancePosition dtGroupMainNode pollingTimes response).run := by
  cases response with
  | none => exact ThrowsAt.bind (throwsAt_perform (by rintro ⟨⟩)) fun _ => ThrowsAt.pure _
  | some sql =>
    show ThrowsAt _ (ite _ _ _ : DbProg ℤ).run
    split_ifs
    · exact ThrowsAt.bind (throwsAt_saveStatement hw _ _ sql) fun _ => ThrowsAt.pure _
    · exact ThrowsAt.pure _
    · exact ThrowsAt.pure _

theorem throwsAt_saveAccountPosition (hw : w.uncaught = true) (assets : List (Option String)) :
    ThrowsAt (ConnectionFailed w) (saveAccountPosition assets).run := by
  refine ThrowsAt.forM assets fun asset _ => ?_
  cases asset with
  | some sql => exact throwsAt_saveStatement hw _ _ sql
  | none => exact throwsAt_perform (by rintro ⟨⟩)

theorem throwsAt_saveExchangeInfo (conn : ℕ) (asset : AssetExchange) :
    ThrowsAt (ConnectionFailed w) (saveExchangeInfo conn asset).run := by
  refine ThrowsAt.bind (ThrowsAt.forM _ fun warning _ => throwsAt_perform (by rintro ⟨⟩))
    fun _ => ?_
  cases asset.sql with
  | some sql => exact throwsAt_execute _ _ conn sql
  | none => exact ThrowsAt.pure ()

theorem throwsAt_delaySaveExchangeInfo (hw : w.uncaught = true) (assets : List AssetExchange) :
    ThrowsAt (ConnectionFailed w) (delaySaveExchangeInfo assets).run := by
  refine ThrowsAt.bind (throwsAt_getConnection hw) fun myConn => ?_
  cases myConn with
  | some conn =>
    exact ThrowsAt.bind (ThrowsAt.forM assets fun asset _ => throwsAt_saveExchangeInfo conn asset)
      fun _ => throwsAt_perform (by rintro ⟨⟩)
  | none => exact throwsAt_perform (by rintro ⟨⟩)

theorem throwsAt_saveOrder (now : ℕ) (myConn : Option ℕ) (info : SampledOrder) :
    ThrowsAt (ConnectionFailed w) (saveOrder now myConn info).run := by
  unfold saveOrder
  split_ifs
  · exact ThrowsAt.pure ()
  · exact ThrowsAt.pure ()
  · cases myConn with
    | some conn => exact throwsAt_execute _ _ conn info.sql
    | none => exact throwsAt_perform (by rintro ⟨⟩)

theorem throwsAt_pollingCalculateOrderPnl (hw : w.uncaught = true) (now : ℕ)
    (infoList : List SampledOrder) :
    ThrowsAt (ConnectionFailed w) (pollingCalculateOrderPnl now infoList).run := by
  refine ThrowsAt.bind (throwsAt_getConnection hw) fun myConn => ?_
  refine ThrowsAt.bind (ThrowsAt.forM infoList fun info _ => throwsAt_saveOrder now myConn info)
    fun _ => ?_
  cases myConn with
  | some conn =>
    exact ThrowsAt.bind (throwsAt_perform (by rintro ⟨⟩)) fun _ => throwsAt_perform (by rintro ⟨⟩)
  | none => exact throwsAt_perform (by rintro ⟨⟩)

/-- The exceptions of `getConnection` are caught here. -/
theorem throwsAt_processBalancePosition (message : Except String (Option String)) :
    ThrowsAt (ConnectionFailed .processBalancePosition) (processBalancePosition message).run := by
  refine ThrowsAt.tryCatch ?_ fun _ => throwsAt_perform (by rintro ⟨⟩)
  refine Prog.Performs.of_forall (fun o a hbad => ?_) _
  cases o with
  | getConnection => cases hbad.1
  | _ => exact hbad

/-- **A round of a worker throws** where `getConnection` does, unless it catches what is thrown. -/
theorem throwsAt_round (dtGroupMainNode : Bool) (n : ℤ) (x : WorkerCall w) :
    ThrowsAt (ConnectionFailed w) (round dtGroupMainNode w n x).run := by
  cases w with
  | loadBalancePosition => exact throwsAt_loadBalancePosition rfl dtGroupMainNode n x
  | saveAccountPosition =>
    exact ThrowsAt.bind (throwsAt_saveAccountPosition rfl x) fun _ => ThrowsAt.pure n
  | delaySaveExchangeInfo =>
    exact ThrowsAt.bind (throwsAt_delaySaveExchangeInfo rfl x) fun _ => ThrowsAt.pure n
  | loadRecentOrdersToZmq =>
    exact ThrowsAt.bind (throwsAt_loadRows rfl x.1 x.2) fun _ => ThrowsAt.pure n
  | pollingCalculateOrderPnl =>
    exact ThrowsAt.bind (throwsAt_pollingCalculateOrderPnl rfl x.1 x.2) fun _ => ThrowsAt.pure n
  | loadRecentlyOrderStatResult =>
    exact ThrowsAt.bind (throwsAt_loadRows rfl x.1 x.2) fun _ => ThrowsAt.pure n
  | processBalancePosition =>
    exact ThrowsAt.bind (throwsAt_processBalancePosition x) fun _ => ThrowsAt.pure n
  | poolOwner => exact ThrowsAt.bind (throwsAt_perform (by rintro ⟨⟩)) fun _ => ThrowsAt.pure n

end Throws

/-! ## What the workers do without a connection -/

section Branch

variable {α β : Type}

/-- Given no connection, the program goes on with its warning. -/
def WarnsFirst : (o : DbOp) → (DbAns o → Prog DbOp DbAns (Except String α)) → Prop
  | .getConnection, k =>
    ∃ msg ∈ noConnectionWarnings, ∃ rest, k (.ok none) = .perform (.warnLog msg) rest
  | _, _ => True

/-- Given no connection, the program takes its branch. -/
def TakesBranch : (o : DbOp) → (DbAns o → Prog DbOp DbAns (Except String α)) → Prop
  | .getConnection, k => TakesNoConnectionBranch k
  | _, _ => True

theorem WarnsFirst.bind {o : DbOp} {k : DbAns o → Prog DbOp DbAns (Except String α)}
    (h : WarnsFirst o k) (f : Except String α → Prog DbOp DbAns (Except String β)) :
    WarnsFirst o fun a => k a >>= f := by
  cases o with
  | getConnection =>
    obtain ⟨msg, hmsg, rest, hwarns⟩ := h
    refine ⟨msg, hmsg, fun a => rest a >>= f, ?_⟩
    show k (.ok none) >>= f = _
    rw [hwarns]
    rfl
  | _ => trivial

theorem WarnsFirst.takesBranch {o : DbOp} {k : DbAns o → Prog DbOp DbAns (Except String α)}
    (h : WarnsFirst o k) : TakesBranch o k := by
  cases o with
  | getConnection => exact Or.inl h
  | _ => trivial

/-- A program that asks for no connection. -/
theorem warnsFirst_of_performs {p : Prog DbOp DbAns (Except String α)}
    (h : p.Performs (· ≠ .getConnection)) : p.Everywhere WarnsFirst := by
  refine Prog.Everywhere.of_performs (Prog.Performs.mono (fun o ho k => ?_) h)
  cases o with
  | getConnection => exact absurd rfl ho
  | _ => trivial

/-- A program that begins by asking for a connection, and asks for no other. -/
theorem warnsFirst_getConnection {msg : String} (hmsg : msg ∈ noConnectionWarnings)
    {f : Option ℕ → DbProg α}
    (hnone : ∃ rest, (f none).run = .perform (.warnLog msg) rest)
    (hf : ∀ conn, (f conn).run.Performs (· ≠ .getConnection)) :
    (getConnection >>= f).run.Everywhere WarnsFirst := by
  refine ⟨⟨msg, hmsg, hnone⟩, fun r => ?_⟩
  cases r with
  | ok conn => exact warnsFirst_of_performs (hf conn)
  | error e => trivial

theorem warnsFirst_saveStatement (failure caught sql : String) :
    (saveStatement failure caught sql).run.Everywhere WarnsFirst := by
  refine warnsFirst_getConnection List.mem_cons_self ⟨_, rfl⟩ fun myConn => ?_
  cases myConn with
  | some conn =>
    refine Prog.Performs.bindExcept ?_ fun _ => performs_perform (by rintro ⟨⟩)
    exact performs_execute (by rintro _ _ ⟨⟩) (by rintro _ ⟨⟩) failure caught conn sql
  | none => exact performs_perform (by rintro ⟨⟩)

theorem warnsFirst_loadRows (sql : String) (result : StoredResult) :
    (loadRows sql result).run.Everywhere WarnsFirst := by
  refine warnsFirst_getConnection (List.mem_cons_of_mem _ List.mem_cons_self) ⟨_, rfl⟩
    fun myConn => ?_
  cases myConn with
  | some conn =>
    refine Prog.Performs.bindExcept (Prog.Performs.tryCatch ?_ fun _ =>
      performs_perform (by rintro ⟨⟩)) fun _ => performs_perform (by rintro ⟨⟩)
    exact performs_queryRows (by rintro _ _ ⟨⟩) (by rintro ⟨⟩) (by rintro _ ⟨⟩) conn sql result
  | none => exact performs_perform (by rintro ⟨⟩)

theorem performs_saveExchangeInfo (conn : ℕ) (asset : AssetExchange) :
    (saveExchangeInfo conn asset).run.Performs (· ≠ .getConnection) := by
  refine Prog.Performs.bindExcept
    (Prog.Performs.forMExcept _ fun warning _ => performs_perform (by rintro ⟨⟩)) fun _ => ?_
  cases asset.sql with
  | some sql => exact performs_execute (by rintro _ _ ⟨⟩) (by rintro _ ⟨⟩) _ _ conn sql
  | none => trivial

theorem warnsFirst_delaySaveExchangeInfo (assets : List AssetExchange) :
    (delaySaveExchangeInfo assets).run.Everywhere WarnsFirst := by
  refine warnsFirst_getConnection List.mem_cons_self ⟨_, rfl⟩ fun myConn => ?_
  cases myConn with
  | some conn =>
    exact Prog.Performs.bindExcept
      (Prog.Performs.forMExcept assets fun asset _ => performs_saveExchangeInfo conn asset)
      fun _ => performs_perform (by rintro ⟨⟩)
  | none => exact performs_perform (by rintro ⟨⟩)

theorem warnsFirst_saveAccountPosition (assets : List (Option String)) :
    (saveAccountPosition assets).run.Everywhere WarnsFirst := by
  refine Prog.Everywhere.forMExcept (fun _ _ g h => h.bind (ExceptT.bindCont g)) assets
    fun asset _ => ?_
  cases asset with
  | some sql => exact warnsFirst_saveStatement _ _ sql
  | none => exact warnsFirst_of_performs (performs_perform (by rintro ⟨⟩))

/-- An order that needs no saving is passed over; another one is warned about if there is no
connection. -/
theorem saveOrder_cases (now : ℕ) (info : SampledOrder) :
    (∀ myConn, saveOrder now myConn info = pure ()) ∨
      saveOrder now none info = perform (DbOp.warnLog "no mysql connection created") := by
  unfold saveOrder
  by_cases hold : now ≤ info.systemTimestamp
  · exact Or.inl fun _ => if_pos hold
  · by_cases hsame : (!info.propertyChanged) = true
    · exact Or.inl fun _ => by rw [if_neg hold, if_pos hsame]
    · exact Or.inr (by rw [if_neg hold, if_neg hsame])

/-- The polling thread without a connection warns at the first order it would save; if there is none
it has no statement for a connection either. -/
theorem saveOrders_none (now : ℕ) (infoList : List SampledOrder) (f : PUnit → DbProg α) :
    (∃ rest, (infoList.forM (saveOrder now none) >>= f).run =
        .perform (.warnLog "no mysql connection created") rest) ∨
      ∀ conn, (infoList.forM (saveOrder now (some conn))).run.Performs
        fun o => ∀ conn sql, o ≠ .mysqlQuery conn sql := by
  induction infoList with
  | nil => exact Or.inr fun conn => trivial
  | cons info infoList ih =>
    rcases saveOrder_cases now info with hskip | hwarns
    · have hrest : ∀ myConn, (info :: infoList).forM (saveOrder now myConn) =
          infoList.forM (saveOrder now myConn) := by
        intro myConn
        show (saveOrder now myConn info >>= fun _ => infoList.forM (saveOrder now myConn)) = _
        rw [hskip]
        rfl
      simp only [hrest]
      exact ih
    · refine Or.inl ⟨fun _ => (infoList.forM (saveOrder now none) >>= f).run, ?_⟩
      show ((saveOrder now none info >>= fun _ => infoList.forM (saveOrder now none)) >>= f).run = _
      rw [hwarns]
      rfl

theorem performs_saveOrder (now : ℕ) (myConn : Option ℕ) (info : SampledOrder) :
    (saveOrder now myConn info).run.Performs (· ≠ .getConnection) := by
  unfold saveOrder
  split_ifs
  · trivial
  · trivial
  · cases myConn with
    | some conn => exact performs_execute (by rintro _ _ ⟨⟩) (by rintro _ ⟨⟩) _ _ conn info.sql
    | none => exact performs_perform (by rintro ⟨⟩)

theorem takesBranch_pollingCalculateOrderPnl (now : ℕ) (infoList : List SampledOrder) (n : ℤ) :
    (pollingCalculateOrderPnl now infoList >>= fun _ => pure n : DbProg ℤ).run.Everywhere
      TakesBranch := by
  refine ⟨?_, fun r => warnsFirst_of_performs ?_ |>.mono fun o k h => h.takesBranch⟩
  · rcases saveOrders_none now infoList fun _ => perform DbOp.removeExpiredStatOrder with
      ⟨rest, hwarns⟩ | hnothing
    · refine Or.inl ⟨_, List.mem_cons_self, fun a => rest a >>= ExceptT.bindCont fun _ => pure n,
        ?_⟩
      show (infoList.forM (saveOrder now none) >>= fun _ =>
        perform DbOp.removeExpiredStatOrder).run >>= ExceptT.bindCont (fun _ => pure n) = _
      rw [hwarns]
      rfl
    · refine Or.inr fun conn => ?_
      refine Prog.Performs.bindExcept (Prog.Performs.bindExcept (hnothing conn) fun _ => ?_)
        fun _ => trivial
      exact Prog.Performs.bindExcept (performs_perform (by rintro _ _ ⟨⟩)) fun _ =>
        performs_perform (by rintro _ _ ⟨⟩)
  · cases r with
    | error e => trivial
    | ok myConn =>
      refine Prog.Performs.bindExcept (Prog.Performs.bindExcept
        (Prog.Performs.forMExcept infoList fun info _ => performs_saveOrder now myConn info)
        fun _ => ?_) fun _ => trivial
      cases myConn with
      | some conn =>
        exact Prog.Performs.bindExcept (performs_perform (by rintro ⟨⟩)) fun _ =>
          performs_perform (by rintro ⟨⟩)
      | none => exact performs_perform (by rintro ⟨⟩)

theorem warnsFirst_loadBalancePosition (dtGroupMainNode : Bool) (pollingTimes : ℤ)
    (response : Option String) :
    (loadBalancePosition dtGroupMainNode pollingTimes response).run.Everywhere WarnsFirst := by
  cases response with
  | none =>
    apply warnsFirst_of_performs
    exact Prog.Performs.bindExcept (performs_perform (by rintro ⟨⟩)) fun _ => trivial
  | some sql =>
    show (ite _ _ _ : DbProg ℤ).run.Everywhere WarnsFirst
    split_ifs
    · exact Prog.Everywhere.bindExcept (fun _ _ h => h.bind _) (warnsFirst_saveStatement _ _ sql)
        fun _ => trivial
    · trivial
    · trivial

/-- **A round of a worker takes its branch** wherever it is given no connection. -/
theorem takesBranch_round {w : DatabaseWorker} (hw : w.uncaught = true) (dtGroupMainNode : Bool)
    (n : ℤ) (x : WorkerCall w) :
    (round dtGroupMainNode w n x).run.Everywhere TakesBranch := by
  have hlast : ∀ {p : DbProg Unit}, p.run.Everywhere WarnsFirst →
      (p >>= fun _ => pure n : DbProg ℤ).run.Everywhere TakesBranch := fun hp =>
    Prog.Everywhere.bindExcept (fun _ _ h => (h.bind _).takesBranch) hp fun _ => trivial
  cases w with
  | loadBalancePosition =>
    exact (warnsFirst_loadBalancePosition dtGroupMainNode n x).mono fun _ _ h => h.takesBranch
  | saveAccountPosition => exact hlast (warnsFirst_saveAccountPosition x)
  | delaySaveExchangeInfo => exact hlast (warnsFirst_delaySaveExchangeInfo x)
  | loadRecentOrdersToZmq => exact hlast (warnsFirst_loadRows x.1 x.2)
  | pollingCalculateOrderPnl => exact takesBranch_pollingCalculateOrderPnl x.1 x.2 n
  | loadRecentlyOrderStatResult => exact hlast (warnsFirst_loadRows x.1 x.2)
  | processBalancePosition => cases hw
  | poolOwner => cases hw

end Branch

/-! ## Outages -/

section Outage

variable {dtGroupMainNode : Bool} {worker : T → DatabaseWorker} {d : Database}

/-- An operation is answered badly where a connection is asked for in vain. -/
theorem connectionFailed_iff {t : T} {o : DbOp} {d d' : Database} {a : DbAns o}
    (h : dbExec o d = some (d', a)) :
    ConnectionFailed (worker t) o a ↔ AsksInVain worker t o d := by
  by_cases ho : o = .getConnection
  · subst ho
    obtain ⟨⟨r, pool, client⟩, hget, heq⟩ := Option.map_eq_some_iff.mp h
    obtain rfl : r = a := (Prod.mk.inj heq).2
    show _ ∧ (∃ e, r = .error e) ↔ _
    rw [MySQLConnectionPool.getConnection_error_iff hget]
    exact ⟨fun h => ⟨rfl, h⟩, fun h => h.2⟩
  · exact iff_of_false (not_connectionFailed ho a) fun h => ho h.1

/-- **The workers survive** an outage, whatever the database answers to pings, initialisations and
connects, exactly as long as none of them asks for a connection that cannot be had. -/
theorem survivesOutage_iff [DecidableEq T]
    {c : Config T Database (fun _ => Except String ℤ) DbOp DbAns}
    (hc : (databaseWorkers dtGroupMainNode worker).Reachable System.Unrestricted d
      (fun _ => .ok 0) c) :
    (∃ g, ((databaseWorkers dtGroupMainNode worker).withGhost
        (failures (AsksInVain worker))).Reachable System.Unrestricted (d, fun _ => False)
        (fun _ => .ok 0) (c.withRecord g)) ∧
      ∀ g, ((databaseWorkers dtGroupMainNode worker).withGhost
          (failures (AsksInVain worker))).Reachable System.Unrestricted (d, fun _ => False)
          (fun _ => .ok 0) (c.withRecord g) →
        (SurvivesOutage worker c ↔ ∀ t, (worker t).uncaught = true → ¬ g t) := by
  refine ⟨System.exists_ghost _ hc, fun g hg => ?_⟩
  have hbad : ∀ t o s s' a, (databaseWorkers dtGroupMainNode worker).exec t o s = some (s', a) →
      (ConnectionFailed (worker t) o a ↔ AsksInVain worker t o s) :=
    fun _ _ _ _ _ h => connectionFailed_iff h
  have hfate : ∀ t, Fate (ConnectionFailed (worker t)) (g t) (c.thread t) :=
    System.fate (c := c.withRecord g) (fun t => ConnectionFailed (worker t))
      (fun t n x => throwsAt_round dtGroupMainNode n x) (fun _ _ _ => rfl) hbad
      (fun t => ⟨0, rfl⟩) hg
  have hbranch : ∀ t, (worker t).uncaught = true →
      ∀ k, c.thread t = .running (.perform .getConnection k) → TakesNoConnectionBranch k := by
    intro t ht k hk
    have heverywhere := System.running_invariant
      (Q := fun t p => (worker t).uncaught = true → p.Everywhere TakesBranch)
      (fun t l x ht => ?_) (fun t o k a h ht => (h ht).2 a) hc hk ht
    · exact heverywhere.1
    · cases l with
      | ok n => exact takesBranch_round ht dtGroupMainNode n x
      | error e => trivial
  constructor
  · intro h t ht hfailed
    exact (h t ht).1 ((hfate t).dead_iff.mpr hfailed)
  · intro h t ht
    exact ⟨fun hdead => h t ht ((hfate t).dead_iff.mp hdead), hbranch t ht⟩

/-- The connection of the pool dies and is replaced while a position is saved. -/
theorem survivesOutage_of_replaced :
    ∃ c, (databaseWorkers true fun _ : Unit => .saveAccountPosition).Reachable System.Unrestricted
        ⟨⟨[0], 1, 5, false⟩, ⟨.const false, .const true, .const true, .const true, "", 1⟩, []⟩
        (fun _ => .ok 0) c ∧
      c.shared.pool.connections = [1] ∧ SurvivesOutage (fun _ => .saveAccountPosition) c := by
  obtain ⟨c, hc, hg⟩ : ∃ c, ((databaseWorkers true fun _ : Unit => .saveAccountPosition).withGhost
      (failures (AsksInVain fun _ => .saveAccountPosition))).Reachable System.Unrestricted
      (⟨⟨[0], 1, 5, false⟩, ⟨.const false, .const true, .const true, .const true, "", 1⟩, []⟩,
        fun _ => False) (fun _ => .ok 0) c ∧ c.shared.1.pool.connections = [1] ∧
        ¬ c.shared.2 () := by
    refine ⟨_, System.reachable_of_schedule .refl (wholeCall () [some "insert"] 3) rfl, rfl, ?_⟩
    rintro (((hnone | ⟨-, -, -, hconn⟩) | ⟨-, ⟨⟩, -⟩) | ⟨-, ⟨⟩, -⟩)
    · exact hnone
    · exact hconn.2.2 ⟨rfl, rfl⟩
  exact ⟨c.forget, System.reachable_forget hc, hg.1,
    ((survivesOutage_iff (System.reachable_forget hc)).2 _ hc).mpr fun _ _ => hg.2⟩

/-- The connection of a new pool dies and no other can be made: saving a position ends its
thread. -/
theorem dead_of_lost_connection :
    ∃ pool client, MySQLConnectionPool.construct 1 5
        ⟨.const false, .const true, .cons true (.const false), .const true, "gone away", 0⟩ =
          .ok (pool, client) ∧
      ∃ c, (databaseWorkers true fun _ : Unit => .saveAccountPosition).Reachable
          System.Unrestricted ⟨pool, client, []⟩ (fun _ => .ok 0) c ∧
        ¬ SurvivesOutage (fun _ => .saveAccountPosition) c := by
  refine ⟨_, _, rfl, _, System.reachable_of_schedule .refl (wholeCall () [some "insert"] 1) rfl, ?_⟩
  intro h
  exact (h () rfl).1 ⟨"Failed to create replacement connection", Or.inr rfl⟩

end Outage

end UmTaker.DbSource
