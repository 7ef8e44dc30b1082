import UmTaker.Evaluator.OrderContainer
import UmTaker.General.KeyedTable
import Mathlib.Data.List.Sort

/-!
# The statistics in the database

The evaluator saves the statistics of an order by an insert that, on a duplicate client order id,
updates a list of columns of its own; after a restart it loads the recent rows by the positions of
the columns it selects.

## Main definitions

* `OrderPnlColumn`, `SqlValue`: the columns of `tb_bnum_order_pnl` and what they hold
* `insertRow`, `updateRow`: what the two halves of the statement write
* `StatOrderFullInfo.ofRow`: the reader of a selected row
* `orderPnlTable`, `loadRecentlyOrderStatResult`: the table after saves, and what is loaded of it

## Main results

* `mem_loadRecently_iff`: what is loaded goes back to the first and the last save of an order
* `load_eq_last_iff`: the last record saved is what is loaded exactly when the columns that no
  update writes are as at the first save
-/

namespace UmTaker.Evaluator

/-! ## The table -/

/-- The columns that the statements name. -/
inductive OrderPnlColumn
  | accountFlag
  | symbol
  | orderSide
  | clientOrderId
  | averagePrice
  | filledSize
  | systemTimestamp
  | createTime
  | priceAfter (h : Horizon)
  | pnlPercentage (h : Horizon)
  | commissionRate
  | hasTradingVolume
  deriving DecidableEq

/-- What a column holds; numbers are those that fit its decimals. -/
inductive SqlValue
  | text (s : String)
  | decimal (x : ℚ)
  | bigint (n : ℕ)
  | datetime (seconds : ℕ)
  | null
  deriving DecidableEq

/-- A row by its columns. -/
abbrev OrderPnlRow := OrderPnlColumn → SqlValue

namespace SqlValue

def toText : SqlValue → Option String
  | text s => some s
  | _ => none

/-- `std::stod` of a selected column. -/
def stod : SqlValue → Option ℚ
  | decimal x => some x
  | bigint n => some n
  | _ => none

/-- `std::stoull` of a selected column. -/
def stoull : SqlValue → Option ℕ
  | bigint n => some n
  | _ => none

end SqlValue

/-! ## Saves -/

/-- A save, at the time of its statement. -/
structure OrderSave where
  info : StatOrderFullInfo
  now : ℕ

namespace StatOrderFullInfo

/-- `has_trading_volume`. -/
def hasTradingVolume (info : StatOrderFullInfo) : String := if 0 < info.filledSize then "Y" else "N"

end StatOrderFullInfo

open OrderPnlColumn in
/-- The columns of the insert. -/
def insertColumns : List OrderPnlColumn :=
  [accountFlag, symbol, orderSide, clientOrderId, averagePrice, filledSize, systemTimestamp,
    createTime] ++ Horizon.all.map priceAfter ++ Horizon.all.map pnlPercentage ++
    [commissionRate, hasTradingVolume]

open SqlValue in
/-- The values of the insert. -/
def insertValues (save : OrderSave) : List SqlValue :=
  let info := save.info
  [text info.accountFlag, text info.symbol, text info.orderSide, text info.clientOrderId,
    decimal info.averagePrice, decimal info.filledSize, bigint info.systemTimestamp,
    datetime save.now] ++ Horizon.all.map (fun h => decimal (info.priceAfter h)) ++
    Horizon.all.map (fun h => decimal (info.pnlPercentage h)) ++
    [decimal info.commissionRate, text info.hasTradingVolume]

open OrderPnlColumn SqlValue in
/-- The assignments on a duplicate key. -/
def updateAssignments (info : StatOrderFullInfo) : List (OrderPnlColumn × SqlValue) :=
  [(filledSize, decimal info.filledSize), (hasTradingVolume, text info.hasTradingVolume)] ++
    Horizon.all.map (fun h => (priceAfter h, decimal (info.priceAfter h))) ++
    Horizon.all.map (fun h => (pnlPercentage h, decimal (info.pnlPercentage h)))

/-- Assign values to columns of a row. -/
def assign (assignments : List (OrderPnlColumn × SqlValue)) (row : OrderPnlRow) : OrderPnlRow :=
  fun c => (assignments.lookup c).getD (row c)

/-- The row that a save inserts; a column that the insert left out would be null. -/
def insertRow (save : OrderSave) : OrderPnlRow :=
  assign (insertColumns.zip (insertValues save)) fun _ => .null

/-- What a save makes of the row with its key. -/
def updateRow (save : OrderSave) : OrderPnlRow → OrderPnlRow := assign (updateAssignments save.info)

/-- The unique key of the table. -/
def uniqueKey (row : OrderPnlRow) : SqlValue := row .clientOrderId

/-- The table after saves. -/
def orderPnlTable (saves : List OrderSave) : List OrderPnlRow :=
  KeyedTable.tableAfter uniqueKey insertRow updateRow saves

/-! ## Loads -/

open OrderPnlColumn in
/-- The columns of the select. -/
def selectColumns : List OrderPnlColumn :=
  [accountFlag, symbol, orderSide, clientOrderId, averagePrice, filledSize, systemTimestamp] ++
    Horizon.all.map priceAfter ++ Horizon.all.map pnlPercentage ++ [commissionRate]

namespace Horizon

/-- The position at which the price of a horizon is read. -/
def pricePosition : Horizon → ℕ
  | after1s => 7
  | after5s => 8
  | after10s => 9
  | after20s => 10
  | after30s => 11
  | after40s => 12
  | after50s => 13
  | after60s => 14
  | after120s => 15
  | after180s => 16
  | after15min => 17
  | after30min => 18
  | after1hour => 19

/-- The position at which the profit of a horizon is read. -/
def pnlPosition : Horizon → ℕ
  | after1s => 20
  | after5s => 21
  | after10s => 22
  | after20s => 23
  | after30s => 24
  | after40s => 25
  | after50s => 26
  | after60s => 27
  | after120s => 28
  | after180s => 29
  | after15min => 30
  | after30min => 31
  | after1hour => 32

/-- The values read for all horizons, if none of them throws. -/
def sequence (f : Horizon → Option ℚ) : Option (Horizon → ℚ) :=
  if ∀ h, (f h).isSome = true then some fun h => (f h).getD 0 else none

@[simp] theorem sequence_some (f : Horizon → ℚ) : sequence (fun h => some (f h)) = some f :=
  if_pos fun _ => rfl

end Horizon

/-- The reader of a selected row, by positions; a conversion may throw. -/
def StatOrderFullInfo.ofRow (row : List SqlValue) : Option StatOrderFullInfo := do
  let accountFlag ← row[0]?.bind SqlValue.toText
  let symbol ← row[1]?.bind SqlValue.toText
  let orderSide ← row[2]?.bind SqlValue.toText
  let clientOrderId ← row[3]?.bind SqlValue.toText
  let averagePrice ← row[4]?.bind SqlValue.stod
  let filledSize ← row[5]?.bind SqlValue.stod
  let systemTimestamp ← row[6]?.bind SqlValue.stoull
  let priceAfter ← Horizon.sequence fun h => row[h.pricePosition]?.bind SqlValue.stod
  let pnlPercentage ← Horizon.sequence fun h => row[h.pnlPosition]?.bind SqlValue.stod
  let commissionRate ← row[33]?.bind SqlValue.stod
  return { accountFlag, symbol, orderSide, clientOrderId, averagePrice, filledSize,
           systemTimestamp, priceAfter, pnlPercentage, commissionRate }

/-- The loop over the rows of a result; an exception ends it. -/
def fetchRows : List (List SqlValue) → List StatOrderFullInfo
  | [] => []
  | row :: rows =>
    match StatOrderFullInfo.ofRow row with
    | some info => info :: fetchRows rows
    | none => []

/-- `system_timestamp` in the clauses of the select. -/
def timestamp (row : OrderPnlRow) : ℕ := (row .systemTimestamp).stoull.getD 0

/-- The rows of a select: those of some accounts from a time on, oldest first. -/
def selectRecent (since : ℕ) (accounts : List String) (table : List OrderPnlRow) :
    List OrderPnlRow :=
  (table.filter fun row => decide (since ≤ timestamp row) &&
    accounts.any fun account => decide (row .accountFlag = .text account)).insertionSort
      fun row row' => timestamp row ≤ timestamp row'

/-- `load_recently_order_stat_result`: the records it reads. -/
def loadRecentlyOrderStatResult (now : ℕ) (accountsNeedStatistics : List String)
    (table : List OrderPnlRow) : List StatOrderFullInfo :=
  fetchRows ((selectRecent (u64 (now - 3610)) accountsNeedStatistics table).map selectColumns.map)

/-! ## What is stored of an order -/

open OrderPnlColumn SqlValue in
/-- The row of an order after its first and its last save. -/
def storedRow (first last : OrderSave) : OrderPnlRow
  | accountFlag => text first.info.accountFlag
  | symbol => text first.info.symbol
  | orderSide => text first.info.orderSide
  | clientOrderId => text first.info.clientOrderId
  | averagePrice => decimal first.info.averagePrice
  | filledSize => decimal last.info.filledSize
  | systemTimestamp => bigint first.info.systemTimestamp
  | createTime => datetime first.now
  | priceAfter h => decimal (last.info.priceAfter h)
  | pnlPercentage h => decimal (last.info.pnlPercentage h)
  | commissionRate => decimal first.info.commissionRate
  | hasTradingVolume => text last.info.hasTradingVolume

/-- A row is inserted as if its own save had updated it. -/
theorem insertRow_eq (save : OrderSave) : insertRow save = storedRow save save := by
  funext c
  cases c with
  | priceAfter h => cases h <;> rfl
  | pnlPercentage h => cases h <;> rfl
  | _ => rfl

theorem updateRow_storedRow (first last save : OrderSave) :
    updateRow save (storedRow first last) = storedRow first save := by
  funext c
  cases c with
  | priceAfter h => cases h <;> rfl
  | pnlPercentage h => cases h <;> rfl
  | _ => rfl

/-- A later update overrides an earlier one. -/
theorem updateRow_updateRow (save save' : OrderSave) (row : OrderPnlRow) :
    updateRow save (updateRow save' row) = updateRow save row := by
  funext c
  cases c with
  | priceAfter h => cases h <;> rfl
  | pnlPercentage h => cases h <;> rfl
  | _ => rfl

namespace StatOrderFullInfo

/-- The record read of the row of an order. -/
def stored (first last : StatOrderFullInfo) : StatOrderFullInfo :=
  { first with
    filledSize := last.filledSize
    priceAfter := last.priceAfter
    pnlPercentage := last.pnlPercentage
    propertyChanged := false }

/-- The fields that no update writes. -/
def kept (info : StatOrderFullInfo) : String × String × String × ℚ × ℚ × ℕ :=
  (info.accountFlag, info.symbol, info.orderSide, info.averagePrice, info.commissionRate,
    info.systemTimestamp)

/-- A record apart from its mark of a change. -/
def unchanged (info : StatOrderFullInfo) : StatOrderFullInfo :=
  { info with propertyChanged := false }

/-- **The reader meets the columns selected**: it reads each field from the column that holds it. -/
theorem ofRow_storedRow (first last : OrderSave) :
    ofRow (selectColumns.map (storedRow first last)) = some (stored first.info last.info) := by
  have hprice : (Horizon.sequence fun h =>
      (selectColumns.map (storedRow first last))[h.pricePosition]?.bind SqlValue.stod) =
        some last.info.priceAfter := by
    rw [← Horizon.sequence_some]
    congr 1
    funext h
    cases h <;> rfl
  have hpnl : (Horizon.sequence fun h =>
      (selectColumns.map (storedRow first last))[h.pnlPosition]?.bind SqlValue.stod) =
        some last.info.pnlPercentage := by
    rw [← Horizon.sequence_some]
    congr 1
    funext h
    cases h <;> rfl
  rw [ofRow, hprice, hpnl]
  rfl

/-- The record read is the last one exactly when it has the fields of the first that no update
writes. -/
theorem stored_eq_unchanged_iff {first last : StatOrderFullInfo}
    (hid : first.clientOrderId = last.clientOrderId) :
    stored first last = last.unchanged ↔ first.kept = last.kept := by
  cases first
  cases last
  simp only [stored, unchanged, kept, mk.injEq, Prod.mk.injEq] at hid ⊢
  tauto

end StatOrderFullInfo

/-! ## Loads of a table of saves -/

/-- The first record saved of an order. -/
def firstSaved (id : String) (saves : List OrderSave) : Option OrderSave :=
  KeyedTable.firstSave (·.info.clientOrderId) id saves

/-- The last record saved of an order. -/
def lastSaved (id : String) (saves : List OrderSave) : Option OrderSave :=
  KeyedTable.lastSave (·.info.clientOrderId) id saves

theorem uniqueKey_insertRow (save : OrderSave) :
    uniqueKey (insertRow save) = .text save.info.clientOrderId := rfl

theorem uniqueKey_updateRow (save : OrderSave) (row : OrderPnlRow) :
    uniqueKey (updateRow save row) = uniqueKey row := rfl

theorem updateRow_insertRow (save save' : OrderSave) :
    updateRow save' (insertRow save) = storedRow save save' := by
  rw [insertRow_eq, updateRow_storedRow]

/-- The row under a key goes back to the first and the last save with it. -/
theorem find_orderPnlTable (saves : List OrderSave) (key : SqlValue) :
    (orderPnlTable saves).find? (fun row => decide (uniqueKey row = key)) =
      (KeyedTable.firstSave (fun save => SqlValue.text save.info.clientOrderId) key saves).map
        fun first => storedRow first ((KeyedTable.lastSave
          (fun save => SqlValue.text save.info.clientOrderId) key saves).getD first) := by
  have hself : ∀ save, updateRow save (insertRow save) = insertRow save := by
    intro save
    rw [updateRow_insertRow, insertRow_eq]
  have hfind := KeyedTable.find_tableAfter uniqueKey_updateRow hself updateRow_updateRow saves key
  simp only [uniqueKey_insertRow, updateRow_insertRow] at hfind
  exact hfind

theorem firstSave_text (id : String) (saves : List OrderSave) :
    KeyedTable.firstSave (fun save => SqlValue.text save.info.clientOrderId) (.text id) saves =
      firstSaved id saves := by
  simp only [KeyedTable.firstSave, firstSaved, SqlValue.text.injEq]

theorem lastSave_text (id : String) (saves : List OrderSave) :
    KeyedTable.lastSave (fun save => SqlValue.text save.info.clientOrderId) (.text id) saves =
      lastSaved id saves := by
  simp only [KeyedTable.lastSave, lastSaved, SqlValue.text.injEq]

theorem clientOrderId_of_firstSaved {id : String} {saves : List OrderSave} {first : OrderSave}
    (h : firstSaved id saves = some first) : first.info.clientOrderId = id :=
  KeyedTable.key_of_firstSave (k := fun save : OrderSave => save.info.clientOrderId) h

theorem clientOrderId_of_lastSaved {id : String} {saves : List OrderSave} {last : OrderSave}
    (h : lastSaved id saves = some last) : last.info.clientOrderId = id :=
  KeyedTable.key_of_lastSave (k := fun save : OrderSave => save.info.clientOrderId) h

/-- The rows of the table. -/
theorem mem_orderPnlTable_iff {saves : List OrderSave} {row : OrderPnlRow} :
    row ∈ orderPnlTable saves ↔ ∃ id first last, firstSaved id saves = some first ∧
      lastSaved id saves = some last ∧ row = storedRow first last := by
  have hnodup : ((orderPnlTable saves).map uniqueKey).Nodup :=
    KeyedTable.nodup_tableAfter uniqueKey_updateRow saves
  rw [KeyedTable.mem_iff_find hnodup, find_orderPnlTable]
  constructor
  · intro h
    obtain ⟨first, hfirst, hrow⟩ := Option.map_eq_some_iff.mp h
    have hkey : uniqueKey row = .text first.info.clientOrderId :=
      (KeyedTable.key_of_firstSave hfirst).symm
    rw [hkey, firstSave_text] at hfirst
    rw [hkey, lastSave_text] at hrow
    cases hlast : lastSaved first.info.clientOrderId saves with
    | none =>
      have hnone : firstSaved first.info.clientOrderId saves = none :=
        KeyedTable.lastSave_eq_none_iff.mp hlast
      rw [hfirst] at hnone
      cases hnone
    | some last =>
      rw [hlast] at hrow
      exact ⟨_, first, last, hfirst, hlast, hrow.symm⟩
  · rintro ⟨id, first, last, hfirst, hlast, rfl⟩
    have hkey : uniqueKey (storedRow first last) = .text id :=
      congrArg SqlValue.text (clientOrderId_of_firstSaved hfirst)
    rw [hkey, firstSave_text, lastSave_text, hfirst, hlast]
    rfl

/-- Where the reader throws at no row, the loop reads them all. -/
theorem mem_fetchRows_iff {rows : List (List SqlValue)}
    (h : ∀ row ∈ rows, (StatOrderFullInfo.ofRow row).isSome) {info : StatOrderFullInfo} :
    info ∈ fetchRows rows ↔ ∃ row ∈ rows, StatOrderFullInfo.ofRow row = some info := by
  induction rows with
  | nil => simp [fetchRows]
  | cons row rows ih =>
    obtain ⟨hrow, hrows⟩ := List.forall_mem_cons.mp h
    obtain ⟨read, hread⟩ := Option.isSome_iff_exists.mp hrow
    simp [fetchRows, hread, ih hrows, eq_comm]

theorem mem_selectRecent_iff {since : ℕ} {accounts : List String} {table : List OrderPnlRow}
    {row : OrderPnlRow} : row ∈ selectRecent since accounts table ↔ row ∈ table ∧
      since ≤ timestamp row ∧ ∃ account ∈ accounts, row .accountFlag = .text account := by
  rw [selectRecent, List.mem_insertionSort, List.mem_filter]
  simp

/-- **What is loaded** of an order that was saved: its first record, with the columns of the update
from its last. -/
theorem mem_loadRecently_iff {now : ℕ} {accounts : List String} {saves : List OrderSave}
    {info : StatOrderFullInfo} :
    info ∈ loadRecentlyOrderStatResult now accounts (orderPnlTable saves) ↔
      ∃ id first last, firstSaved id saves = some first ∧ lastSaved id saves = some last ∧
        info = first.info.stored last.info ∧ u64 (now - 3610) ≤ first.info.systemTimestamp ∧
        first.info.accountFlag ∈ accounts := by
  have hread : ∀ row ∈ (selectRecent (u64 (now - 3610)) accounts (orderPnlTable saves)).map
      selectColumns.map, (StatOrderFullInfo.ofRow row).isSome := by
    intro _ hselected
    obtain ⟨row, hrow, rfl⟩ := List.mem_map.mp hselected
    obtain ⟨id, first, last, -, -, rfl⟩ := mem_orderPnlTable_iff.mp (mem_selectRecent_iff.mp hrow).1
    rw [StatOrderFullInfo.ofRow_storedRow]
    rfl
  rw [loadRecentlyOrderStatResult, mem_fetchRows_iff hread]
  constructor
  · rintro ⟨_, hselected, hinfo⟩
    obtain ⟨row, hrow, rfl⟩ := List.mem_map.mp hselected
    obtain ⟨hrow, hsince, account, haccount, hflag⟩ := mem_selectRecent_iff.mp hrow
    obtain ⟨id, first, last, hfirst, hlast, rfl⟩ := mem_orderPnlTable_iff.mp hrow
    rw [StatOrderFullInfo.ofRow_storedRow] at hinfo
    obtain rfl : first.info.accountFlag = account := SqlValue.text.inj hflag
    exact ⟨id, first, last, hfirst, hlast, (Option.some.inj hinfo).symm, hsince, haccount⟩
  · rintro ⟨id, first, last, hfirst, hlast, rfl, hsince, haccount⟩
    have hrow := mem_orderPnlTable_iff.mpr ⟨id, first, last, hfirst, hlast, rfl⟩
    exact ⟨_, List.mem_map_of_mem (mem_selectRecent_iff.mpr ⟨hrow, hsince, _, haccount, rfl⟩),
      StatOrderFullInfo.ofRow_storedRow first last⟩

/-- **The last record saved of an order is what is loaded of it**, whenever and for whatever
accounts that is, exactly when it has the fields of the first that no update writes. -/
theorem load_eq_last_iff (saves : List OrderSave) (id : String) :
    (∀ now accounts, ∀ info ∈ loadRecentlyOrderStatResult now accounts (orderPnlTable saves),
        info.clientOrderId = id →
          (lastSaved id saves).map (·.info.unchanged) = some info) ↔
      (firstSaved id saves).map (·.info.kept) = (lastSaved id saves).map (·.info.kept) := by
  cases hfirst : firstSaved id saves with
  | none =>
    have hlast : lastSaved id saves = none := KeyedTable.lastSave_eq_none_iff.mpr hfirst
    refine iff_of_true (fun now accounts info hinfo hid => ?_) (by rw [hlast])
    obtain ⟨id', first, last, hfirst', -, rfl, -⟩ := mem_loadRecently_iff.mp hinfo
    have hid' : first.info.clientOrderId = id' := clientOrderId_of_firstSaved hfirst'
    rw [← hid', show first.info.clientOrderId = id from hid, hfirst] at hfirst'
    cases hfirst'
  | some first =>
    obtain ⟨last, hlast⟩ : ∃ last, lastSaved id saves = some last := by
      refine Option.ne_none_iff_exists'.mp fun h => ?_
      have hnone : firstSaved id saves = none := KeyedTable.lastSave_eq_none_iff.mp h
      rw [hfirst] at hnone
      cases hnone
    have hidfirst : first.info.clientOrderId = id := clientOrderId_of_firstSaved hfirst
    have hidlast : last.info.clientOrderId = id := clientOrderId_of_lastSaved hlast
    have hstored := StatOrderFullInfo.stored_eq_unchanged_iff (hidfirst.trans hidlast.symm)
    rw [hlast]
    refine Iff.trans ?_ (hstored.trans Option.some_inj.symm)
    constructor
    · intro h
      have hload : first.info.stored last.info ∈
          loadRecentlyOrderStatResult 3610 [first.info.accountFlag] (orderPnlTable saves) :=
        mem_loadRecently_iff.mpr ⟨id, first, last, hfirst, hlast, rfl, Nat.zero_le _, by simp⟩
      exact (Option.some.inj (h _ _ _ hload hidfirst)).symm
    · intro h now accounts info hinfo hid
      obtain ⟨id', first', last', hfirst', hlast', rfl, -⟩ := mem_loadRecently_iff.mp hinfo
      have hid' : first'.info.clientOrderId = id' := clientOrderId_of_firstSaved hfirst'
      obtain rfl : id' = id := hid'.symm.trans hid
      obtain rfl := Option.some.inj (hfirst.symm.trans hfirst')
      obtain rfl := Option.some.inj (hlast.symm.trans hlast')
      exact congrArg some h.symm

/-- A second fill moves the average price, which no update writes. -/
theorem averagePrice_not_updated :
    let first : StatOrderFullInfo :=
      { accountFlag := "a", symbol := "BTCUSDT", orderSide := "BUY", clientOrderId := "1",
        averagePrice := 100, filledSize := 1, commissionRate := 0, systemTimestamp := 5000 }
    let second : StatOrderFullInfo := { first with averagePrice := 101, filledSize := 2 }
    let saves : List OrderSave := [⟨first, 5001⟩, ⟨second, 5002⟩]
    ¬ ∀ now accounts, ∀ info ∈ loadRecentlyOrderStatResult now accounts (orderPnlTable saves),
      info.clientOrderId = "1" → (lastSaved "1" saves).map (·.info.unchanged) = some info := by
  intro first second saves h
  have hload : first.stored second ∈ loadRecentlyOrderStatResult 5003 ["a"] (orderPnlTable saves) :=
    mem_loadRecently_iff.mpr ⟨"1", _, _, rfl, rfl, rfl, by decide, by decide⟩
  have hprice := congrArg StatOrderFullInfo.averagePrice (Option.some.inj (h _ _ _ hload rfl))
  exact absurd hprice (by decide)

end UmTaker.Evaluator
