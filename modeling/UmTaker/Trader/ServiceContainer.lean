import UmTaker.Common.Basic
import UmTaker.Concurrency.Program
import Mathlib.Data.List.AList

/-!
# The order services

`OrderServiceManager` keeps one exchange connection for each pair of a local and a remote IP, and
for each symbol the pair of its best path. Every method works behind one lock from its first line
to its last, so that each is a single step; the clock of the machine goes on between them.

## Main definitions

* `WsClientWrapper`: a connection, with the time of its last update
* `OrderServiceManager`: the connections by IP pair, and the IP pairs by symbol
* `updateBestService`, `stopAndRemoveService`, `findUpdateExpiredService`: the methods
* `ServiceOp`, `serviceExec`: the methods as operations, and the clock
-/

namespace UmTaker.Trader

open Concurrency

/-! ## The connections -/

/-- A connection to the exchange. -/
structure WsClientWrapper where
  localIp : String
  remoteIp : String
  hasInitStarted : Bool
  isStopped : Bool
  updateTimeMillis : ℕ
  deriving DecidableEq

namespace WsClientWrapper

/-- A wrapper as it was made, with `init` behind it. -/
def init (localIp remoteIp : String) : WsClientWrapper where
  localIp := localIp
  remoteIp := remoteIp
  hasInitStarted := false
  isStopped := false
  updateTimeMillis := 0

/-- `start`: once only. -/
def start (wrapper : WsClientWrapper) : WsClientWrapper :=
  if wrapper.hasInitStarted then wrapper
  else { wrapper with isStopped := false, hasInitStarted := true }

@[simp] theorem start_updateTimeMillis (wrapper : WsClientWrapper) :
    wrapper.start.updateTimeMillis = wrapper.updateTimeMillis := by
  unfold start
  split_ifs <;> rfl

end WsClientWrapper

/-- The connections by their IP pair, and the best IP pair of each symbol. -/
structure OrderServiceManager where
  symbolBestIppairMap : AList fun _ : String => String
  ippairServiceMap : AList fun _ : String => WsClientWrapper

namespace OrderServiceManager

/-- No symbol and no connection yet. -/
def empty : OrderServiceManager where
  symbolBestIppairMap := ∅
  ippairServiceMap := ∅

/-- The key of a connection. -/
def ipPair (localIp remoteIp : String) : String := localIp ++ "_" ++ remoteIp

/-- `update_best_service` at a clock reading: the connection is created or refreshed, and the symbol
is mapped to it. -/
def updateBestService (symbol localIp remoteIp : String) (now : ℕ) (m : OrderServiceManager) :
    OrderServiceManager × Bool :=
  let key := ipPair localIp remoteIp
  match m.ippairServiceMap.lookup key with
  | none =>
    ({ symbolBestIppairMap := m.symbolBestIppairMap.insert symbol key
       ippairServiceMap := m.ippairServiceMap.insert key
        { WsClientWrapper.init localIp remoteIp with updateTimeMillis := now }.start }, true)
  | some original =>
    ({ symbolBestIppairMap := m.symbolBestIppairMap.insert symbol key
       ippairServiceMap :=
        m.ippairServiceMap.insert key { original with updateTimeMillis := now } }, false)

/-- The first look of `find_best_service`: the pair of the symbol, or the empty string. -/
def findIpPair (symbol : String) (m : OrderServiceManager) : String :=
  (m.symbolBestIppairMap.lookup symbol).getD ""

/-- The second look of `find_best_service`, behind the lock taken again. -/
def findService (ipPair : String) (m : OrderServiceManager) : Option WsClientWrapper :=
  m.ippairServiceMap.lookup ipPair

/-- `get_all_service_ip_pairs`. -/
def getAllServiceIpPairs (m : OrderServiceManager) : List String := m.ippairServiceMap.keys

/-- `find_update_expired_service` at a clock reading. -/
def findUpdateExpiredService (expiredMillis now : ℕ) (m : OrderServiceManager) : List String :=
  (m.ippairServiceMap.entries.filter fun e =>
    decide (u64 (e.2.updateTimeMillis + expiredMillis) ≤ now)).map (·.1)

/-- `stop_and_remove_service`: the connection is stopped before it is erased, which ends its
thread; the maps do not hold it any more. -/
def stopAndRemoveService (ipPair : String) (m : OrderServiceManager) : OrderServiceManager :=
  { m with ippairServiceMap := m.ippairServiceMap.erase ipPair }

/-- The symbol updated maps to the pair, and every other one as before. -/
theorem lookup_symbol_updateBestService (symbol localIp remoteIp : String) (now : ℕ)
    (m : OrderServiceManager) (other : String) :
    (m.updateBestService symbol localIp remoteIp now).1.symbolBestIppairMap.lookup other =
      if other = symbol then some (ipPair localIp remoteIp)
      else m.symbolBestIppairMap.lookup other := by
  have hinsert : (m.updateBestService symbol localIp remoteIp now).1.symbolBestIppairMap =
      m.symbolBestIppairMap.insert symbol (ipPair localIp remoteIp) := by
    simp only [updateBestService]
    split <;> rfl
  rw [hinsert]
  split_ifs with h
  · rw [h, AList.lookup_insert]
  · exact AList.lookup_insert_ne h

/-- The connection updated carries the reading, and every other one is as before. -/
theorem lookup_service_updateBestService (symbol localIp remoteIp : String) (now : ℕ)
    (m : OrderServiceManager) (other : String) :
    (other = ipPair localIp remoteIp ∧
        ∃ w, (m.updateBestService symbol localIp remoteIp now).1.ippairServiceMap.lookup other =
          some w ∧ w.updateTimeMillis = now) ∨
      (other ≠ ipPair localIp remoteIp ∧
        (m.updateBestService symbol localIp remoteIp now).1.ippairServiceMap.lookup other =
          m.ippairServiceMap.lookup other) := by
  by_cases h : other = ipPair localIp remoteIp
  · refine Or.inl ⟨h, ?_⟩
    subst h
    simp only [updateBestService]
    split
    · exact ⟨_, AList.lookup_insert _, WsClientWrapper.start_updateTimeMillis _⟩
    · exact ⟨_, AList.lookup_insert _, rfl⟩
  · refine Or.inr ⟨h, ?_⟩
    simp only [updateBestService]
    split <;> exact AList.lookup_insert_ne h

/-- A pair that the scan lists has a connection whose update lies back that far. -/
theorem mem_findUpdateExpiredService {expiredMillis now : ℕ} {m : OrderServiceManager}
    {ipPair : String} :
    ipPair ∈ m.findUpdateExpiredService expiredMillis now ↔
      ∃ w, m.ippairServiceMap.lookup ipPair = some w ∧
        u64 (w.updateTimeMillis + expiredMillis) ≤ now := by
  simp only [findUpdateExpiredService, List.mem_map, List.mem_filter, decide_eq_true_eq]
  constructor
  · rintro ⟨⟨key, w⟩, ⟨hmem, hold⟩, rfl⟩
    exact ⟨w, AList.mem_lookup_iff.mpr hmem, hold⟩
  · rintro ⟨w, hlookup, hold⟩
    exact ⟨⟨ipPair, w⟩, ⟨AList.mem_lookup_iff.mp hlookup, hold⟩, rfl⟩

end OrderServiceManager

/-! ## The operations -/

/-- Why the clean-up takes a connection down. -/
inductive RemovalReason
  | unused
  | expired
  deriving DecidableEq

/-- The methods of the manager, and the clock. A removal is told why it is made, which the method
itself does not ask. -/
inductive ServiceOp
  | updateBestService (symbol localIp remoteIp : String)
  | getAllServiceIpPairs
  | getInuseSymbolIpMapping
  | findUpdateExpiredService (expiredMillis : ℕ)
  | stopAndRemoveService (reason : RemovalReason) (ipPair : String)
  | tick (millis : ℕ)

abbrev ServiceAns : ServiceOp → Type
  | .updateBestService .. => Bool
  | .getAllServiceIpPairs => List String
  | .getInuseSymbolIpMapping => AList fun _ : String => String
  | .findUpdateExpiredService _ => List String
  | .stopAndRemoveService .. => Unit
  | .tick _ => Unit

/-- The manager and the clock of the machine. -/
structure ServiceState where
  manager : OrderServiceManager
  clock : ℕ

/-- The clock counts in a signed 64-bit integer. -/
def maxClock : ℕ := 9223372036854775807

/-- An operation carried out; a method reads the clock behind its lock. -/
def serviceExec : (o : ServiceOp) → ServiceState → Option (ServiceState × ServiceAns o)
  | .updateBestService symbol localIp remoteIp, s =>
    let r := s.manager.updateBestService symbol localIp remoteIp s.clock
    some ({ s with manager := r.1 }, r.2)
  | .getAllServiceIpPairs, s => some (s, s.manager.getAllServiceIpPairs)
  | .getInuseSymbolIpMapping, s => some (s, s.manager.symbolBestIppairMap)
  | .findUpdateExpiredService expiredMillis, s =>
    some (s, s.manager.findUpdateExpiredService expiredMillis s.clock)
  | .stopAndRemoveService _ ipPair, s =>
    some ({ s with manager := s.manager.stopAndRemoveService ipPair }, ())
  | .tick millis, s =>
    if s.clock + millis ≤ maxClock then some ({ s with clock := s.clock + millis }, ()) else none

abbrev ServiceProg := Prog ServiceOp ServiceAns

end UmTaker.Trader
