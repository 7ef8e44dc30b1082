import UmTaker.Concurrency.Transcript
import UmTaker.General.Run
import UmTaker.Trader.ServiceContainer

/-!
# The connections behind their handles

`OrderServiceManager` hands out shared pointers: a thread goes on with a connection that was erased
from the maps meanwhile, and finds out by its flag `is_stopped`. Here the maps hold handles, and the
connections are kept by handle also after they were erased. Forgetting the handles gives the manager
whose maps hold the connections themselves.

## Main definitions

* `OrderConnections`: the connections made so far, by handle, and the maps
* `OrderConnections.updateBestService`, `OrderConnections.stopAndRemoveService`: the methods
* `OrderConnections.Tended`: the connections that run are those in the map, one for each IP pair
* `OrderConnections.Grows`: the connections made stay behind their handles
* `OrderConnections.Refines`: the maps hold what the handles stand for
* `connectionExec`: the methods as operations, over the handles
* `ManagerOp`: these methods and the two looks of `find_best_service`
* `SameAnswer`: what a method answers with handles, and without

## Main results

* `OrderConnections.Tended.updateBestService`, `OrderConnections.Tended.stopAndRemoveService`: the
  methods keep the connections tended
* `OrderConnections.Refines.updateBestService`, `OrderConnections.Refines.stopAndRemoveService`,
  `OrderConnections.Refines.findUpdateExpiredService`: with handles the manager does the same
* `connections_refine_manager`: whatever is called, the answers are those of the manager itself
-/

namespace UmTaker.Trader

open Concurrency

/-- `WsClientWrapper::stop`. -/
def WsClientWrapper.stop (wrapper : WsClientWrapper) : WsClientWrapper :=
  { wrapper with isStopped := true }

/-- The key of the connection. -/
def WsClientWrapper.ipPair (wrapper : WsClientWrapper) : String :=
  OrderServiceManager.ipPair wrapper.localIp wrapper.remoteIp

/-- A shared pointer: the place of its connection among all those made. -/
abbrev ServiceHandle := ℕ

/-- The connections made so far, the best IP pair of each symbol, and the connection in use for each
IP pair. -/
structure OrderConnections where
  wrappers : List WsClientWrapper
  symbolBestIppairMap : AList fun _ : String => String
  ippairServiceMap : AList fun _ : String => ServiceHandle

namespace OrderConnections

/-! ## The methods -/

/-- No symbol and no connection yet. -/
def empty : OrderConnections where
  wrappers := []
  symbolBestIppairMap := ∅
  ippairServiceMap := ∅

/-- `update_best_service` at a clock reading. The wrapper that the caller made is used for a new
pair only; for a known one it is dropped. -/
def updateBestService (symbol localIp remoteIp : String) (now : ℕ) (c : OrderConnections) :
    OrderConnections × Bool :=
  let key := OrderServiceManager.ipPair localIp remoteIp
  match c.ippairServiceMap.lookup key with
  | none =>
    ({ wrappers := c.wrappers ++
        [{ WsClientWrapper.init localIp remoteIp with updateTimeMillis := now }.start]
       symbolBestIppairMap := c.symbolBestIppairMap.insert symbol key
       ippairServiceMap := c.ippairServiceMap.insert key c.wrappers.length }, true)
  | some original =>
    ({ c with
        wrappers := c.wrappers.modify original fun w => { w with updateTimeMillis := now }
        symbolBestIppairMap := c.symbolBestIppairMap.insert symbol key }, false)

/-- The first look of `find_best_service`: the pair of the symbol, or the empty string. -/
def findIpPair (symbol : String) (c : OrderConnections) : String :=
  (c.symbolBestIppairMap.lookup symbol).getD ""

/-- The second look of `find_best_service`, behind the lock taken again. -/
def findService (ipPair : String) (c : OrderConnections) : Option ServiceHandle :=
  c.ippairServiceMap.lookup ipPair

/-- `get_local_ip` of the connection. -/
def getLocalIp (service : ServiceHandle) (c : OrderConnections) : String :=
  (c.wrappers[service]?.map (·.localIp)).getD ""

/-- The flag that `place_order` looks at. -/
def isStopped (service : ServiceHandle) (c : OrderConnections) : Bool :=
  c.wrappers[service]?.any (·.isStopped)

/-- `get_all_service_ip_pairs`. -/
def getAllServiceIpPairs (c : OrderConnections) : List String := c.ippairServiceMap.keys

/-- `find_update_expired_service` at a clock reading. -/
def findUpdateExpiredService (expiredMillis now : ℕ) (c : OrderConnections) : List String :=
  (c.ippairServiceMap.entries.filter fun e => c.wrappers[e.2]?.any fun w =>
    decide (u64 (w.updateTimeMillis + expiredMillis) ≤ now)).map (·.1)

/-- `stop_and_remove_service`. -/
def stopAndRemoveService (ipPair : String) (c : OrderConnections) : OrderConnections :=
  match c.ippairServiceMap.lookup ipPair with
  | none => c
  | some original =>
    { c with
      wrappers := if c.isStopped original then c.wrappers
        else c.wrappers.modify original WsClientWrapper.stop
      ippairServiceMap := c.ippairServiceMap.erase ipPair }

/-! ## Connections that run -/

/-- The map holds running connections under their own pairs, and a connection that is not in the map
under its pair was stopped. -/
structure Tended (c : OrderConnections) : Prop where
  mapped : ∀ ipPair service, c.ippairServiceMap.lookup ipPair = some service →
    ∃ w, c.wrappers[service]? = some w ∧ w.ipPair = ipPair ∧ w.hasInitStarted = true ∧
      w.isStopped = false
  running : ∀ service w, c.wrappers[service]? = some w → w.hasInitStarted = true ∧
    (w.isStopped = false → c.ippairServiceMap.lookup w.ipPair = some service)

namespace Tended

variable {c : OrderConnections}

theorem empty : Tended OrderConnections.empty where
  mapped ipPair service h := by simp [OrderConnections.empty] at h
  running service w h := by simp [OrderConnections.empty] at h

/-- A handle in the map is one of a connection made. -/
theorem lt_length (h : Tended c) {ipPair : String} {service : ServiceHandle}
    (hlookup : c.ippairServiceMap.lookup ipPair = some service) : service < c.wrappers.length := by
  obtain ⟨w, hw, -⟩ := h.mapped ipPair service hlookup
  exact (List.getElem?_eq_some_iff.mp hw).1

/-- Different pairs have different connections. -/
theorem injective (h : Tended c) {ipPair ipPair' : String} {service : ServiceHandle}
    (hlookup : c.ippairServiceMap.lookup ipPair = some service)
    (hlookup' : c.ippairServiceMap.lookup ipPair' = some service) : ipPair = ipPair' := by
  obtain ⟨w, hw, rfl, -⟩ := h.mapped ipPair service hlookup
  obtain ⟨w', hw', rfl, -⟩ := h.mapped ipPair' service hlookup'
  rw [Option.some.inj (hw.symm.trans hw')]

/-- A change of connections that leaves their pairs and flags alone. -/
theorem modify (h : Tended c) (service : ServiceHandle) {f : WsClientWrapper → WsClientWrapper}
    (hf : ∀ w, (f w).ipPair = w.ipPair ∧ (f w).hasInitStarted = w.hasInitStarted ∧
      (f w).isStopped = w.isStopped) (symbols : AList fun _ : String => String) :
    Tended
      { c with wrappers := c.wrappers.modify service f, symbolBestIppairMap := symbols } where
  mapped ipPair other hother := by
    obtain ⟨w, hw, hpair, hstarted, hstopped⟩ := h.mapped ipPair other hother
    obtain ⟨hfpair, hfstarted, hfstopped⟩ := hf w
    rw [List.getElem?_modify, hw]
    by_cases hsame : service = other
    · exact ⟨f w, by simp [hsame], hfpair.trans hpair, hfstarted.trans hstarted,
        hfstopped.trans hstopped⟩
    · exact ⟨w, by simp [hsame], hpair, hstarted, hstopped⟩
  running other w' hw' := by
    rw [List.getElem?_modify] at hw'
    obtain ⟨w, hw, hmodified⟩ := Option.map_eq_some_iff.mp hw'
    obtain ⟨hstarted, hrunning⟩ := h.running other w hw
    have hkept : w'.ipPair = w.ipPair ∧ w'.hasInitStarted = w.hasInitStarted ∧
        w'.isStopped = w.isStopped := by
      rw [← hmodified]
      split_ifs
      · exact hf w
      · exact ⟨rfl, rfl, rfl⟩
    refine ⟨hkept.2.1.trans hstarted, fun hstopped => ?_⟩
    rw [hkept.1]
    exact hrunning (hkept.2.2.symm.trans hstopped)

/-- **An update** keeps the connections tended: a new pair gets a connection of its own. -/
theorem updateBestService (h : Tended c) (symbol localIp remoteIp : String) (now : ℕ) :
    Tended (c.updateBestService symbol localIp remoteIp now).1 := by
  simp only [OrderConnections.updateBestService]
  cases hlookup : c.ippairServiceMap.lookup (OrderServiceManager.ipPair localIp remoteIp) with
  | some original =>
    exact h.modify original (f := fun w => { w with updateTimeMillis := now })
      (fun w => ⟨rfl, rfl, rfl⟩) _
  | none =>
    refine ⟨fun ipPair service hservice => ?_, fun service w hw => ?_⟩
    · by_cases hpair : ipPair = OrderServiceManager.ipPair localIp remoteIp
      · subst hpair
        rw [AList.lookup_insert] at hservice
        obtain rfl := Option.some.inj hservice
        exact ⟨_, List.getElem?_concat_length, rfl, rfl, rfl⟩
      · rw [AList.lookup_insert_ne hpair] at hservice
        obtain ⟨w, hw, hrest⟩ := h.mapped ipPair service hservice
        refine ⟨w, ?_, hrest⟩
        rw [List.getElem?_append_left (h.lt_length hservice)]
        exact hw
    · rcases Nat.lt_or_ge service c.wrappers.length with hold | hnew
      · rw [List.getElem?_append_left hold] at hw
        obtain ⟨hstarted, hrunning⟩ := h.running service w hw
        refine ⟨hstarted, fun hstopped => ?_⟩
        -- an older connection of this pair was stopped, or the pair would be known
        have hpair : w.ipPair ≠ OrderServiceManager.ipPair localIp remoteIp := by
          intro hpair
          have hknown := hrunning hstopped
          rw [hpair, hlookup] at hknown
          cases hknown
        rw [AList.lookup_insert_ne hpair]
        exact hrunning hstopped
      · rw [List.getElem?_append_right hnew, List.getElem?_singleton] at hw
        split_ifs at hw with hzero
        obtain rfl := Option.some.inj hw
        obtain rfl : service = c.wrappers.length :=
          le_antisymm (Nat.sub_eq_zero_iff_le.mp hzero) hnew
        exact ⟨rfl, fun _ => AList.lookup_insert _⟩

/-- **A removal** keeps the connections tended: it stops the one it erases. -/
theorem stopAndRemoveService (h : Tended c) (ipPair : String) :
    Tended (c.stopAndRemoveService ipPair) := by
  unfold OrderConnections.stopAndRemoveService
  cases hlookup : c.ippairServiceMap.lookup ipPair with
  | none => exact h
  | some original =>
    obtain ⟨w₀, hw₀, hpair₀, -, hstopped₀⟩ := h.mapped ipPair original hlookup
    have hruns : c.isStopped original = false := by simp [isStopped, hw₀, hstopped₀]
    simp only [hruns, Bool.false_eq_true, if_false]
    refine ⟨fun other service hservice => ?_, fun service w hw => ?_⟩
    · have hne : other ≠ ipPair := by
        rintro rfl
        simp at hservice
      rw [AList.lookup_erase_ne hne] at hservice
      obtain ⟨w, hw, hpair, hrest⟩ := h.mapped other service hservice
      have hother : original ≠ service := by
        rintro rfl
        exact hne (h.injective hservice hlookup)
      exact ⟨w, by simp [hw, hother], hpair, hrest⟩
    · rw [List.getElem?_modify] at hw
      obtain ⟨w', hw', hmodified⟩ := Option.map_eq_some_iff.mp hw
      obtain ⟨hstarted, hrunning⟩ := h.running service w' hw'
      by_cases hsame : original = service
      · have hw : w = w'.stop := by simpa [hsame] using hmodified.symm
        rw [hw]
        exact ⟨hstarted, fun hstopped => by cases hstopped⟩
      · obtain rfl : w' = w := by simpa [hsame] using hmodified
        refine ⟨hstarted, fun hstopped => ?_⟩
        have hne : w'.ipPair ≠ ipPair := by
          intro hpair
          have hknown := hrunning hstopped
          rw [hpair, hlookup] at hknown
          exact hsame (Option.some.inj hknown)
        rw [AList.lookup_erase_ne hne]
        exact hrunning hstopped

end Tended

/-! ## What stays -/

/-- Every connection made stays behind its handle, with its IPs; a stopped one stays stopped. -/
def Grows (c c' : OrderConnections) : Prop :=
  ∀ (service : ServiceHandle) (w : WsClientWrapper), c.wrappers[service]? = some w →
    ∃ w' : WsClientWrapper, c'.wrappers[service]? = some w' ∧ w'.localIp = w.localIp ∧
      w'.remoteIp = w.remoteIp ∧ (w.isStopped = true → w'.isStopped = true)

namespace Grows

theorem refl (c : OrderConnections) : Grows c c :=
  fun _ w hw => ⟨w, hw, rfl, rfl, id⟩

theorem trans {c₁ c₂ c₃ : OrderConnections} (h₁₂ : Grows c₁ c₂) (h₂₃ : Grows c₂ c₃) :
    Grows c₁ c₃ := by
  intro service w hw
  obtain ⟨w₂, hw₂, hlocal₂, hremote₂, hstopped₂⟩ := h₁₂ service w hw
  obtain ⟨w₃, hw₃, hlocal₃, hremote₃, hstopped₃⟩ := h₂₃ service w₂ hw₂
  exact ⟨w₃, hw₃, hlocal₃.trans hlocal₂, hremote₃.trans hremote₂, hstopped₃ ∘ hstopped₂⟩

/-- A change of one connection that leaves its IPs alone. -/
theorem modify (c : OrderConnections) (service : ServiceHandle)
    {f : WsClientWrapper → WsClientWrapper}
    (hf : ∀ w, (f w).localIp = w.localIp ∧ (f w).remoteIp = w.remoteIp ∧
      (w.isStopped = true → (f w).isStopped = true))
    {c' : OrderConnections} (hc' : c'.wrappers = c.wrappers.modify service f) : Grows c c' := by
  intro other w hw
  rw [hc', List.getElem?_modify, hw]
  by_cases hsame : service = other
  · exact ⟨f w, by simp [hsame], hf w⟩
  · exact ⟨w, by simp [hsame], rfl, rfl, id⟩

theorem updateBestService (c : OrderConnections) (symbol localIp remoteIp : String) (now : ℕ) :
    Grows c (c.updateBestService symbol localIp remoteIp now).1 := by
  simp only [OrderConnections.updateBestService]
  cases c.ippairServiceMap.lookup (OrderServiceManager.ipPair localIp remoteIp) with
  | none =>
    intro service w hw
    refine ⟨w, ?_, rfl, rfl, id⟩
    rw [List.getElem?_append_left (List.getElem?_eq_some_iff.mp hw).1]
    exact hw
  | some original =>
    apply modify c original (f := fun w => { w with updateTimeMillis := now })
    · exact fun _ => ⟨rfl, rfl, id⟩
    · rfl

theorem stopAndRemoveService (c : OrderConnections) (ipPair : String) :
    Grows c (c.stopAndRemoveService ipPair) := by
  unfold OrderConnections.stopAndRemoveService
  cases c.ippairServiceMap.lookup ipPair with
  | none => exact refl c
  | some original =>
    by_cases hstopped : c.isStopped original = true
    · simp only [hstopped, if_true]
      exact refl c
    · apply modify c original (f := WsClientWrapper.stop)
      · exact fun _ => ⟨rfl, rfl, fun _ => rfl⟩
      · simp [hstopped]

end Grows

/-! ## Without the handles -/

/-- The maps of the manager hold what the handles stand for. -/
structure Refines (c : OrderConnections) (m : OrderServiceManager) : Prop where
  symbols : c.symbolBestIppairMap = m.symbolBestIppairMap
  services : ∀ ipPair, m.ippairServiceMap.lookup ipPair =
    (c.ippairServiceMap.lookup ipPair).bind fun service => c.wrappers[service]?

namespace Refines

variable {c : OrderConnections} {m : OrderServiceManager}

theorem empty : Refines OrderConnections.empty OrderServiceManager.empty where
  symbols := rfl
  services ipPair := by simp [OrderConnections.empty, OrderServiceManager.empty]

/-- A pair has a handle exactly when it has a connection. -/
theorem lookup_eq_none_iff (h : Refines c m) (hc : Tended c) {ipPair : String} :
    m.ippairServiceMap.lookup ipPair = none ↔ c.ippairServiceMap.lookup ipPair = none := by
  rw [h.services ipPair]
  cases hlookup : c.ippairServiceMap.lookup ipPair with
  | none => simp
  | some service =>
    obtain ⟨w, hw, -⟩ := hc.mapped ipPair service hlookup
    simp [hw]

/-- The keys are the same, in whichever order. -/
theorem keys_perm (h : Refines c m) (hc : Tended c) :
    c.ippairServiceMap.keys.Perm m.ippairServiceMap.keys := by
  rw [List.perm_ext_iff_of_nodup c.ippairServiceMap.keys_nodup m.ippairServiceMap.keys_nodup]
  intro ipPair
  have hnone : m.ippairServiceMap.lookup ipPair ≠ none ↔ c.ippairServiceMap.lookup ipPair ≠ none :=
    not_congr (h.lookup_eq_none_iff hc)
  rw [ne_eq, ne_eq, AList.lookup_eq_none, AList.lookup_eq_none, not_not, not_not] at hnone
  rw [← AList.mem_keys, ← AList.mem_keys]
  exact hnone.symm

/-- **An update** does the same to the handles as to the connections, and has the same answer. -/
theorem updateBestService (h : Refines c m) (hc : Tended c) (symbol localIp remoteIp : String)
    (now : ℕ) :
    Refines (c.updateBestService symbol localIp remoteIp now).1
        (m.updateBestService symbol localIp remoteIp now).1 ∧
      (c.updateBestService symbol localIp remoteIp now).2 =
        (m.updateBestService symbol localIp remoteIp now).2 := by
  have hservices := h.services
  simp only [OrderConnections.updateBestService, OrderServiceManager.updateBestService]
  cases hlookup : c.ippairServiceMap.lookup (OrderServiceManager.ipPair localIp remoteIp) with
  | none =>
    rw [(h.lookup_eq_none_iff hc).mpr hlookup]
    refine ⟨⟨by rw [h.symbols], fun other => ?_⟩, rfl⟩
    by_cases hpair : other = OrderServiceManager.ipPair localIp remoteIp
    · subst hpair
      simp
    · rw [AList.lookup_insert_ne hpair, AList.lookup_insert_ne hpair, hservices other]
      apply Option.bind_congr
      intro service hother
      exact (List.getElem?_append_left (hc.lt_length hother)).symm
  | some original =>
    obtain ⟨w, hw, -⟩ := hc.mapped _ original hlookup
    have hknown : m.ippairServiceMap.lookup (OrderServiceManager.ipPair localIp remoteIp) =
        some w := by
      rw [hservices, hlookup]
      exact hw
    rw [hknown]
    refine ⟨⟨by rw [h.symbols], fun other => ?_⟩, rfl⟩
    by_cases hpair : other = OrderServiceManager.ipPair localIp remoteIp
    · subst hpair
      simp [hlookup, hw]
    · rw [AList.lookup_insert_ne hpair, hservices other]
      apply Option.bind_congr
      intro service hother
      have hne : original ≠ service := by
        rintro rfl
        exact hpair (hc.injective hother hlookup)
      simp [hne]

/-- **A removal** does the same: the connection it stops is not in the maps any more. -/
theorem stopAndRemoveService (h : Refines c m) (hc : Tended c) (ipPair : String) :
    Refines (c.stopAndRemoveService ipPair) (m.stopAndRemoveService ipPair) := by
  have hservices := h.services
  unfold OrderConnections.stopAndRemoveService
  cases hlookup : c.ippairServiceMap.lookup ipPair with
  | none =>
    refine ⟨h.symbols, fun other => ?_⟩
    by_cases hpair : other = ipPair
    · subst hpair
      simp [OrderServiceManager.stopAndRemoveService, hlookup]
    · rw [OrderServiceManager.stopAndRemoveService, AList.lookup_erase_ne hpair]
      exact hservices other
  | some original =>
    refine ⟨h.symbols, fun other => ?_⟩
    by_cases hpair : other = ipPair
    · subst hpair
      simp [OrderServiceManager.stopAndRemoveService]
    · rw [OrderServiceManager.stopAndRemoveService, AList.lookup_erase_ne hpair]
      simp only [AList.lookup_erase_ne hpair]
      rw [hservices other]
      apply Option.bind_congr
      intro service hother
      have hne : original ≠ service := by
        rintro rfl
        exact hpair (hc.injective hother hlookup)
      split_ifs
      · rfl
      · simp [hne]

/-- **A scan** finds the same pairs. -/
theorem findUpdateExpiredService (h : Refines c m) (expiredMillis now : ℕ) :
    (c.findUpdateExpiredService expiredMillis now).Perm
      (m.findUpdateExpiredService expiredMillis now) := by
  have hnodup : (c.findUpdateExpiredService expiredMillis now).Nodup :=
    c.ippairServiceMap.keys_nodup.sublist (List.filter_sublist.map _)
  have hnodup' : (m.findUpdateExpiredService expiredMillis now).Nodup :=
    m.ippairServiceMap.keys_nodup.sublist (List.filter_sublist.map _)
  rw [List.perm_ext_iff_of_nodup hnodup hnodup']
  intro ipPair
  rw [OrderServiceManager.mem_findUpdateExpiredService, h.services ipPair]
  simp only [OrderConnections.findUpdateExpiredService, List.mem_map, List.mem_filter,
    Option.any_eq_true, decide_eq_true_eq, Option.bind_eq_some_iff]
  constructor
  · rintro ⟨⟨key, service⟩, ⟨hmem, w, hw, hold⟩, rfl⟩
    exact ⟨w, ⟨service, AList.mem_lookup_iff.mpr hmem, hw⟩, hold⟩
  · rintro ⟨w, ⟨service, hlookup, hw⟩, hold⟩
    exact ⟨⟨ipPair, service⟩, ⟨AList.mem_lookup_iff.mp hlookup, w, hw, hold⟩, rfl⟩

end Refines

end OrderConnections

/-! ## The methods as operations -/

/-- The connections and the clock of the machine. -/
structure ConnectionState where
  connections : OrderConnections
  clock : ℕ

/-- A method carried out, at the clock it reads behind its lock. -/
def connectionExec : (o : ServiceOp) → ConnectionState → Option (ConnectionState × ServiceAns o)
  | .updateBestService symbol localIp remoteIp, s =>
    let r := s.connections.updateBestService symbol localIp remoteIp s.clock
    some ({ s with connections := r.1 }, r.2)
  | .getAllServiceIpPairs, s => some (s, s.connections.getAllServiceIpPairs)
  | .getInuseSymbolIpMapping, s => some (s, s.connections.symbolBestIppairMap)
  | .findUpdateExpiredService expiredMillis, s =>
    some (s, s.connections.findUpdateExpiredService expiredMillis s.clock)
  | .stopAndRemoveService _ ipPair, s =>
    some ({ s with connections := s.connections.stopAndRemoveService ipPair }, ())
  | .tick millis, s =>
    if s.clock + millis ≤ maxClock then some ({ s with clock := s.clock + millis }, ()) else none

/-- Every method keeps the connections tended, and those made behind their handles. -/
theorem connectionExec_keeps {o : ServiceOp} {s s' : ConnectionState} {a : ServiceAns o}
    (h : connectionExec o s = some (s', a)) (hs : s.connections.Tended) :
    s'.connections.Tended ∧ s.connections.Grows s'.connections := by
  cases o with
  | updateBestService symbol localIp remoteIp =>
    obtain ⟨rfl, -⟩ := Prod.ext_iff.mp (Option.some.inj h)
    exact ⟨hs.updateBestService _ _ _ _, .updateBestService _ _ _ _ _⟩
  | stopAndRemoveService reason ipPair =>
    obtain ⟨rfl, -⟩ := Prod.ext_iff.mp (Option.some.inj h)
    exact ⟨hs.stopAndRemoveService ipPair, .stopAndRemoveService _ ipPair⟩
  | tick millis =>
    simp only [connectionExec] at h
    split_ifs at h
    obtain ⟨rfl, -⟩ := Prod.ext_iff.mp (Option.some.inj h)
    exact ⟨hs, .refl _⟩
  | _ =>
    obtain ⟨rfl, -⟩ := Prod.ext_iff.mp (Option.some.inj h)
    exact ⟨hs, .refl _⟩

/-- The methods of the manager, with the two looks of `find_best_service`, between which the lock is
free. -/
inductive ManagerOp
  | service (o : ServiceOp)
  | findIpPair (symbol : String)
  | findService (ipPair : String)

/-- What the methods answer, where a connection is known by an `S`. -/
abbrev ManagerAns (S : Type) : ManagerOp → Type
  | .service o => ServiceAns o
  | .findIpPair _ => String
  | .findService _ => Option S

/-- A method carried out over the handles. -/
def handleExec : (o : ManagerOp) → ConnectionState →
    Option (ConnectionState × ManagerAns ServiceHandle o)
  | .service o, s => connectionExec o s
  | .findIpPair symbol, s => some (s, s.connections.findIpPair symbol)
  | .findService ipPair, s => some (s, s.connections.findService ipPair)

/-- A method carried out over the maps that hold the connections. -/
def managerExec : (o : ManagerOp) → ServiceState →
    Option (ServiceState × ManagerAns WsClientWrapper o)
  | .service o, s => serviceExec o s
  | .findIpPair symbol, s => some (s, s.manager.findIpPair symbol)
  | .findService ipPair, s => some (s, s.manager.findService ipPair)

/-- An answer, with the state in which it was given. -/
abbrev Answer (σ S : Type) := σ × Prog.Exchange ManagerOp (ManagerAns S)

/-- A method called, and its answer noted. -/
def callMethod {σ S : Type} (exec : (o : ManagerOp) → σ → Option (σ × ManagerAns S o))
    (s : σ × List (Answer σ S)) (o : ManagerOp) : σ × List (Answer σ S) :=
  match exec o s.1 with
  | some r => (r.1, s.2 ++ [(s.1, ⟨o, r.2⟩)])
  | none => s

/-- The same answer to the same call: a list of pairs comes in whichever order its map has, and a
handle stands for the connection. -/
inductive SameAnswer : Answer ConnectionState ServiceHandle → Answer ServiceState WsClientWrapper →
    Prop
  | same {s : ConnectionState} {s' : ServiceState} {o : ServiceOp} {a a' : ServiceAns o}
      (h : a = a') : SameAnswer (s, ⟨.service o, a⟩) (s', ⟨.service o, a'⟩)
  | getAllServiceIpPairs {s : ConnectionState} {s' : ServiceState} {ipPairs ipPairs' : List String}
      (h : ipPairs.Perm ipPairs') :
      SameAnswer (s, ⟨.service .getAllServiceIpPairs, ipPairs⟩)
        (s', ⟨.service .getAllServiceIpPairs, ipPairs'⟩)
  | findUpdateExpiredService {s : ConnectionState} {s' : ServiceState} {expiredMillis : ℕ}
      {ipPairs ipPairs' : List String} (h : ipPairs.Perm ipPairs') :
      SameAnswer (s, ⟨.service (.findUpdateExpiredService expiredMillis), ipPairs⟩)
        (s', ⟨.service (.findUpdateExpiredService expiredMillis), ipPairs'⟩)
  | findIpPair {s : ConnectionState} {s' : ServiceState} {symbol ipPair ipPair' : String}
      (h : ipPair = ipPair') :
      SameAnswer (s, ⟨.findIpPair symbol, ipPair⟩) (s', ⟨.findIpPair symbol, ipPair'⟩)
  | findService {s : ConnectionState} {s' : ServiceState} {ipPair : String}
      {service : Option ServiceHandle} {w : Option WsClientWrapper}
      (h : Option.Rel (fun service w => s.connections.wrappers[service]? = some w) service w) :
      SameAnswer (s, ⟨.findService ipPair, service⟩) (s', ⟨.findService ipPair, w⟩)

/-- A handle that was handed out stands for a connection of its pair. -/
def StandsFor (c : OrderConnections) (e : Answer ConnectionState ServiceHandle) : Prop :=
  ∀ ipPair service, e.2 = ⟨.findService ipPair, some service⟩ →
    ∃ w, c.wrappers[service]? = some w ∧ w.ipPair = ipPair

theorem StandsFor.grows {c c' : OrderConnections} {e : Answer ConnectionState ServiceHandle}
    (h : StandsFor c e) (hc : c.Grows c') : StandsFor c' e := by
  intro ipPair service he
  obtain ⟨w, hw, rfl⟩ := h ipPair service he
  obtain ⟨w', hw', hlocal, hremote, -⟩ := hc service w hw
  exact ⟨w', hw', by rw [WsClientWrapper.ipPair, hlocal, hremote]; rfl⟩

/-- A handle that is found stands for the connection of its pair. -/
theorem standsFor_found {c : OrderConnections} (hc : c.Tended) {s : ConnectionState}
    {ipPair : String} {found : Option ServiceHandle} (hfound : c.findService ipPair = found) :
    StandsFor c (s, ⟨.findService ipPair, found⟩) := by
  intro other service he
  cases he
  obtain ⟨w, hw, hpair, -⟩ := hc.mapped ipPair service hfound
  exact ⟨w, hw, hpair⟩

/-- The manager with handles is tended, stands for the manager without, at the same clock, gave the
same answers, and the connections it handed out are still behind their handles. -/
structure RunRefines (s : ConnectionState × List (Answer ConnectionState ServiceHandle))
    (s' : ServiceState × List (Answer ServiceState WsClientWrapper)) : Prop where
  tended : s.1.connections.Tended
  refines : s.1.connections.Refines s'.1.manager
  clock : s.1.clock = s'.1.clock
  answers : List.Forall₂ SameAnswer s.2 s'.2
  handed : ∀ e ∈ s.2, StandsFor s.1.connections e

/-- The methods behind one lock, carried out by both or by neither: with the same answer, and the
maps hold again what the handles stand for. -/
theorem connectionExec_refines {s : ConnectionState} {s' : ServiceState}
    (htended : s.connections.Tended) (hrefines : s.connections.Refines s'.manager)
    (hclock : s.clock = s'.clock) (o : ServiceOp) :
    (∃ r r', connectionExec o s = some r ∧ serviceExec o s' = some r' ∧
        r.1.connections.Refines r'.1.manager ∧ r.1.clock = r'.1.clock ∧
        SameAnswer (s, ⟨.service o, r.2⟩) (s', ⟨.service o, r'.2⟩)) ∨
      connectionExec o s = none ∧ serviceExec o s' = none := by
  obtain ⟨c, now⟩ := s
  obtain ⟨m, now'⟩ := s'
  obtain rfl : now = now' := hclock
  cases o with
  | updateBestService symbol localIp remoteIp =>
    obtain ⟨hr, hanswer⟩ := hrefines.updateBestService htended symbol localIp remoteIp now
    exact .inl ⟨_, _, rfl, rfl, hr, rfl, .same hanswer⟩
  | getAllServiceIpPairs =>
    exact .inl ⟨_, _, rfl, rfl, hrefines, rfl,
      .getAllServiceIpPairs (hrefines.keys_perm htended)⟩
  | getInuseSymbolIpMapping =>
    exact .inl ⟨_, _, rfl, rfl, hrefines, rfl, .same hrefines.symbols⟩
  | findUpdateExpiredService expiredMillis =>
    exact .inl ⟨_, _, rfl, rfl, hrefines, rfl,
      .findUpdateExpiredService (hrefines.findUpdateExpiredService expiredMillis now)⟩
  | stopAndRemoveService reason ipPair =>
    exact .inl ⟨_, _, rfl, rfl, hrefines.stopAndRemoveService htended ipPair, rfl, .same rfl⟩
  | tick millis =>
    by_cases hroom : now + millis ≤ maxClock
    · exact .inl ⟨_, _, if_pos hroom, if_pos hroom, hrefines, rfl, .same rfl⟩
    · exact .inr ⟨if_neg hroom, if_neg hroom⟩

/-- A method that both carry out, with the same answer, keeps the relation. -/
theorem RunRefines.answered {s : ConnectionState × List (Answer ConnectionState ServiceHandle)}
    {s' : ServiceState × List (Answer ServiceState WsClientWrapper)} (h : RunRefines s s')
    {o : ManagerOp} {r : ConnectionState × ManagerAns ServiceHandle o}
    {r' : ServiceState × ManagerAns WsClientWrapper o} (hr : handleExec o s.1 = some r)
    (hr' : managerExec o s'.1 = some r') (htended : r.1.connections.Tended)
    (hgrows : s.1.connections.Grows r.1.connections)
    (hrefines : r.1.connections.Refines r'.1.manager) (hclock : r.1.clock = r'.1.clock)
    (hanswer : SameAnswer (s.1, ⟨o, r.2⟩) (s'.1, ⟨o, r'.2⟩))
    (hhanded : StandsFor r.1.connections (s.1, ⟨o, r.2⟩)) :
    RunRefines (callMethod handleExec s o) (callMethod managerExec s' o) := by
  unfold callMethod
  rw [hr, hr']
  refine ⟨htended, hrefines, hclock, List.rel_append h.answers (.cons hanswer .nil), ?_⟩
  intro e he
  rcases List.mem_append.mp he with he | he
  · exact (h.handed e he).grows hgrows
  · rw [List.mem_singleton.mp he]
    exact hhanded

/-- **One call** keeps the relation. -/
theorem RunRefines.callMethod
    {s : ConnectionState × List (Answer ConnectionState ServiceHandle)}
    {s' : ServiceState × List (Answer ServiceState WsClientWrapper)} (h : RunRefines s s')
    (o : ManagerOp) :
    RunRefines (callMethod handleExec s o) (Trader.callMethod managerExec s' o) := by
  have htended := h.tended
  have hrefines := h.refines
  cases o with
  | findIpPair symbol =>
    refine h.answered (o := .findIpPair symbol) rfl rfl htended (.refl _) hrefines h.clock
      (.findIpPair ?_) fun ipPair service he => by cases he
    rw [OrderConnections.findIpPair, hrefines.symbols]
    rfl
  | findService ipPair =>
    refine h.answered (o := .findService ipPair) rfl rfl htended (.refl _) hrefines h.clock
      (.findService ?_) ?_
    · rw [OrderConnections.findService, OrderServiceManager.findService, hrefines.services]
      cases hlookup : s.1.connections.ippairServiceMap.lookup ipPair with
      | none => exact .none
      | some service =>
        obtain ⟨w, hw, -⟩ := htended.mapped ipPair service hlookup
        rw [Option.bind_some, hw]
        exact .some hw
    · exact standsFor_found htended rfl
  | service o =>
    rcases connectionExec_refines htended hrefines h.clock o with
      ⟨r, r', hr, hr', hrefines', hclock, hanswer⟩ | ⟨hnone, hnone'⟩
    · obtain ⟨htended', hgrows⟩ := connectionExec_keeps hr htended
      exact h.answered (o := .service o) hr hr' htended' hgrows hrefines' hclock hanswer
        fun ipPair service he => by cases he
    · have hstays : Trader.callMethod handleExec s (.service o) = s := by
        rw [Trader.callMethod, show handleExec (.service o) s.1 = none from hnone]
      have hstays' : Trader.callMethod managerExec s' (.service o) = s' := by
        rw [Trader.callMethod, show managerExec (.service o) s'.1 = none from hnone']
      rw [hstays, hstays']
      exact h

/-- **The connections behind handles are those of the manager.** Whatever methods are called in
whatever order, with handles and with the connections in the maps: the answers are the same up to
the order of a list, where a handle stands for the connection; the maps hold what the handles stand
for; the connections that run are those in the map, one for each IP pair; and a connection that was
handed out stays behind its handle. -/
theorem connections_refine_manager (now : ℕ) (calls : List ManagerOp) :
    RunRefines (Run.after (callMethod handleExec) (⟨.empty, now⟩, []) calls)
      (Run.after (callMethod managerExec) (⟨.empty, now⟩, []) calls) := by
  induction calls using List.reverseRecOn with
  | nil => exact ⟨.empty, .empty, rfl, .nil, by simp⟩
  | append_singleton calls o ih =>
    rw [Run.after_snoc, Run.after_snoc]
    exact ih.callMethod o

end UmTaker.Trader
