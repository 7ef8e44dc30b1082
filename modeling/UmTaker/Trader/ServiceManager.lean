import UmTaker.Trader.ServiceContainer
import UmTaker.Concurrency.Ghost
import UmTaker.Concurrency.Triple

/-!
# The clean-up of the order services

`service_zookeeper_processor` takes two snapshots, of the connections and of the symbols, and takes
down the connections no symbol uses; then it scans for connections that were not updated for 5400
seconds and takes those down. Other threads update the services at any time between.

## Main definitions

* `serviceZookeeperRound`: one round of the clean-up
* `ServiceLedger`: what was mapped and refreshed since the snapshots, and every removal
* `Removal.Justified`, `Removal.Untouched`: the removal was right, and nothing came between

## Main results

* `removal_justified_iff_untouched`: a removal is right exactly when nothing came between
* `removal_of_used_service`: a symbol is mapped to a connection after the snapshot
-/

namespace UmTaker.Trader

open Concurrency Concurrency.System.Move

/-! ## The threads -/

/-- The clean-up, any threads that update services, and the clock. -/
inductive ServiceUser (U : Type)
  | zookeeper
  | updater (u : U)
  | clock
  deriving DecidableEq

/-- The best path of a symbol. -/
structure BestPath where
  symbol : String
  localIp : String
  remoteIp : String

/-- What a call is given: an update its best path, the clock the milliseconds that pass. -/
abbrev ServiceCall {U : Type} : ServiceUser U → Type
  | .zookeeper => Unit
  | .updater _ => BestPath
  | .clock => ℕ

/-- The connections that no symbol of the snapshot is mapped to. -/
def findUnused (allIpPairs : List String) (symbolIpMapping : AList fun _ : String => String) :
    List String :=
  let inuseIpPairs := symbolIpMapping.entries.map (·.2)
  allIpPairs.filter fun ipPair => decide (ipPair ∉ inuseIpPairs)

/-- One round of `service_zookeeper_processor`. -/
def serviceZookeeperRound : ServiceProg Unit := do
  let allIpPairs : List String ← Prog.call ServiceOp.getAllServiceIpPairs
  let symbolIpMapping ← Prog.call ServiceOp.getInuseSymbolIpMapping
  -- from here on the mapping may change
  (findUnused allIpPairs symbolIpMapping).forM fun ipPair =>
    Prog.call (ServiceOp.stopAndRemoveService .unused ipPair)
  let expiredIpPairs : List String ← Prog.call (ServiceOp.findUpdateExpiredService (5400 * 1000))
  -- from here on a connection may be refreshed
  expiredIpPairs.forM fun ipPair => Prog.call (ServiceOp.stopAndRemoveService .expired ipPair)

/-- The services with their threads. -/
def orderServices (U : Type) :
    System (ServiceUser U) ServiceState (fun _ => Unit) ServiceCall ServiceOp ServiceAns where
  exec _ := serviceExec
  body
    | .zookeeper, _, _ => serviceZookeeperRound
    | .updater _, _, path => do
      let _ ← Prog.call (ServiceOp.updateBestService path.symbol path.localIp path.remoteIp)
      pure ()
    | .clock, _, millis => Prog.call (ServiceOp.tick millis)

/-! ## The ledger -/

/-- A connection is taken down: why, with the services and the clock as they were, and what was
mapped and refreshed since the snapshots. -/
structure Removal where
  reason : RemovalReason
  ipPair : String
  manager : OrderServiceManager
  now : ℕ
  mapped : StringMap String
  refreshed : StringMap ℕ

/-- As unused, no symbol maps to the connection; as expired, its update lies 5400 seconds back. -/
def Removal.Justified (r : Removal) : Prop :=
  match r.reason with
  | .unused => ∀ symbol, r.manager.symbolBestIppairMap.lookup symbol ≠ some r.ipPair
  | .expired => ∀ w, r.manager.ippairServiceMap.lookup r.ipPair = some w →
      w.updateTimeMillis + 5400 * 1000 ≤ r.now

/-- As unused, no symbol was mapped to the connection since the snapshot of the symbols and not to
another one after; as expired, no update since the scan refreshed or created the connection within
the last 5400 seconds. -/
def Removal.Untouched (r : Removal) : Prop :=
  match r.reason with
  | .unused => ∀ symbol, r.mapped symbol ≠ some r.ipPair
  | .expired => ∀ time, r.refreshed r.ipPair = some time → time + 5400 * 1000 ≤ r.now

/-- The snapshots of the round, what every symbol was mapped to and every connection refreshed at
since then, and the removals. -/
structure ServiceLedger where
  inUse : AList fun _ : String => String
  mapped : StringMap String
  scanned : AList fun _ : String => WsClientWrapper
  refreshed : StringMap ℕ
  removals : List Removal

namespace ServiceLedger

/-- No snapshot and no removal yet. -/
def empty : ServiceLedger where
  inUse := ∅
  mapped := .empty
  scanned := ∅
  refreshed := .empty
  removals := []

/-- Record an operation. -/
def record : ServiceOp → ServiceState → ServiceLedger → ServiceLedger
  | .updateBestService symbol localIp remoteIp, s, g =>
    { g with
      mapped := g.mapped.set symbol (OrderServiceManager.ipPair localIp remoteIp)
      refreshed := g.refreshed.set (OrderServiceManager.ipPair localIp remoteIp) s.clock }
  | .getInuseSymbolIpMapping, s, g =>
    { g with inUse := s.manager.symbolBestIppairMap, mapped := .empty }
  | .findUpdateExpiredService _, s, g =>
    { g with scanned := s.manager.ippairServiceMap, refreshed := .empty }
  | .stopAndRemoveService reason ipPair, s, g =>
    if (s.manager.ippairServiceMap.lookup ipPair).isSome then
      { g with
        removals := g.removals ++ [⟨reason, ipPair, s.manager, s.clock, g.mapped, g.refreshed⟩] }
    else g
  | _, _, g => g

end ServiceLedger

/-- The services with their ledger. -/
abbrev ledgerServices (U : Type) := (orderServices U).withGhost fun _ o s _ =>
  ServiceLedger.record o s

/-- No service yet, at a reading of the clock. -/
abbrev serviceStart (now : ℕ) : ServiceState × ServiceLedger := (⟨.empty, now⟩, .empty)

/-! ## The invariant -/

/-- The symbols map as in the snapshot or as since then, and every connection was refreshed since
the scan or is as it was scanned. -/
structure ServiceInv (s : ServiceState) (g : ServiceLedger) : Prop where
  symbols : ∀ symbol, s.manager.symbolBestIppairMap.lookup symbol =
    (g.mapped symbol).or (g.inUse.lookup symbol)
  services : ∀ ipPair w, s.manager.ippairServiceMap.lookup ipPair = some w →
    g.refreshed ipPair = some w.updateTimeMillis ∨
      (g.refreshed ipPair = none ∧ g.scanned.lookup ipPair = some w)
  past : ∀ ipPair w, s.manager.ippairServiceMap.lookup ipPair = some w →
    w.updateTimeMillis ≤ s.clock
  clock : s.clock ≤ maxClock
  removals : ∀ r ∈ g.removals, r.Justified ↔ r.Untouched

namespace ServiceInv

variable {s : ServiceState} {g : ServiceLedger}

theorem init {now : ℕ} (h : now ≤ maxClock) :
    ServiceInv (serviceStart now).1 (serviceStart now).2 where
  symbols symbol := by simp [OrderServiceManager.empty, ServiceLedger.empty]
  services ipPair w hw := by simp [OrderServiceManager.empty] at hw
  past ipPair w hw := by simp [OrderServiceManager.empty] at hw
  clock := h
  removals r hr := by simp [ServiceLedger.empty] at hr

/-- An update maps its symbol and refreshes its connection, in the services and in the ledger. -/
theorem updateBestService (h : ServiceInv s g) (symbol localIp remoteIp : String) :
    ServiceInv
      { s with manager := (s.manager.updateBestService symbol localIp remoteIp s.clock).1 }
      (ServiceLedger.record (.updateBestService symbol localIp remoteIp) s g) := by
  refine ⟨fun other => ?_, fun other w hw => ?_, fun other w hw => ?_, h.clock, h.removals⟩
  · rw [OrderServiceManager.lookup_symbol_updateBestService]
    simp only [ServiceLedger.record, StringMap.set_apply]
    split_ifs
    · rfl
    · exact h.symbols other
  · rcases s.manager.lookup_service_updateBestService symbol localIp remoteIp s.clock other with
      ⟨rfl, w', hw', htime⟩ | ⟨hne, hsame⟩
    · obtain rfl : w' = w := Option.some.inj (hw'.symm.trans hw)
      left
      simp [ServiceLedger.record, htime]
    · simp only [ServiceLedger.record, StringMap.set_of_ne _ _ hne]
      exact h.services other w (hsame ▸ hw)
  · rcases s.manager.lookup_service_updateBestService symbol localIp remoteIp s.clock other with
      ⟨rfl, w', hw', htime⟩ | ⟨-, hsame⟩
    · obtain rfl : w' = w := Option.some.inj (hw'.symm.trans hw)
      exact htime.le
    · exact h.past other w (hsame ▸ hw)

/-- A snapshot of the symbols: nothing was mapped since. -/
theorem getInuseSymbolIpMapping (h : ServiceInv s g) :
    ServiceInv s (ServiceLedger.record .getInuseSymbolIpMapping s g) :=
  ⟨fun _ => rfl, h.services, h.past, h.clock, h.removals⟩

/-- A scan: nothing was refreshed since. -/
theorem findUpdateExpiredService (h : ServiceInv s g) (expiredMillis : ℕ) :
    ServiceInv s (ServiceLedger.record (.findUpdateExpiredService expiredMillis) s g) :=
  ⟨h.symbols, fun _ _ hw => Or.inr ⟨rfl, hw⟩, h.past, h.clock, h.removals⟩

theorem tick (h : ServiceInv s g) {millis : ℕ} (hclock : s.clock + millis ≤ maxClock) :
    ServiceInv { s with clock := s.clock + millis } g :=
  ⟨h.symbols, h.services, fun ipPair w hw => (h.past ipPair w hw).trans (Nat.le_add_right _ _),
    hclock, h.removals⟩

/-- A removal that is right exactly when nothing came between. -/
theorem stopAndRemoveService (h : ServiceInv s g) {reason : RemovalReason} {ipPair : String}
    (hr : (s.manager.ippairServiceMap.lookup ipPair).isSome →
      let r : Removal := ⟨reason, ipPair, s.manager, s.clock, g.mapped, g.refreshed⟩
      r.Justified ↔ r.Untouched) :
    ServiceInv { s with manager := s.manager.stopAndRemoveService ipPair }
      (ServiceLedger.record (.stopAndRemoveService reason ipPair) s g) := by
  have hleft : ∀ other w, (s.manager.stopAndRemoveService ipPair).ippairServiceMap.lookup other =
      some w → s.manager.ippairServiceMap.lookup other = some w := by
    intro other w hw
    by_cases hip : other = ipPair
    · subst hip
      simp [OrderServiceManager.stopAndRemoveService] at hw
    · rwa [OrderServiceManager.stopAndRemoveService, AList.lookup_erase_ne hip] at hw
  have hbase : ServiceInv { s with manager := s.manager.stopAndRemoveService ipPair } g :=
    ⟨h.symbols, fun other w hw => h.services other w (hleft other w hw),
      fun other w hw => h.past other w (hleft other w hw), h.clock, h.removals⟩
  simp only [ServiceLedger.record]
  split_ifs with hsome
  · refine { hbase with removals := fun r hmem => ?_ }
    rcases List.mem_append.mp hmem with hold | hnew
    · exact h.removals r hold
    · obtain rfl := List.mem_singleton.mp hnew
      exact hr hsome
  · exact hbase

/-- What a snapshot showed to be unused is removed rightly unless it was mapped to since. -/
theorem unused_iff (h : ServiceInv s g) {ipPair : String}
    (hunused : ∀ symbol, g.inUse.lookup symbol ≠ some ipPair) :
    (∀ symbol, s.manager.symbolBestIppairMap.lookup symbol ≠ some ipPair) ↔
      ∀ symbol, g.mapped symbol ≠ some ipPair := by
  refine forall_congr' fun symbol => not_congr ?_
  rw [h.symbols symbol, Option.or_eq_some_iff]
  exact ⟨fun hor => hor.resolve_right fun hand => hunused symbol hand.2, Or.inl⟩

/-- What a scan showed to be expired is removed rightly unless it was refreshed since. -/
theorem expired_iff (h : ServiceInv s g) {ipPair : String}
    (hsome : (s.manager.ippairServiceMap.lookup ipPair).isSome)
    (hexpired : ∀ w, g.scanned.lookup ipPair = some w →
      w.updateTimeMillis + 5400 * 1000 ≤ s.clock) :
    (∀ w, s.manager.ippairServiceMap.lookup ipPair = some w →
        w.updateTimeMillis + 5400 * 1000 ≤ s.clock) ↔
      ∀ time, g.refreshed ipPair = some time → time + 5400 * 1000 ≤ s.clock := by
  obtain ⟨w, hw⟩ := Option.isSome_iff_exists.mp hsome
  simp only [hw, Option.some.injEq, forall_eq']
  rcases h.services ipPair w hw with hrefreshed | ⟨hnone, hscanned⟩
  · simp [hrefreshed]
  · simp only [hnone, reduceCtorEq, false_implies, implies_true, iff_true]
    exact hexpired w hscanned

end ServiceInv

/-! ## The clean-up among the other threads -/

/-- What the clean-up relies on: the snapshots of its round stay what they are, and the clock goes
forward. -/
def serviceInterference (U : Type) :
    Interference (ServiceUser U) (ServiceState × ServiceLedger) where
  inv s := ServiceInv s.1 s.2
  rely t s s' := s.1.clock ≤ s'.1.clock ∧
    (t = .zookeeper → s'.2.inUse = s.2.inUse ∧ s'.2.scanned = s.2.scanned)
  refl _ _ := ⟨le_rfl, fun _ => ⟨rfl, rfl⟩⟩
  trans _ _ _ _ h₁ h₂ := by
    refine ⟨h₁.1.trans h₂.1, fun ht => ⟨?_, ?_⟩⟩
    · exact (h₂.2 ht).1.trans (h₁.2 ht).1
    · exact (h₂.2 ht).2.trans (h₁.2 ht).2

section Specs

variable {U : Type} {t : ServiceUser U}

/-- The triples of the services. -/
abbrev ServiceTriple (t : ServiceUser U) {α : Type} (P : ServiceState × ServiceLedger → Prop)
    (p : ServiceProg α) (Q : α → ServiceState × ServiceLedger → Prop) : Prop :=
  Triple (ledgerServices U) System.Unrestricted (serviceInterference U) t P p Q

/-- A method keeps the invariant and the clock; one of another thread keeps the snapshots. -/
theorem method_spec {o : ServiceOp} {P : ServiceState × ServiceLedger → Prop}
    {Q : ServiceAns o → ServiceState × ServiceLedger → Prop}
    (hP : (serviceInterference U).Stable t P)
    (h : ∀ s g s' a, ServiceInv s g → P (s, g) → serviceExec o s = some (s', a) →
      let g' := ServiceLedger.record o s g
      ServiceInv s' g' ∧ s.clock ≤ s'.clock ∧
        (t ≠ .zookeeper → g'.inUse = g.inUse ∧ g'.scanned = g.scanned) ∧ Q a (s', g')) :
    ServiceTriple t P (Prog.call o) Q := by
  apply Triple.call_withGhost hP
  intro s g s' a hs hp _ he
  obtain ⟨hinv, hclock, hsnapshots, hq⟩ := h s g s' a hs hp he
  refine ⟨⟨hinv, ?_⟩, hq⟩
  intro u hu
  exact ⟨hclock, fun hz => hsnapshots (hz ▸ hu.symm)⟩

/-- The snapshot of the symbols shows the connections to be unused. -/
def UnusedIn (ipPairs : List String) (s : ServiceState × ServiceLedger) : Prop :=
  ∀ ipPair ∈ ipPairs, ∀ symbol, s.2.inUse.lookup symbol ≠ some ipPair

/-- The scan shows the connections to be expired. -/
def ExpiredIn (ipPairs : List String) (s : ServiceState × ServiceLedger) : Prop :=
  ∀ ipPair ∈ ipPairs, ∀ w, s.2.scanned.lookup ipPair = some w →
    w.updateTimeMillis + 5400 * 1000 ≤ s.1.clock

theorem stable_unusedIn (ipPairs : List String) :
    (serviceInterference U).Stable .zookeeper (UnusedIn ipPairs) := by
  rintro s s' - - ⟨-, hkeep⟩ h ipPair hmem symbol
  rw [(hkeep rfl).1]
  exact h ipPair hmem symbol

theorem stable_expiredIn (ipPairs : List String) :
    (serviceInterference U).Stable .zookeeper (ExpiredIn ipPairs) := by
  rintro s s' - - ⟨hclock, hkeep⟩ h ipPair hmem w hw
  rw [(hkeep rfl).2] at hw
  exact (h ipPair hmem w hw).trans hclock

/-- What is not among the values of the mapping no symbol maps to. -/
theorem lookup_ne_of_findUnused {allIpPairs : List String}
    {symbolIpMapping : AList fun _ : String => String} {ipPair : String}
    (h : ipPair ∈ findUnused allIpPairs symbolIpMapping) (symbol : String) :
    symbolIpMapping.lookup symbol ≠ some ipPair := by
  intro hlookup
  simp only [findUnused, List.mem_filter, decide_eq_true_eq] at h
  exact h.2 (List.mem_map.mpr ⟨⟨symbol, ipPair⟩, AList.mem_lookup_iff.mp hlookup, rfl⟩)

theorem getAllServiceIpPairs_spec :
    ServiceTriple (U := U) .zookeeper (fun _ => True) (Prog.call ServiceOp.getAllServiceIpPairs)
      fun _ _ => True := by
  refine method_spec (Interference.Stable.const _ True) fun s g s' a hs _ he => ?_
  obtain ⟨rfl, -⟩ := Prod.ext_iff.mp (Option.some.inj he)
  exact ⟨hs, le_rfl, fun hz => absurd rfl hz, trivial⟩

theorem getInuseSymbolIpMapping_spec :
    ServiceTriple (U := U) .zookeeper (fun _ => True)
      (Prog.call ServiceOp.getInuseSymbolIpMapping)
      fun mapping s => ∀ allIpPairs, UnusedIn (findUnused allIpPairs mapping) s := by
  refine method_spec (Interference.Stable.const _ True) fun s g s' a hs _ he => ?_
  obtain ⟨rfl, rfl⟩ := Prod.ext_iff.mp (Option.some.inj he)
  refine ⟨hs.getInuseSymbolIpMapping, le_rfl, fun hz => absurd rfl hz, ?_⟩
  exact fun allIpPairs ipPair hmem => lookup_ne_of_findUnused hmem

theorem findUpdateExpiredService_spec :
    ServiceTriple (U := U) .zookeeper (fun _ => True)
      (Prog.call (ServiceOp.findUpdateExpiredService (5400 * 1000))) ExpiredIn := by
  refine method_spec (Interference.Stable.const _ True) fun s g s' a hs _ he => ?_
  obtain ⟨rfl, rfl⟩ := Prod.ext_iff.mp (Option.some.inj he)
  refine ⟨hs.findUpdateExpiredService _, le_rfl, fun hz => absurd rfl hz, ?_⟩
  intro ipPair hmem w hw
  obtain ⟨w', hw', hold⟩ := OrderServiceManager.mem_findUpdateExpiredService.mp hmem
  obtain rfl : w' = w := Option.some.inj (hw'.symm.trans hw)
  -- the clock fits 63 bits, so the sum does not wrap
  have hpast := hs.past ipPair w' hw'
  have hclock := hs.clock
  unfold maxClock at hclock
  unfold u64 at hold
  show w'.updateTimeMillis + 5400 * 1000 ≤ s.clock
  omega

/-- One connection of a list is taken down. -/
theorem stopAndRemoveService_spec {reason : RemovalReason} {ipPair : String}
    {P : ServiceState × ServiceLedger → Prop} (hP : (serviceInterference U).Stable .zookeeper P)
    (hkeep : ∀ s g s' g', g'.inUse = g.inUse → g'.scanned = g.scanned → s'.clock = s.clock →
      P (s, g) → P (s', g'))
    (h : ∀ s g, ServiceInv s g → P (s, g) → (s.manager.ippairServiceMap.lookup ipPair).isSome →
      let r : Removal := ⟨reason, ipPair, s.manager, s.clock, g.mapped, g.refreshed⟩
      r.Justified ↔ r.Untouched) :
    ServiceTriple (U := U) .zookeeper P (Prog.call (ServiceOp.stopAndRemoveService reason ipPair))
      fun _ => P := by
  refine method_spec hP fun s g s' a hs hp he => ?_
  obtain ⟨rfl, -⟩ := Prod.ext_iff.mp (Option.some.inj he)
  have hsnapshots : (ServiceLedger.record (.stopAndRemoveService reason ipPair) s g).inUse =
      g.inUse ∧ (ServiceLedger.record (.stopAndRemoveService reason ipPair) s g).scanned =
        g.scanned := by
    simp only [ServiceLedger.record]
    split_ifs <;> exact ⟨rfl, rfl⟩
  refine ⟨hs.stopAndRemoveService (h s g hs hp), le_rfl, fun hz => absurd rfl hz, ?_⟩
  exact hkeep s g _ _ hsnapshots.1 hsnapshots.2 rfl hp

/-- **A round** of the clean-up. -/
theorem serviceZookeeperRound_spec :
    ServiceTriple (U := U) .zookeeper (fun _ => True) serviceZookeeperRound fun _ _ => True := by
  refine Triple.bind getAllServiceIpPairs_spec fun allIpPairs => ?_
  refine Triple.bind getInuseSymbolIpMapping_spec fun mapping => ?_
  refine Triple.bind (R := fun _ _ => True) ?_ fun _ => ?_
  · refine Triple.weaken (P := UnusedIn (findUnused allIpPairs mapping))
      (Q := fun _ => UnusedIn (findUnused allIpPairs mapping)) ?_ (fun _ _ h => h allIpPairs)
      fun _ _ _ _ => trivial
    refine Triple.forM (A := fun _ => UnusedIn (findUnused allIpPairs mapping))
      fun done ipPair rest hlist => ?_
    have hmem : ipPair ∈ findUnused allIpPairs mapping := by simp [hlist]
    refine stopAndRemoveService_spec (stable_unusedIn _) ?_ fun s g hs hp _ => ?_
    · intro s g s' g' hinUse _ _ hp other hother symbol
      rw [hinUse]
      exact hp other hother symbol
    · exact hs.unused_iff (hp ipPair hmem)
  refine Triple.bind findUpdateExpiredService_spec fun expiredIpPairs => ?_
  refine Triple.weaken (P := ExpiredIn expiredIpPairs) (Q := fun _ => ExpiredIn expiredIpPairs) ?_
    (fun _ _ h => h) fun _ _ _ _ => trivial
  refine Triple.forM (A := fun _ => ExpiredIn expiredIpPairs) fun done ipPair rest hlist => ?_
  have hmem : ipPair ∈ expiredIpPairs := by simp [hlist]
  refine stopAndRemoveService_spec (stable_expiredIn _) ?_ fun s g hs hp hsome => ?_
  · intro s g s' g' _ hscanned hclock hp other hother w hw
    rw [hscanned] at hw
    rw [hclock]
    exact hp other hother w hw
  · exact hs.expired_iff hsome (hp ipPair hmem)

/-- An update of another thread. -/
theorem updateBestService_spec (u : U) (symbol localIp remoteIp : String) :
    ServiceTriple (.updater u) (fun _ => True)
      (Prog.call (ServiceOp.updateBestService symbol localIp remoteIp)) fun _ _ => True := by
  refine method_spec (Interference.Stable.const _ True) fun s g s' a hs _ he => ?_
  obtain ⟨rfl, -⟩ := Prod.ext_iff.mp (Option.some.inj he)
  exact ⟨hs.updateBestService symbol localIp remoteIp, le_rfl, fun _ => ⟨rfl, rfl⟩, trivial⟩

theorem tick_spec (millis : ℕ) :
    ServiceTriple (U := U) .clock (fun _ => True) (Prog.call (ServiceOp.tick millis))
      fun _ _ => True := by
  refine method_spec (Interference.Stable.const _ True) fun s g s' a hs _ he => ?_
  simp only [serviceExec] at he
  split_ifs at he with hclock
  obtain ⟨rfl, -⟩ := Prod.ext_iff.mp (Option.some.inj he)
  exact ⟨hs.tick hclock, Nat.le_add_right _ _, fun _ => ⟨rfl, rfl⟩, trivial⟩

end Specs

/-- The proof outline of the services. -/
def serviceOutline (U : Type) : Outline (ledgerServices U) System.Unrestricted where
  I := serviceInterference U
  atRest _ _ _ := True
  stable _ _ := Interference.Stable.const _ True
  body
    | .zookeeper, _, _ => serviceZookeeperRound_spec
    | .updater u, _, path =>
      Triple.bind (updateBestService_spec u path.symbol path.localIp path.remoteIp)
        fun _ => Triple.ret fun _ _ _ => trivial
    | .clock, _, millis => tick_spec millis

/-- **A removal is right exactly when nothing came between.** Whatever updates come between the
snapshots, the scan and the removals of a round, every run of the services has a ledger, and by it
every connection taken down as unused has no symbol mapped to it if and only if none was mapped to
it since the snapshot of the symbols; and every one taken down as expired is 5400 seconds old if and
only if no update since the scan is more recent than that. -/
theorem removal_justified_iff_untouched {U : Type} [DecidableEq U] {now : ℕ} {c}
    (hnow : now ≤ maxClock)
    (hc : (orderServices U).Reachable System.Unrestricted (serviceStart now).1 (fun _ => ()) c) :
    (∃ g, (ledgerServices U).Reachable System.Unrestricted (serviceStart now) (fun _ => ())
        (c.withRecord g)) ∧
      ∀ g, (ledgerServices U).Reachable System.Unrestricted (serviceStart now) (fun _ => ())
          (c.withRecord g) →
        ∀ r ∈ g.removals, r.Justified ↔ r.Untouched := by
  refine ⟨System.exists_ghost ServiceLedger.empty hc, fun g hg => ?_⟩
  exact ((serviceOutline U).inv (ServiceInv.init hnow) (fun _ => trivial) hg).removals

/-- A round that takes down one of two connections, which is left alone. -/
theorem removal_justified_iff_untouched_idle :
    ∃ c, (ledgerServices Unit).Reachable System.Unrestricted (serviceStart 0) (fun _ => ()) c ∧
      c.shared.2.removals.map (·.ipPair) = ["10.0.0.1_52.0.0.1"] ∧
      ∀ r ∈ c.shared.2.removals, r.Justified ↔ r.Untouched := by
  let moves : List (System.Move (ServiceUser Unit) ServiceCall) := List.flatten
    [wholeCall (.updater ()) ⟨"BTCUSDC", "10.0.0.1", "52.0.0.1"⟩ 1,
      wholeCall (.updater ()) ⟨"BTCUSDC", "10.0.0.2", "52.0.0.2"⟩ 1, beginCall .zookeeper () 3]
  obtain ⟨c, hc, hremovals⟩ :
      ∃ c, (ledgerServices Unit).Reachable System.Unrestricted (serviceStart 0) (fun _ => ()) c ∧
        c.shared.2.removals.map (·.ipPair) = ["10.0.0.1_52.0.0.1"] :=
    System.exists_of_schedule moves (by decide +kernel)
  have h := (removal_justified_iff_untouched (by decide) (System.reachable_forget hc)).2
  exact ⟨c, hc, hremovals, h c.shared.2 hc⟩

/-- A symbol is mapped to a connection after the snapshot that shows it unused, and a connection is
refreshed after the scan that lists it as expired: both are taken down all the same. -/
theorem removal_of_used_service :
    ∃ c, (ledgerServices Unit).Reachable System.Unrestricted (serviceStart 0) (fun _ => ()) c ∧
      (∃ r ∈ c.shared.2.removals, r.reason = .unused ∧ ¬ r.Justified) ∧
      ∃ r ∈ c.shared.2.removals, r.reason = .expired ∧ ¬ r.Justified := by
  let moves : List (System.Move (ServiceUser Unit) ServiceCall) := List.flatten
    [wholeCall (.updater ()) ⟨"BTCUSDC", "10.0.0.1", "52.0.0.1"⟩ 1,
      wholeCall (.updater ()) ⟨"BTCUSDC", "10.0.0.2", "52.0.0.2"⟩ 1,
      beginCall .zookeeper () 2, wholeCall (.updater ()) ⟨"ETHUSDC", "10.0.0.1", "52.0.0.1"⟩ 1,
      goOn .zookeeper 1, wholeCall .clock 5400000 1, goOn .zookeeper 1,
      wholeCall (.updater ()) ⟨"BTCUSDC", "10.0.0.2", "52.0.0.2"⟩ 1, goOn .zookeeper 1]
  obtain ⟨c, hc, ⟨r, hr, hunused, hmapped⟩, r', hr', hexpired, hnow, hrecent⟩ :
      ∃ c, (ledgerServices Unit).Reachable System.Unrestricted (serviceStart 0) (fun _ => ()) c ∧
        (∃ r ∈ c.shared.2.removals, r.reason = .unused ∧
          r.manager.symbolBestIppairMap.lookup "ETHUSDC" = some r.ipPair) ∧
        ∃ r ∈ c.shared.2.removals, r.reason = .expired ∧ r.now = 5400000 ∧
          (r.manager.ippairServiceMap.lookup r.ipPair).map (·.updateTimeMillis) = some 5400000 :=
    System.exists_of_schedule moves (by decide +kernel)
  refine ⟨c, hc, ⟨r, hr, hunused, fun h => ?_⟩, r', hr', hexpired, fun h => ?_⟩
  · simp only [Removal.Justified, hunused] at h
    exact h "ETHUSDC" hmapped
  · simp only [Removal.Justified, hexpired] at h
    obtain ⟨w, hw, htime⟩ := Option.map_eq_some_iff.mp hrecent
    have hold := h w hw
    omega

end UmTaker.Trader
