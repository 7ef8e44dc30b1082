import UmTaker.Concurrency.History
import UmTaker.General.LastOccurrence
import UmTaker.Trader.OrderLimiterSafety

/-!
# The quota of an IP

A limiter is inserted for an IP after a look under another lock. The history of the boss holds the
looks and the insertions, and what was granted to the IPs; from it the ledger of the IPs is kept:
how often each one got a limiter, and what its limiters granted since the last reset of each window.

## Main definitions

* `BossEvent`, `noteBoss`: what the history of the boss holds
* `Undisturbed`: what other calls may insert between the look of a call and its insertion
* `IpLedger`, `ledgerOf`: the ledger of the IPs
* `QuotaOnce`: no limiter was replaced, no IP is over its count, the map is within its capacity

## Main results

* `quota_once_iff_undisturbed`: the quota is created once exactly in undisturbed histories
* `quota_created_twice`: two threads that look before either inserts
-/

namespace UmTaker.Trader

open Concurrency Concurrency.System.Move

variable {T : Type} [DecidableEq T]

/-! ## The history -/

/-- What the ledger of the IPs goes back to: the look of a creation with the number of limiters it
counted, an insertion, a grant, the windows of an IP that a reset renewed. -/
inductive BossEvent (T : Type)
  | looked (t : T) (ipLimiterCount : ℤ)
  | inserted (t : T) (localIp : String)
  | granted (localIp : String) (requireNum : ℤ)
  | renewed (localIp : String) (second minute : Bool)
  deriving DecidableEq

/-- What an operation is noted for. -/
def noteBoss (t : T) : (o : BossOp) → Boss T → BossAns o → List (BossEvent T)
  | .countIpLimiters, _, ipLimiterCount => [.looked t ipLimiterCount]
  | .setIpLimiter localIp _, _, _ => [.inserted t localIp]
  | .getIpSemaphore localIp requireNum, _, granted =>
    if granted then [.granted localIp requireNum] else []
  | .resetIp localIp now, s, _ =>
    match s.data.ipLimiterMap.lookup localIp with
    | some limiter => [.renewed localIp (limiter.second.cycleEnded now)
        (limiter.minute.cycleEnded now)]
    | none => []
  | _, _, _ => []

/-- The boss with its history. -/
abbrev notedBoss (T : Type) [DecidableEq T] (maxCapacity : ℤ) :=
  (orderLimiterBoss T maxCapacity).withHistory noteBoss

/-- The insertions of a history. -/
def insertionCount (H : List (BossEvent T)) : ℕ :=
  H.countP fun
    | .inserted _ _ => true
    | _ => false

/-- Between the look of a call and its insertion no call inserts a limiter for the same IP, and
fewer calls insert one than the look left room for. -/
def Undisturbed (maxCapacity : ℤ) (H : List (BossEvent T)) : Prop :=
  ∀ before t ipLimiterCount between localIp,
    before ++ .looked t ipLimiterCount :: between ++ [.inserted t localIp] <+: H →
    (∀ count, .looked t count ∉ between) →
    (∀ u, .inserted u localIp ∉ between) ∧ ipLimiterCount + insertionCount between < maxCapacity

/-! ## The ledger -/

/-- The ledger of the IPs: the limiters inserted for each, and what was granted to it since the last
reset of each window. -/
structure IpLedger where
  insertions : String → ℕ
  secondGranted : String → ℤ
  minuteGranted : String → ℤ

namespace IpLedger

/-- Nothing was inserted or granted yet. -/
def empty : IpLedger where
  insertions _ := 0
  secondGranted _ := 0
  minuteGranted _ := 0

/-- Write what both windows of an IP have out. -/
def setGranted (g : IpLedger) (localIp : String) (second minute : ℤ) : IpLedger :=
  { g with
    secondGranted := Function.update g.secondGranted localIp second
    minuteGranted := Function.update g.minuteGranted localIp minute }

/-- Record an event. A window that is renewed starts its account again. -/
def record (g : IpLedger) : BossEvent T → IpLedger
  | .looked _ _ => g
  | .inserted _ localIp =>
    { g with insertions := Function.update g.insertions localIp (g.insertions localIp + 1) }
  | .granted localIp requireNum =>
    g.setGranted localIp (g.secondGranted localIp + requireNum)
      (g.minuteGranted localIp + requireNum)
  | .renewed localIp second minute =>
    g.setGranted localIp (if second then 0 else g.secondGranted localIp)
      (if minute then 0 else g.minuteGranted localIp)

end IpLedger

/-- The ledger of a history. -/
def ledgerOf (H : List (BossEvent T)) : IpLedger := H.foldl IpLedger.record .empty

omit [DecidableEq T] in
@[simp] theorem ledgerOf_snoc (H : List (BossEvent T)) (e : BossEvent T) :
    ledgerOf (H ++ [e]) = (ledgerOf H).record e := by
  simp [ledgerOf]

/-- The quota of every IP is created once: no limiter was replaced, nothing beyond the initial count
was granted since the last reset, and the map is within its capacity. -/
structure QuotaOnce (maxCapacity : ℤ) (d : BossData T) (g : IpLedger) : Prop where
  once : ∀ ip, g.insertions ip ≤ 1
  second : ∀ ip limiter, d.ipLimiterMap.lookup ip = some limiter →
    g.secondGranted ip ≤ max 0 limiter.second.initCount
  minute : ∀ ip limiter, d.ipLimiterMap.lookup ip = some limiter →
    g.minuteGranted ip ≤ max 0 limiter.minute.initCount
  capacity : (d.ipLimiterMap.keys.length : ℤ) ≤ max 0 maxCapacity

/-! ## The account of a window -/

/-- What is left and what was granted make up the initial count; what was granted is within it. -/
structure Accounted (w : SemaphoreWindow) (granted : ℤ) : Prop where
  total : w.remainCount + granted = w.initCount
  within : granted ≤ max 0 w.initCount

namespace Accounted

variable {w : SemaphoreWindow} {granted : ℤ}

theorem init (count : ℤ) (duration now : ℕ) : Accounted (.init count duration now) 0 where
  total := add_zero count
  within := le_max_left 0 count

theorem take (h : Accounted w granted) {n : ℤ} (hn : n ≤ w.remainCount) :
    Accounted (w.take n) (granted + n) where
  total := by
    have := h.total
    show w.remainCount - n + (granted + n) = w.initCount
    omega
  within := by
    have := h.total
    show granted + n ≤ max 0 w.initCount
    omega

theorem resetIfCycleEnd (h : Accounted w granted) (now : ℕ) :
    Accounted (w.resetIfCycleEnd now) (if w.cycleEnded now then 0 else granted) := by
  unfold SemaphoreWindow.resetIfCycleEnd
  split_ifs
  · exact ⟨add_zero w.initCount, le_max_left 0 w.initCount⟩
  · exact h

end Accounted

/-! ## The invariant -/

/-- What the look of `create_ip_limiter` found still holds: the IP has no limiter, and the map has
room for one. -/
def BossData.Fresh (maxCapacity : ℤ) (localIp : String) (d : BossData T) : Prop :=
  d.ipLimiterMap.lookup localIp = none ∧ (d.ipLimiterMap.keys.length : ℤ) < maxCapacity

/-- The account of every IP while all insertions were fresh. -/
structure FreshInv (maxCapacity : ℤ) (d : BossData T) (g : IpLedger) : Prop where
  once : ∀ ip, g.insertions ip ≤ 1
  unknown : ∀ ip, d.ipLimiterMap.lookup ip = none → g.secondGranted ip = 0 ∧ g.minuteGranted ip = 0
  known : ∀ ip limiter, d.ipLimiterMap.lookup ip = some limiter →
    Accounted limiter.second (g.secondGranted ip) ∧ Accounted limiter.minute (g.minuteGranted ip)
  capacity : (d.ipLimiterMap.keys.length : ℤ) ≤ max 0 maxCapacity

/-- The ledger knows which IPs have a limiter, balances while all insertions were fresh, and keeps
the trace of one that was not. -/
structure LedgerInv (maxCapacity : ℤ) (d : BossData T) (g : IpLedger) (allFresh : Prop) :
    Prop where
  inserted : ∀ ip, g.insertions ip = 0 ↔ d.ipLimiterMap.lookup ip = none
  fresh : allFresh → FreshInv maxCapacity d g
  stale : ¬ allFresh → (∃ ip, 2 ≤ g.insertions ip) ∨ max 0 maxCapacity < d.ipLimiterMap.keys.length

omit [DecidableEq T] in
/-- While all insertions were fresh the quota is created once. -/
theorem FreshInv.quotaOnce {maxCapacity : ℤ} {d : BossData T} {g : IpLedger}
    (h : FreshInv maxCapacity d g) : QuotaOnce maxCapacity d g where
  once := h.once
  second ip limiter hip := (h.known ip limiter hip).1.within
  minute ip limiter hip := (h.known ip limiter hip).2.within
  capacity := h.capacity

omit [DecidableEq T] in
/-- Setting the limiter of an IP adds a key exactly when it had none. -/
theorem keys_length_setIpLimiter (d : BossData T) (ip : String) (limiter : AutoResetOrderLimiter) :
    (d.setIpLimiter ip limiter).ipLimiterMap.keys.length =
      d.ipLimiterMap.keys.length + if (d.ipLimiterMap.lookup ip).isNone then 1 else 0 := by
  simp only [BossData.setIpLimiter, AList.keys_insert, List.length_cons]
  split_ifs with hnone
  · have habsent : ip ∉ d.ipLimiterMap.keys := by
      rw [← AList.mem_keys, ← AList.lookup_eq_none]
      exact Option.isNone_iff_eq_none.mp hnone
    rw [List.erase_of_not_mem habsent]
  · have hmem : ip ∈ d.ipLimiterMap.keys := by
      by_contra habsent
      rw [← AList.mem_keys, ← AList.lookup_eq_none] at habsent
      exact hnone (Option.isNone_iff_eq_none.mpr habsent)
    have hpos := List.length_pos_of_mem hmem
    rw [List.length_erase_of_mem hmem]
    omega

namespace LedgerInv

variable {maxCapacity : ℤ} {d : BossData T} {g : IpLedger} {allFresh : Prop}

omit [DecidableEq T] in
/-- An empty map with an empty ledger. -/
theorem init (args : LimiterArgs) (hfresh : allFresh) :
    LedgerInv maxCapacity (BossData.init args : BossData T) .empty allFresh where
  inserted ip := by simp [IpLedger.empty, BossData.init]
  fresh _ :=
    { once _ := Nat.zero_le 1
      unknown _ _ := ⟨rfl, rfl⟩
      known ip limiter hip := by simp [BossData.init] at hip
      capacity := le_max_left 0 maxCapacity }
  stale h := absurd hfresh h

omit [DecidableEq T] in
/-- Only the map of the limiters counts. -/
theorem of_map_eq (h : LedgerInv maxCapacity d g allFresh) {d' : BossData T}
    (hmap : d'.ipLimiterMap = d.ipLimiterMap) : LedgerInv maxCapacity d' g allFresh where
  inserted := by
    rw [hmap]
    exact h.inserted
  fresh hf := by
    obtain ⟨honce, hunknown, hknown, hcapacity⟩ := h.fresh hf
    refine ⟨honce, ?_, ?_, ?_⟩ <;> rwa [hmap]
  stale := by
    rw [hmap]
    exact h.stale

omit [DecidableEq T] in
/-- The limiter of an IP changes with its account. -/
theorem update (h : LedgerInv maxCapacity d g allFresh) {ip : String}
    {old new : AutoResetOrderLimiter} {second minute : ℤ}
    (hold : d.ipLimiterMap.lookup ip = some old)
    (hsecond : Accounted old.second (g.secondGranted ip) → Accounted new.second second)
    (hminute : Accounted old.minute (g.minuteGranted ip) → Accounted new.minute minute) :
    LedgerInv maxCapacity (d.setIpLimiter ip new) (g.setGranted ip second minute) allFresh := by
  have hlength : (d.setIpLimiter ip new).ipLimiterMap.keys.length = d.ipLimiterMap.keys.length := by
    rw [keys_length_setIpLimiter, hold]
    rfl
  refine ⟨fun other => ?_, fun hf => ⟨(h.fresh hf).once, ?_, ?_, ?_⟩, fun hs => ?_⟩
  · rw [BossData.lookup_setIpLimiter]
    split_ifs with hip
    · have hne : g.insertions ip ≠ 0 := by
        intro h0
        rw [(h.inserted ip).mp h0] at hold
        cases hold
      simp [IpLedger.setGranted, hip, hne]
    · exact h.inserted other
  · intro other hnone
    rw [BossData.lookup_setIpLimiter] at hnone
    split_ifs at hnone with hip
    simpa [IpLedger.setGranted, hip] using (h.fresh hf).unknown other hnone
  · intro other limiter hsome
    rw [BossData.lookup_setIpLimiter] at hsome
    split_ifs at hsome with hip
    · obtain rfl := Option.some.inj hsome
      obtain ⟨hs, hm⟩ := (h.fresh hf).known ip old hold
      simpa [IpLedger.setGranted, hip] using ⟨hsecond hs, hminute hm⟩
    · simpa [IpLedger.setGranted, hip] using (h.fresh hf).known other limiter hsome
  · rw [hlength]
    exact (h.fresh hf).capacity
  · rw [hlength]
    exact h.stale hs

omit [DecidableEq T] in
/-- A limiter is inserted that is as it was created. -/
theorem insert (h : LedgerInv maxCapacity d g allFresh) (t : T) (ip : String) (args : LimiterArgs)
    {allFresh' : Prop} (hfresh : allFresh' ↔ allFresh ∧ d.Fresh maxCapacity ip) :
    LedgerInv maxCapacity (d.setIpLimiter ip (.init args)) (g.record (.inserted t ip))
      allFresh' := by
  have hlength := keys_length_setIpLimiter d ip (.init args)
  refine ⟨fun other => ?_, fun hf => ?_, fun hs => ?_⟩
  · rw [BossData.lookup_setIpLimiter]
    split_ifs with hip
    · simp [IpLedger.record, hip]
    · simpa [IpLedger.record, hip] using h.inserted other
  · -- the look still held, so that the account of the IP starts with this limiter
    obtain ⟨hall, hlookup, hroom⟩ := hfresh.mp hf
    obtain ⟨honce, hunknown, hknown, hcapacity⟩ := h.fresh hall
    refine ⟨fun other => ?_, fun other hother => ?_, fun other limiter hother => ?_, ?_⟩
    · by_cases hip : other = ip
      · simp [IpLedger.record, hip, (h.inserted ip).mpr hlookup]
      · simpa [IpLedger.record, hip] using honce other
    · rw [BossData.lookup_setIpLimiter] at hother
      split_ifs at hother with hip
      exact hunknown other hother
    · rw [BossData.lookup_setIpLimiter] at hother
      split_ifs at hother with hip
      · obtain rfl := Option.some.inj hother
        obtain ⟨hsecond, hminute⟩ := hunknown ip hlookup
        simp only [IpLedger.record, hip, hsecond, hminute]
        exact ⟨.init _ _ _, .init _ _ _⟩
      · exact hknown other limiter hother
    · rw [hlength, hlookup, if_pos Option.isNone_none]
      omega
  · by_cases hall : allFresh
    · cases hlookup : d.ipLimiterMap.lookup ip with
      | none =>
        right
        have hfull : ¬ (d.ipLimiterMap.keys.length : ℤ) < maxCapacity :=
          fun hroom => hs (hfresh.mpr ⟨hall, hlookup, hroom⟩)
        rw [hlength, hlookup, if_pos Option.isNone_none]
        omega
      | some limiter =>
        left
        have hne : g.insertions ip ≠ 0 := fun h0 => by
          rw [(h.inserted ip).mp h0] at hlookup
          cases hlookup
        refine ⟨ip, ?_⟩
        simp only [IpLedger.record, Function.update_self]
        omega
    · rcases h.stale hall with ⟨other, htwo⟩ | hfull
      · left
        refine ⟨other, ?_⟩
        by_cases hip : other = ip
        · subst hip
          simp only [IpLedger.record, Function.update_self]
          omega
        · simpa [IpLedger.record, hip] using htwo
      · right
        rw [hlength]
        split_ifs <;> omega

omit [DecidableEq T] in
/-- The quota is created once exactly while every insertion was fresh. -/
theorem quotaOnce_iff (h : LedgerInv maxCapacity d g allFresh) :
    QuotaOnce maxCapacity d g ↔ allFresh := by
  refine ⟨fun hquota => ?_, fun hf => (h.fresh hf).quotaOnce⟩
  by_contra hstale
  rcases h.stale hstale with ⟨ip, htwo⟩ | hfull
  · have := hquota.once ip
    omega
  · exact absurd hquota.capacity (not_le.mpr hfull)

end LedgerInv

/-! ## Undisturbed histories -/

section Undisturbed

variable {maxCapacity : ℤ} {H H₀ H₁ : List (BossEvent T)} {t : T} {ip : String}
  {ipLimiterCount : ℤ}

omit [DecidableEq T] in
theorem Undisturbed.of_prefix (h : Undisturbed maxCapacity H) (hpre : H₀ <+: H) :
    Undisturbed maxCapacity H₀ :=
  fun before t ipLimiterCount between localIp hp =>
    h before t ipLimiterCount between localIp (hp.trans hpre)

omit [DecidableEq T] in
theorem undisturbed_nil : Undisturbed maxCapacity ([] : List (BossEvent T)) := by
  intro before t ipLimiterCount between localIp hp
  simp at hp

omit [DecidableEq T] in
/-- Only insertions disturb a history. -/
theorem undisturbed_snoc_of_ne (maxCapacity : ℤ) {e : BossEvent T}
    (he : ∀ t ip, e ≠ .inserted t ip) :
    Undisturbed maxCapacity (H ++ [e]) ↔ Undisturbed maxCapacity H := by
  refine ⟨fun h => h.of_prefix (List.prefix_append H [e]), fun h => ?_⟩
  intro before t ipLimiterCount between localIp hp
  rcases List.prefix_concat_iff.mp hp with heq | hp
  · have hlast := (List.append_inj' heq rfl).2
    exact absurd (List.cons.inj hlast).1.symm (he t localIp)
  · exact h before t ipLimiterCount between localIp hp

omit [DecidableEq T] in
/-- An insertion disturbs a history by what was inserted since the last look of its thread. -/
theorem undisturbed_snoc_inserted (hsplit : H = H₀ ++ .looked t ipLimiterCount :: H₁)
    (hlast : ∀ count, .looked t count ∉ H₁) :
    Undisturbed maxCapacity (H ++ [.inserted t ip]) ↔
      Undisturbed maxCapacity H ∧ (∀ u, .inserted u ip ∉ H₁) ∧
        ipLimiterCount + insertionCount H₁ < maxCapacity := by
  constructor
  · intro h
    refine ⟨h.of_prefix (List.prefix_append _ _), h H₀ t ipLimiterCount H₁ ip ?_ hlast⟩
    rw [hsplit]
  · rintro ⟨h, hcalls⟩ before u count between localIp hp hbetween
    rcases List.prefix_concat_iff.mp hp with heq | hp
    · have hbefore : before ++ .looked u count :: between = H := (List.append_inj' heq rfl).1
      obtain ⟨rfl, rfl⟩ :=
        BossEvent.inserted.inj (List.cons.inj (List.append_inj' heq rfl).2).1
      -- the look before the insertion is the last one of its thread
      obtain ⟨-, hlook, rfl⟩ := LastOccurrence.split_unique (p := fun e => ∃ n, e = .looked u n)
        (hbefore.trans hsplit) ⟨_, rfl⟩ ⟨_, rfl⟩ (by rintro _ he ⟨n, rfl⟩; exact hbetween n he)
        (by rintro _ he ⟨n, rfl⟩; exact hlast n he)
      obtain ⟨-, rfl⟩ := BossEvent.looked.inj hlook
      exact hcalls
    · exact h before u count between localIp hp hbetween

omit [DecidableEq T] in
/-- The ledger counts the insertions of an IP. -/
theorem insertions_eq_zero_iff :
    (ledgerOf H).insertions ip = 0 ↔ ∀ t, .inserted t ip ∉ H := by
  induction H using List.reverseRecOn with
  | nil => simp [ledgerOf, IpLedger.empty]
  | append_singleton H e ih =>
    rw [ledgerOf_snoc]
    cases e with
    | inserted u other =>
      by_cases hip : ip = other
      · subst hip
        exact iff_of_false (by simp [IpLedger.record]) fun h => h u (by simp)
      · simp [IpLedger.record, hip, ih]
    | looked u n => simp [IpLedger.record, ih]
    | granted other n => simp [IpLedger.record, IpLedger.setGranted, ih]
    | renewed other second minute => simp [IpLedger.record, IpLedger.setGranted, ih]

end Undisturbed

/-! ## The history of the boss -/

/-- The ledger is kept, the limiters of an undisturbed history are its insertions, and a look
counted those before it. -/
structure IpHistory (maxCapacity : ℤ) (d : BossData T) (H : List (BossEvent T)) : Prop where
  ledger : LedgerInv maxCapacity d (ledgerOf H) (Undisturbed maxCapacity H)
  total : Undisturbed maxCapacity H → d.ipLimiterMap.keys.length = insertionCount H
  looks : Justified (fun before e => ∀ (t : T) (n : ℤ), e = .looked t n →
    Undisturbed maxCapacity before → n = insertionCount before) H

/-- The looks of a thread. -/
def LookOf (t : T) (e : BossEvent T) : Prop := ∃ ipLimiterCount, e = .looked t ipLimiterCount

/-- The thread has looked and may insert a limiter for the IP: by the time it looked there was none,
and there was room for one. -/
def MayInsert (maxCapacity : ℤ) (t : T) (ip : String) (H : List (BossEvent T)) : Prop :=
  ∃ ipLimiterCount < maxCapacity,
    Since (LookOf t) (.looked t ipLimiterCount) (fun before => ∀ u, .inserted u ip ∉ before) H

namespace IpHistory

variable {maxCapacity : ℤ} {d d' : BossData T} {H : List (BossEvent T)}

omit [DecidableEq T] in
theorem init (args : LimiterArgs) : IpHistory maxCapacity (BossData.init args : BossData T) [] where
  ledger := LedgerInv.init args undisturbed_nil
  total _ := by simp [BossData.init, insertionCount]
  looks := .nil _

omit [DecidableEq T] in
theorem of_map_eq (h : IpHistory maxCapacity d H) (hmap : d'.ipLimiterMap = d.ipLimiterMap) :
    IpHistory maxCapacity d' H where
  ledger := h.ledger.of_map_eq hmap
  total := by
    rw [hmap]
    exact h.total
  looks := h.looks

omit [DecidableEq T] in
/-- An IP has no limiter when none was inserted for it. -/
theorem lookup_eq_none_iff (h : IpHistory maxCapacity d H) {ip : String} :
    d.ipLimiterMap.lookup ip = none ↔ ∀ t, .inserted t ip ∉ H :=
  (h.ledger.inserted ip).symm.trans insertions_eq_zero_iff

omit [DecidableEq T] in
/-- An event other than a look or an insertion, with what it changes in the ledger. -/
theorem snoc (h : IpHistory maxCapacity d H) {e : BossEvent T} (hlook : ∀ t n, e ≠ .looked t n)
    (hinsert : ∀ t ip, e ≠ .inserted t ip)
    (hlength : d'.ipLimiterMap.keys.length = d.ipLimiterMap.keys.length)
    (hledger : LedgerInv maxCapacity d' ((ledgerOf H).record e) (Undisturbed maxCapacity H)) :
    IpHistory maxCapacity d' (H ++ [e]) := by
  have hundisturbed := undisturbed_snoc_of_ne maxCapacity (H := H) hinsert
  constructor
  · rw [ledgerOf_snoc, hundisturbed]
    exact hledger
  · rw [hundisturbed, hlength]
    intro hH
    rw [h.total hH]
    cases e with
    | inserted t ip => exact absurd rfl (hinsert t ip)
    | looked t n => exact absurd rfl (hlook t n)
    | granted ip n => simp [insertionCount]
    | renewed ip second minute => simp [insertionCount]
  · exact h.looks.snoc fun t n he => absurd he (hlook t n)

omit [DecidableEq T] in
/-- A look counts the limiters. -/
theorem look (h : IpHistory maxCapacity d H) (t : T) :
    IpHistory maxCapacity d (H ++ [.looked t d.ipLimiterMap.keys.length]) := by
  have hundisturbed := undisturbed_snoc_of_ne maxCapacity (H := H)
    (e := .looked t d.ipLimiterMap.keys.length) (by rintro u ip ⟨⟩)
  constructor
  · rw [ledgerOf_snoc, hundisturbed]
    exact h.ledger
  · rw [hundisturbed]
    intro hH
    rw [h.total hH]
    simp [insertionCount]
  · refine h.looks.snoc ?_
    rintro u n heq hH
    rw [← (BossEvent.looked.inj heq).2, h.total hH]

omit [DecidableEq T] in
/-- **What the look found still holds** at an insertion of an undisturbed history exactly when no
other insertion since is for the IP, and they left room. -/
theorem fresh_iff (h : IpHistory maxCapacity d H) (hH : Undisturbed maxCapacity H) {t : T}
    {ip : String} {n : ℤ} {H₀ H₁ : List (BossEvent T)} (hsplit : H = H₀ ++ .looked t n :: H₁)
    (hnone : ∀ u, .inserted u ip ∉ H₀) :
    d.Fresh maxCapacity ip ↔
      (∀ u, .inserted u ip ∉ H₁) ∧ n + insertionCount H₁ < maxCapacity := by
  have hcount : n = insertionCount H₀ :=
    h.looks H₀ _ H₁ hsplit t n rfl (hH.of_prefix (hsplit ▸ List.prefix_append _ _))
  have htotal : d.ipLimiterMap.keys.length = insertionCount H₀ + insertionCount H₁ := by
    rw [h.total hH, hsplit]
    simp [insertionCount]
  unfold BossData.Fresh
  rw [h.lookup_eq_none_iff, htotal, hcount, hsplit]
  simp [hnone]

omit [DecidableEq T] in
/-- **An insertion** by a thread that may insert. -/
theorem insert (h : IpHistory maxCapacity d H) {t : T} {ip : String} (args : LimiterArgs)
    (hmay : MayInsert maxCapacity t ip H) :
    IpHistory maxCapacity (d.setIpLimiter ip (.init args)) (H ++ [.inserted t ip]) := by
  obtain ⟨n, -, H₀, H₁, hsplit, hlast, hnone⟩ := hmay
  have hfresh : Undisturbed maxCapacity (H ++ [.inserted t ip]) ↔
      Undisturbed maxCapacity H ∧ d.Fresh maxCapacity ip := by
    rw [undisturbed_snoc_inserted hsplit fun count hmem => hlast _ hmem ⟨count, rfl⟩]
    exact and_congr_right fun hH => (h.fresh_iff hH hsplit hnone).symm
  constructor
  · rw [ledgerOf_snoc]
    exact h.ledger.insert t ip args hfresh
  · intro hH
    obtain ⟨hH, hlookup, -⟩ := hfresh.mp hH
    rw [keys_length_setIpLimiter, hlookup, if_pos Option.isNone_none, h.total hH]
    simp [insertionCount]
  · exact h.looks.snoc fun u n he => by cases he

omit [DecidableEq T] in
/-- A request to the limiter of an IP. -/
theorem getIpSemaphore (h : IpHistory maxCapacity d H) {ip : String}
    {limiter : AutoResetOrderLimiter} (hlimiter : d.ipLimiterMap.lookup ip = some limiter) (n : ℤ) :
    IpHistory maxCapacity (d.setIpLimiter ip (limiter.getOrderSemaphore n).2)
      (H ++ if (limiter.getOrderSemaphore n).1 then [.granted ip n] else []) := by
  have hlength : ∀ new, (d.setIpLimiter ip new).ipLimiterMap.keys.length =
      d.ipLimiterMap.keys.length := by
    intro new
    rw [keys_length_setIpLimiter, hlimiter]
    rfl
  rcases limiter.getOrderSemaphore_cases n with ⟨hs, hm, he⟩ | he
  · rw [he, if_pos rfl]
    exact h.snoc (by rintro _ _ ⟨⟩) (by rintro _ _ ⟨⟩) (hlength _)
      (h.ledger.update hlimiter (fun hacc => hacc.take hs) fun hacc => hacc.take hm)
  · rw [he, if_neg Bool.false_ne_true, List.append_nil]
    have hself : LedgerInv maxCapacity (d.setIpLimiter ip limiter)
        ((ledgerOf H).setGranted ip ((ledgerOf H).secondGranted ip) ((ledgerOf H).minuteGranted ip))
        (Undisturbed maxCapacity H) :=
      h.ledger.update hlimiter id id
    refine ⟨by simpa [IpLedger.setGranted] using hself, fun hH => ?_, h.looks⟩
    rw [hlength]
    exact h.total hH

omit [DecidableEq T] in
/-- A reset of the limiter of an IP. -/
theorem resetIp (h : IpHistory maxCapacity d H) {ip : String} {limiter : AutoResetOrderLimiter}
    (hlimiter : d.ipLimiterMap.lookup ip = some limiter) (now : ℕ) :
    IpHistory maxCapacity (d.setIpLimiter ip (limiter.resetIfCycleEnd now))
      (H ++ [.renewed ip (limiter.second.cycleEnded now) (limiter.minute.cycleEnded now)]) := by
  refine h.snoc (by rintro _ _ ⟨⟩) (by rintro _ _ ⟨⟩) ?_ ?_
  · rw [keys_length_setIpLimiter, hlimiter]
    rfl
  · apply h.ledger.update hlimiter
    · exact fun hacc => hacc.resetIfCycleEnd now
    · exact fun hacc => hacc.resetIfCycleEnd now

omit [DecidableEq T] in
/-- An operation that leaves the map alone, and is not noted. -/
theorem of_some {A : Type} {s s₁ s' : Boss T} {a₁ a : A} (h : IpHistory maxCapacity s.data H)
    (he : some (s₁, a₁) = some (s', a)) (hmap : s₁.data.ipLimiterMap = s.data.ipLimiterMap) :
    IpHistory maxCapacity s'.data (H ++ []) := by
  obtain ⟨rfl, -⟩ := Prod.ext_iff.mp (Option.some.inj he)
  rw [List.append_nil]
  exact h.of_map_eq hmap

end IpHistory

/-! ## The programs -/

/-- Every operation but the insertion of a limiter. -/
def NotInsertion : BossOp → Prop
  | .setIpLimiter _ _ => False
  | _ => True

/-- Every other operation keeps the account of the IPs. -/
theorem ipHistory_exec {maxCapacity : ℤ} {t : T} {o : BossOp} {s s' : Boss T} {a : BossAns o}
    {H : List (BossEvent T)} (ho : NotInsertion o) (h : IpHistory maxCapacity s.data H)
    (he : bossExec t o s = some (s', a)) :
    IpHistory maxCapacity s'.data (H ++ noteBoss t o s a) := by
  cases o with
  | lockShared =>
    obtain ⟨s₁, hlock, hpair⟩ := Option.map_eq_some_iff.mp he
    obtain ⟨-, rfl⟩ := RWLocked.lockShared_eq_some hlock
    exact h.of_some (congrArg some hpair) rfl
  | lockExclusive =>
    obtain ⟨s₁, hlock, hpair⟩ := Option.map_eq_some_iff.mp he
    obtain ⟨-, -, rfl⟩ := RWLocked.lockExclusive_eq_some hlock
    exact h.of_some (congrArg some hpair) rfl
  | unlockShared => exact h.of_some he rfl
  | unlockExclusive => exact h.of_some he rfl
  | getAccountSemaphore requireNum => exact h.of_some he rfl
  | findIpLimiter localIp => exact h.of_some he rfl
  | countIpLimiters =>
    obtain ⟨rfl, rfl⟩ := Prod.ext_iff.mp (Option.some.inj he)
    exact h.look t
  | listIpLimiters => exact h.of_some he rfl
  | returnAccountSemaphore returnNum => exact h.of_some he rfl
  | resetAccount now => exact h.of_some he rfl
  | returnResult hasAccountSemaphore hasIpSemaphore =>
    apply h.of_some he
    simp only [BossData.returnResult]
    split_ifs <;> rfl
  | setIpLimiter localIp limiter => exact ho.elim
  | getIpSemaphore localIp requireNum =>
    obtain ⟨limiter, hlimiter, hpair⟩ := Option.map_eq_some_iff.mp he
    obtain ⟨rfl, rfl⟩ := Prod.ext_iff.mp hpair
    exact h.getIpSemaphore hlimiter requireNum
  | resetIp localIp now =>
    obtain ⟨limiter, hlimiter, hpair⟩ := Option.map_eq_some_iff.mp he
    obtain ⟨rfl, -⟩ := Prod.ext_iff.mp hpair
    simp only [noteBoss, hlimiter]
    exact h.resetIp hlimiter now

omit [DecidableEq T] in
/-- A look is noted for the thread that looks. -/
theorem separate_noteBoss : Separate (noteBoss (T := T)) LookOf := by
  rintro t u o s a hut e he ⟨n, rfl⟩
  cases o with
  | countIpLimiters =>
    obtain ⟨rfl, -⟩ := BossEvent.looked.inj (List.mem_singleton.mp he)
    exact hut rfl
  | getIpSemaphore localIp requireNum =>
    simp only [noteBoss] at he
    split_ifs at he <;> simp at he
  | resetIp localIp now =>
    simp only [noteBoss] at he
    split at he <;> simp at he
  | setIpLimiter localIp limiter => simp [noteBoss] at he
  | _ => cases he

/-- The triples of the boss. -/
abbrev IpTriple (maxCapacity : ℤ) (t : T) {α : Type} (P : List (BossEvent T) → Prop)
    (p : BossProg α) (Q : α → List (BossEvent T) → Prop) : Prop :=
  HistoryTriple (orderLimiterBoss T maxCapacity) noteBoss LookOf
    (fun s H => IpHistory maxCapacity s.data H) t P p Q

section Programs

variable {maxCapacity : ℤ} {t : T}

theorem returnPair_performs (hasAccountSemaphore hasIpSemaphore : Bool) :
    (returnPair hasAccountSemaphore hasIpSemaphore).Performs NotInsertion :=
  .bind (.call trivial) fun _ => .ret _

theorem getOrderSemaphore_performs (localIp : String) (requireNum : ℤ) :
    (getOrderSemaphore localIp requireNum).Performs NotInsertion := by
  refine .bind (.call trivial) fun _ => .bind (.call trivial) fun _ => ?_
  refine .ite (returnPair_performs _ _) (.bind (.call trivial) fun _ => ?_)
  refine .ite (.bind (.call trivial) fun _ => returnPair_performs _ _) ?_
  refine .bind (.call trivial) fun _ => .ite ?_ (returnPair_performs _ _)
  exact .bind (.call trivial) fun _ => returnPair_performs _ _

theorem refreshAllLimiters_performs (now : ℕ) : (refreshAllLimiters now).Performs NotInsertion := by
  refine .bind (.call trivial) fun _ => .bind (.call trivial) fun _ => ?_
  refine .bind (.call trivial) fun ips => .bind ?_ fun _ => .call trivial
  exact .forM ips fun _ _ => .call trivial

/-- A program without insertions keeps the account, whatever its thread knows. -/
theorem ipTriple_of_performs {α : Type} {p : BossProg α} (hp : p.Performs NotInsertion) :
    IpTriple maxCapacity t (fun _ => True) p fun _ _ => True :=
  .of_performs separate_noteBoss hp fun _ _ _ _ _ ho h he => ipHistory_exec ho h he

/-- An operation that is not noted keeps what its thread knows. -/
theorem ipTriple_call {o : BossOp} {P : List (BossEvent T) → Prop} (ho : NotInsertion o)
    (hnote : ∀ s a, noteBoss t o s a = []) (hP : LastingWithout (LookOf t) P) :
    IpTriple maxCapacity t P (Prog.call o) fun _ => P := by
  refine .call separate_noteBoss hP fun s H s' a h hp he => ⟨ipHistory_exec ho h he, ?_⟩
  rw [hnote, List.append_nil]
  exact hp

/-- **A creation** inserts a limiter only for an IP that had none when it looked, and only if there
was room for one. -/
theorem createIpLimiter_triple (localIp : String) (args : LimiterArgs) :
    IpTriple maxCapacity t (fun _ => True) (createIpLimiter maxCapacity localIp args)
      fun _ _ => True := by
  have htrivial : LastingWithout (LookOf t) fun _ : List (BossEvent T) => True :=
    (Lasting.const True).without _
  refine .bind (ipTriple_call trivial (fun _ _ => rfl) htrivial) fun _ => ?_
  refine .bind (.call (Q := fun n => Since (LookOf t) (.looked t n) fun _ => True)
    separate_noteBoss htrivial fun s H s' a h _ he => ⟨ipHistory_exec trivial h he, ?_⟩) fun n => ?_
  · exact Since.snoc trivial _
  -- what is found has not changed since the count, which the assertion need not know
  refine .bind (.call (Q := fun found => Since (LookOf t) (.looked t n) fun before =>
      found = false → ∀ u, .inserted u localIp ∉ before)
    separate_noteBoss (lastingWithout_since _ _ _) fun s H s' found h hsince he =>
      ⟨ipHistory_exec trivial h he, ?_⟩) fun found => ?_
  · obtain ⟨rfl, rfl⟩ := Prod.ext_iff.mp (Option.some.inj he)
    show Since _ _ _ (H ++ [])
    rw [List.append_nil]
    refine hsince.mono fun before hbefore _ hfound u hu => ?_
    exact h.lookup_eq_none_iff.mp (by simpa using hfound) u (hbefore.subset hu)
  refine .bind (ipTriple_call trivial (fun _ _ => rfl) (lastingWithout_since _ _ _)) fun _ => ?_
  refine .ite (fun _ => .ret fun _ _ => trivial) fun hfound => ?_
  refine .ite (fun _ => .ret fun _ _ => trivial) fun hroom => ?_
  refine .bind (ipTriple_call trivial (fun _ _ => rfl) (lastingWithout_since _ _ _)) fun _ => ?_
  refine .bind (.call (Q := fun _ _ => True) separate_noteBoss (lastingWithout_since _ _ _)
    fun s H s' a h hsince he => ⟨?_, trivial⟩) fun _ => ?_
  · obtain ⟨rfl, -⟩ := Prod.ext_iff.mp (Option.some.inj he)
    refine h.insert args ⟨n, not_le.mp hroom, hsince.mono fun before _ hnone => ?_⟩
    exact hnone (by simpa using hfound)
  exact .bind (ipTriple_call trivial (fun _ _ => rfl) htrivial) fun _ => .ret fun _ _ => trivial

/-- Every call keeps the account of the IPs. -/
theorem ipTriple_body (l : Unit) (x : BossCall) :
    IpTriple maxCapacity t (fun _ => True) ((orderLimiterBoss T maxCapacity).body t l x)
      fun _ _ => True := by
  cases x with
  | getOrderSemaphore localIp =>
    exact ipTriple_of_performs (.bind (getOrderSemaphore_performs localIp 1) fun _ => .ret ())
  | refreshAllLimiters now => exact ipTriple_of_performs (refreshAllLimiters_performs now)
  | createIpLimiter localIp args =>
    exact .bind (createIpLimiter_triple localIp args) fun _ => .ret fun _ _ => trivial

/-- The history of every run satisfies the invariant. -/
theorem ipHistory_reachable {args : LimiterArgs} {c}
    (hc : (notedBoss T maxCapacity).Reachable System.Unrestricted (bossStart T args, [])
      (fun _ => ()) c) : IpHistory maxCapacity c.shared.1.data c.shared.2 := by
  refine System.history_invariant ?_ (fun _ l x => ipTriple_body l x) hc
  exact IpHistory.init args

end Programs

/-! ## The quota -/

/-- **The quota of an IP is created once exactly in undisturbed histories.** Whatever requests,
refreshes and creations of limiters do in whatever order, every run of the boss has a history. By
its ledger the run kept every limiter it inserted, every IP within its count and the map within its
capacity, if and only if between the look of a call and its insertion there is no insertion for the
same IP, and there are fewer insertions than the look left room for. -/
theorem quota_once_iff_undisturbed {maxCapacity : ℤ} {args : LimiterArgs} {c}
    (hc : (orderLimiterBoss T maxCapacity).Reachable System.Unrestricted (bossStart T args)
      (fun _ => ()) c) :
    (∃ H, (notedBoss T maxCapacity).Reachable System.Unrestricted (bossStart T args, [])
        (fun _ => ()) (c.withRecord H)) ∧
      ∀ H, (notedBoss T maxCapacity).Reachable System.Unrestricted (bossStart T args, [])
          (fun _ => ()) (c.withRecord H) →
        (QuotaOnce maxCapacity c.shared.data (ledgerOf H) ↔ Undisturbed maxCapacity H) :=
  ⟨System.exists_ghost [] hc, fun _ hH => (ipHistory_reachable hH).ledger.quotaOnce_iff⟩

/-- A limiter with one order for its IP, and the request that uses it up. -/
theorem quota_once_iff_undisturbed_one :
    ∃ c, (notedBoss Bool 64).Reachable System.Unrestricted
        (bossStart Bool ⟨9, 10, 9, 1, 0, 0⟩, []) (fun _ => ()) c ∧
      (ledgerOf c.shared.2).secondGranted "10.0.0.1" = 1 ∧
      QuotaOnce 64 c.shared.1.data (ledgerOf c.shared.2) := by
  let moves : List (System.Move Bool fun _ => BossCall) := List.flatten
    [wholeCall true (.createIpLimiter "10.0.0.1" ⟨1, 10, 1, 1, 0, 0⟩) 7,
      beginCall true (.getOrderSemaphore "10.0.0.1") 5]
  obtain ⟨c, hc, hhistory⟩ :
      ∃ c, (notedBoss Bool 64).Reachable System.Unrestricted
          (bossStart Bool ⟨9, 10, 9, 1, 0, 0⟩, []) (fun _ => ()) c ∧
        c.shared.2 = [.looked true 0, .inserted true "10.0.0.1", .granted "10.0.0.1" 1] :=
    System.exists_of_schedule moves (by decide +kernel)
  have h := (quota_once_iff_undisturbed (System.reachable_forget hc)).2 c.shared.2 hc
  refine ⟨c, hc, by rw [hhistory]; decide +kernel, h.mpr ?_⟩
  rw [hhistory]
  have hsplit : ([.looked true 0, .inserted true "10.0.0.1", .granted "10.0.0.1" 1] :
      List (BossEvent Bool)) = (([.looked true 0] ++ [.inserted true "10.0.0.1"]) ++
        [.granted "10.0.0.1" 1]) := rfl
  have hlook : Undisturbed 64 ([] ++ [.looked true 0] : List (BossEvent Bool)) :=
    (undisturbed_snoc_of_ne 64 (by rintro _ _ ⟨⟩)).mpr undisturbed_nil
  have hfirst : ([.looked true 0] : List (BossEvent Bool)) = [] ++ .looked true 0 :: [] := rfl
  have hinsert : Undisturbed 64 ([.looked true 0] ++ [.inserted true "10.0.0.1"]) :=
    (undisturbed_snoc_inserted hfirst (by simp)).mpr ⟨hlook, by simp, by decide⟩
  rw [hsplit, undisturbed_snoc_of_ne 64 (by rintro _ _ ⟨⟩)]
  exact hinsert

/-- Two threads look before either inserts: the second limiter replaces the first one, and the IP is
granted two orders out of a count of one. -/
theorem quota_created_twice :
    ∃ c, (notedBoss Bool 64).Reachable System.Unrestricted
        (bossStart Bool ⟨9, 10, 9, 1, 0, 0⟩, []) (fun _ => ()) c ∧
      (ledgerOf c.shared.2).insertions "10.0.0.1" = 2 ∧
      (ledgerOf c.shared.2).secondGranted "10.0.0.1" = 2 ∧
      (c.shared.1.data.ipLimiterMap.lookup "10.0.0.1").map (·.second.initCount) = some 1 ∧
      ¬ QuotaOnce 64 c.shared.1.data (ledgerOf c.shared.2) := by
  let create : BossCall := .createIpLimiter "10.0.0.1" ⟨1, 10, 1, 1, 0, 0⟩
  let moves : List (System.Move Bool fun _ => BossCall) := List.flatten
    -- both look
    [beginCall true create 4, beginCall false create 4,
      -- one inserts and is granted an order
      endCall true 3, wholeCall true (.getOrderSemaphore "10.0.0.1") 5,
      -- the other one inserts, and there is an order again
      goOn false 3, beginCall true (.getOrderSemaphore "10.0.0.1") 5]
  obtain ⟨c, hc, htwice, hgranted, hcount⟩ :
      ∃ c, (notedBoss Bool 64).Reachable System.Unrestricted
          (bossStart Bool ⟨9, 10, 9, 1, 0, 0⟩, []) (fun _ => ()) c ∧
        (ledgerOf c.shared.2).insertions "10.0.0.1" = 2 ∧
        (ledgerOf c.shared.2).secondGranted "10.0.0.1" = 2 ∧
        (c.shared.1.data.ipLimiterMap.lookup "10.0.0.1").map (·.second.initCount) = some 1 :=
    System.exists_of_schedule moves (by decide +kernel)
  refine ⟨c, hc, htwice, hgranted, hcount, fun hquota => ?_⟩
  have honce := hquota.once "10.0.0.1"
  omega

end UmTaker.Trader
