import UmTaker.Trader.OrderLimiter
import Mathlib.Data.Finset.Card

/-!
# Conservation of the account's semaphores

The ledger of the account: a semaphore that is out is in the hands of a call inside, or was turned
into an order since its window was last reset. Requests move it under the shared lock; a reset finds
nothing in anyone's hands, because it holds the lock exclusively.

## Main definitions

* `BossInv`: both windows of the account balance their ledger
* `bossInterference`: the discipline of the boss's lock
* `WindowConserved`: the account of one window

## Main results

* `getOrderSemaphore_spec`, `refreshAllLimiters_spec`, `createIpLimiter_spec`: every program keeps
  the ledger and leaves nothing in the hands of its thread
* `semaphores_conserved`: every interleaving conserves both windows
-/

namespace UmTaker.Trader

open Concurrency Concurrency.System.Move

variable {T : Type} [DecidableEq T]

/-! ## The ledger -/

/-- Everything that is out is held by a call inside or was turned into an order, and both windows of
the account balance with it. -/
structure BossInv (args : LimiterArgs) (readers : Finset T) (d : BossData T) : Prop where
  inside : d.holding ⊆ readers
  secondCount : d.accountLimiter.second.initCount = args.secondSemaphoreCount
  minuteCount : d.accountLimiter.minute.initCount = args.minuteSemaphoreCount
  second : d.accountLimiter.second.Balanced (d.secondGranted + d.holding.card)
  minute : d.accountLimiter.minute.Balanced (d.minuteGranted + d.holding.card)

/-- A holder is one of those counted. -/
theorem card_holding {holding : Finset T} {t : T} (ht : t ∈ holding) :
    (holding.card : ℤ) = (holding.erase t).card + 1 := by
  rw [← Finset.card_erase_add_one ht]
  push_cast
  rfl

namespace BossInv

variable {args : LimiterArgs} {readers : Finset T} {d : BossData T} {t : T}

omit [DecidableEq T] in
/-- A new boss has its full count. -/
theorem init (hsecond : 0 ≤ args.secondSemaphoreCount) (hminute : 0 ≤ args.minuteSemaphoreCount) :
    BossInv args (∅ : Finset T) (BossData.init args) where
  inside := Finset.empty_subset _
  secondCount := rfl
  minuteCount := rfl
  second := Quota.balanced_full hsecond
  minute := Quota.balanced_full hminute

/-- One more thread inside changes nothing. -/
theorem insert (h : BossInv args readers d) : BossInv args (insert t readers) d :=
  { h with inside := h.inside.trans (Finset.subset_insert t readers) }

/-- A thread that holds nothing may leave. -/
theorem erase (h : BossInv args readers d) (ht : t ∉ d.holding) :
    BossInv args (readers.erase t) d :=
  { h with inside := Finset.subset_erase.mpr ⟨h.inside, ht⟩ }

omit [DecidableEq T] in
theorem setIpLimiter (h : BossInv args readers d) (localIp : String)
    (limiter : AutoResetOrderLimiter) : BossInv args readers (d.setIpLimiter localIp limiter) :=
  ⟨h.inside, h.secondCount, h.minuteCount, h.second, h.minute⟩

/-- A semaphore granted moves from both windows into the hands of the thread. -/
theorem getAccountSemaphore (h : BossInv args readers d) (ht : t ∈ readers)
    (hnot : t ∉ d.holding) : BossInv args readers (d.getAccountSemaphore t 1).2 := by
  rcases d.accountLimiter.getOrderSemaphore_cases 1 with ⟨hs, hm, he⟩ | he
  · have hcard : ((Insert.insert t d.holding).card : ℤ) = d.holding.card + 1 := by
      rw [card_holding (Finset.mem_insert_self t d.holding), Finset.erase_insert hnot]
    simp only [BossData.getAccountSemaphore, he, if_true]
    refine ⟨Finset.insert_subset ht h.inside, h.secondCount, h.minuteCount, ?_, ?_⟩
    · rw [hcard, ← add_assoc]
      exact h.second.take hs
    · rw [hcard, ← add_assoc]
      exact h.minute.take hm
  · simpa [BossData.getAccountSemaphore, he] using h

/-- A semaphore given back returns to both windows: neither cap drops it. -/
theorem returnAccountSemaphore (h : BossInv args readers d) (ht : t ∈ d.holding) :
    BossInv args readers (d.returnAccountSemaphore t 1) := by
  have hsecond := h.second
  have hminute := h.minute
  -- its own semaphore is among those out, which leaves room for it under the initial count
  rw [card_holding ht, ← add_assoc] at hsecond hminute
  refine ⟨(Finset.erase_subset t _).trans h.inside, ?_, ?_, ?_, ?_⟩
  · exact (SemaphoreWindow.giveBack_initCount _ 1).trans h.secondCount
  · exact (SemaphoreWindow.giveBack_initCount _ 1).trans h.minuteCount
  · exact hsecond.giveBack (by omega) zero_le_one
  · exact hminute.giveBack (by omega) zero_le_one

/-- A call that was granted both semaphores turns the one it holds into an order. -/
theorem returnResult {hasAccount hasIp : Bool} (h : BossInv args readers d)
    (ht : t ∈ d.holding ↔ (hasAccount && hasIp) = true) :
    BossInv args readers (d.returnResult t hasAccount hasIp) ∧
      t ∉ (d.returnResult t hasAccount hasIp).holding := by
  unfold BossData.returnResult
  split_ifs with hboth
  · have hsecond := h.second
    have hminute := h.minute
    rw [card_holding (ht.mpr hboth), ← add_assoc, add_right_comm] at hsecond hminute
    refine ⟨⟨(Finset.erase_subset t _).trans h.inside, h.secondCount, h.minuteCount, ?_, ?_⟩, ?_⟩
    · exact_mod_cast hsecond
    · exact_mod_cast hminute
    · exact Finset.notMem_erase t d.holding
  · exact ⟨h, fun hmem => hboth (ht.mp hmem)⟩

omit [DecidableEq T] in
/-- The refresh is alone: no semaphore is in anyone's hands, so a window that is renewed has nothing
out. -/
theorem resetAccount (h : BossInv args ∅ d) (now : ℕ) : BossInv args ∅ (d.resetAccount now) := by
  have hnone : d.holding = ∅ := Finset.subset_empty.mp h.inside
  have hout : ∀ granted : ℕ, ((granted : ℤ) + (d.holding.card : ℤ)) = granted := by
    intro granted
    simp [hnone]
  have hsecond := h.second
  have hminute := h.minute
  rw [hout] at hsecond hminute
  refine ⟨h.inside, ?_, ?_, ?_, ?_⟩
  · exact (SemaphoreWindow.resetIfCycleEnd_initCount _ now).trans h.secondCount
  · exact (SemaphoreWindow.resetIfCycleEnd_initCount _ now).trans h.minuteCount
  · show Quota.Balanced _ (_ + (d.holding.card : ℤ))
    rw [hout]
    exact SemaphoreWindow.resetIfCycleEnd_balanced hsecond now
  · show Quota.Balanced _ (_ + (d.holding.card : ℤ))
    rw [hout]
    exact SemaphoreWindow.resetIfCycleEnd_balanced hminute now

end BossInv

/-! ## The programs keep the ledger -/

/-- The discipline of the boss's lock: threads keep what they hold while the others step. -/
def bossInterference (T : Type) (args : LimiterArgs) : Interference T (Boss T) :=
  rwInterference (BossInv args) (fun t d d' => t ∈ d'.holding ↔ t ∈ d.holding)
    (fun _ _ => Iff.rfl) (fun _ _ _ _ h₁ h₂ => h₂.trans h₁)

section Specs

variable {args : LimiterArgs} {t : T} {maxCapacity : ℤ}

/-- A thread inside, which holds a semaphore or does not. -/
def Inside (t : T) (holds : Bool) (s : Boss T) : Prop :=
  t ∈ s.readers ∧ (t ∈ s.data.holding ↔ holds = true)

omit [DecidableEq T] in
theorem stable_inside (holds : Bool) :
    (bossInterference T args).Stable t (Inside t holds) := by
  apply Interference.Stable.and stable_shared
  exact stable_own (P := fun d : BossData T => t ∈ d.holding ↔ holds = true)
    fun _ _ hown h => hown.trans h

omit [DecidableEq T] in
theorem stable_notHolding :
    (bossInterference T args).Stable t fun s => t ∉ s.data.holding :=
  stable_own (P := fun d : BossData T => t ∉ d.holding) fun _ _ hown h hmem => h (hown.mp hmem)

/-- The triples of the boss. -/
abbrev BossTriple (args : LimiterArgs) (maxCapacity : ℤ) (t : T) {α : Type} (P : Boss T → Prop)
    (p : BossProg α) (Q : α → Boss T → Prop) : Prop :=
  Triple (orderLimiterBoss T maxCapacity) System.Unrestricted (bossInterference T args) t P p Q

/-- Entering with the shared lock. -/
theorem lockShared_spec :
    BossTriple args maxCapacity t (fun s => t ∉ s.data.holding) (Prog.call BossOp.lockShared)
      fun _ => Inside t false := by
  refine Triple.call stable_notHolding fun s hs ht _ s' a he => ?_
  obtain ⟨s₁, he, hpair⟩ := Option.map_eq_some_iff.mp he
  obtain ⟨hfree, rfl⟩ := RWLocked.lockShared_eq_some he
  obtain ⟨rfl, -⟩ := Prod.ext_iff.mp hpair
  refine ⟨respects_lockShared hs hfree BossInv.insert, ?_, ?_⟩
  · exact Finset.mem_insert_self t s.readers
  · simpa using ht

/-- The account's limiter decides whether the thread holds a semaphore. -/
theorem getAccountSemaphore_spec :
    BossTriple args maxCapacity t (Inside t false) (Prog.call (BossOp.getAccountSemaphore 1))
      fun holds => Inside t holds := by
  refine Triple.call (stable_inside false) fun s hs hin _ s' holds he => ?_
  obtain ⟨ht, hnot⟩ := hin
  have hnot : t ∉ s.data.holding := by simpa using hnot
  obtain ⟨rfl, rfl⟩ := Prod.ext_iff.mp (Option.some.inj he)
  refine ⟨respects_shared hs ht (hs.2.getAccountSemaphore ht hnot) fun u hu => ?_, ht, ?_⟩
  · simp only [BossData.getAccountSemaphore]
    split_ifs
    · simp [hu]
    · rfl
  · simp only [BossData.getAccountSemaphore]
    split_ifs with hgranted
    · simp [hgranted]
    · simp [hgranted, hnot]

/-- An operation that leaves the account's ledger alone. -/
theorem inside_spec {o : BossOp} {holds : Bool}
    (h : ∀ s s' a, bossExec t o s = some (s', a) →
      s' = s ∨ ∃ localIp limiter, s' = { s with data := s.data.setIpLimiter localIp limiter }) :
    BossTriple args maxCapacity t (Inside t holds) (Prog.call o) fun _ => Inside t holds := by
  refine Triple.call (stable_inside holds) fun s hs hin _ s' a he => ?_
  rcases h s s' a he with rfl | ⟨localIp, limiter, rfl⟩
  · refine ⟨?_, hin⟩
    exact respects_shared hs hin.1 hs.2 fun _ _ => Iff.rfl
  · exact ⟨respects_shared hs hin.1 (hs.2.setIpLimiter localIp limiter) fun _ _ => Iff.rfl, hin⟩

theorem findIpLimiter_spec (localIp : String) {holds : Bool} :
    BossTriple args maxCapacity t (Inside t holds) (Prog.call (BossOp.findIpLimiter localIp))
      fun _ => Inside t holds := by
  refine inside_spec fun s s' a he => Or.inl ?_
  exact (Prod.ext_iff.mp (Option.some.inj he)).1.symm

theorem countIpLimiters_spec {holds : Bool} :
    BossTriple args maxCapacity t (Inside t holds) (Prog.call BossOp.countIpLimiters)
      fun _ => Inside t holds := by
  refine inside_spec fun s s' a he => Or.inl ?_
  exact (Prod.ext_iff.mp (Option.some.inj he)).1.symm

theorem getIpSemaphore_spec (localIp : String) (requireNum : ℤ) {holds : Bool} :
    BossTriple args maxCapacity t (Inside t holds)
      (Prog.call (BossOp.getIpSemaphore localIp requireNum)) fun _ => Inside t holds := by
  refine inside_spec fun s s' a he => Or.inr ?_
  obtain ⟨limiter, -, hpair⟩ := Option.map_eq_some_iff.mp he
  exact ⟨localIp, _, (Prod.ext_iff.mp hpair).1.symm⟩

/-- The account gets its semaphore back. -/
theorem returnAccountSemaphore_spec :
    BossTriple args maxCapacity t (Inside t true) (Prog.call (BossOp.returnAccountSemaphore 1))
      fun _ => Inside t false := by
  refine Triple.call (stable_inside true) fun s hs hin _ s' a he => ?_
  obtain ⟨ht, hholds⟩ := hin
  have hmem : t ∈ s.data.holding := hholds.mpr rfl
  obtain ⟨rfl, -⟩ := Prod.ext_iff.mp (Option.some.inj he)
  refine ⟨respects_shared hs ht (hs.2.returnAccountSemaphore hmem) fun u hu => ?_, ht, ?_⟩
  · simp [BossData.returnAccountSemaphore, hu]
  · simp [BossData.returnAccountSemaphore]

/-- A call returns with both semaphores when it holds one, and leaves nothing in its hands. -/
theorem returnPair_spec (hasAccount hasIp : Bool) :
    BossTriple args maxCapacity t (Inside t (hasAccount && hasIp)) (returnPair hasAccount hasIp)
      fun _ s => t ∉ s.data.holding := by
  refine Triple.bind (R := fun _ s => t ∉ s.data.holding) ?_ fun _ => Triple.ret fun _ _ h => h
  refine Triple.call (stable_inside _) fun s hs hin _ s' a he => ?_
  obtain ⟨ht, hholds⟩ := hin
  obtain ⟨rfl, -⟩ := Prod.ext_iff.mp (Option.some.inj he)
  -- the ledger is settled first, so that the thread may leave
  obtain ⟨hinv, hnot⟩ := hs.2.returnResult hholds
  refine ⟨respects_unlockShared hs ht (hinv.erase hnot) fun u hu => ?_, hnot⟩
  simp only [BossData.returnResult]
  split_ifs
  · simp [hu]
  · rfl

/-- **A request** leaves nothing in the hands of its thread, whichever way it returns. -/
theorem getOrderSemaphore_spec (localIp : String) :
    BossTriple args maxCapacity t (fun s => t ∉ s.data.holding) (getOrderSemaphore localIp 1)
      fun _ s => t ∉ s.data.holding := by
  refine Triple.bind lockShared_spec fun _ => ?_
  refine Triple.bind getAccountSemaphore_spec fun hasAccount => ?_
  refine Triple.ite (fun hno => ?_) fun hyes => ?_
  · obtain rfl : hasAccount = false := by simpa using hno
    exact returnPair_spec false false
  obtain rfl : hasAccount = true := by simpa using hyes
  refine Triple.bind (findIpLimiter_spec localIp) fun found => ?_
  refine Triple.ite (fun _ => ?_) fun _ => ?_
  · exact Triple.bind returnAccountSemaphore_spec fun _ => returnPair_spec true false
  refine Triple.bind (getIpSemaphore_spec localIp 1) fun hasIp => ?_
  refine Triple.ite (fun hno => ?_) fun hyes => ?_
  · obtain rfl : hasIp = false := by simpa using hno
    exact Triple.bind returnAccountSemaphore_spec fun _ => returnPair_spec true false
  · obtain rfl : hasIp = true := by simpa using hyes
    exact returnPair_spec true true

/-- The thread that holds the lock exclusively; it holds no semaphore. -/
def Alone (t : T) (s : Boss T) : Prop := s.writer = some t ∧ t ∉ s.data.holding

omit [DecidableEq T] in
theorem stable_alone : (bossInterference T args).Stable t (Alone t) :=
  stable_exclusive fun d : BossData T => t ∉ d.holding

theorem lockExclusive_spec :
    BossTriple args maxCapacity t (fun s => t ∉ s.data.holding) (Prog.call BossOp.lockExclusive)
      fun _ => Alone t := by
  refine Triple.call stable_notHolding fun s hs ht _ s' a he => ?_
  obtain ⟨s₁, he, hpair⟩ := Option.map_eq_some_iff.mp he
  obtain ⟨hfree, hempty, rfl⟩ := RWLocked.lockExclusive_eq_some he
  obtain ⟨rfl, -⟩ := Prod.ext_iff.mp hpair
  exact ⟨respects_lockExclusive hs hfree hempty, rfl, ht⟩

theorem unlockExclusive_spec :
    BossTriple args maxCapacity t (Alone t) (Prog.call BossOp.unlockExclusive)
      fun _ s => t ∉ s.data.holding := by
  refine Triple.call stable_alone fun s hs halone _ s' a he => ?_
  obtain ⟨rfl, -⟩ := Prod.ext_iff.mp (Option.some.inj he)
  exact ⟨respects_unlockExclusive hs halone.1, halone.2⟩

/-- An operation of the exclusive holder that touches nobody's semaphore. -/
theorem alone_spec {o : BossOp}
    (h : ∀ s s' a, bossExec t o s = some (s', a) → BossInv args ∅ s.data →
      s' = s ∨ ∃ d, s' = { s with data := d } ∧ BossInv args ∅ d ∧ d.holding = s.data.holding) :
    BossTriple args maxCapacity t (Alone t) (Prog.call o) fun _ => Alone t := by
  refine Triple.call stable_alone fun s hs halone _ s' a he => ?_
  have hdata : BossInv args ∅ s.data := by
    rw [← hs.1 t halone.1]
    exact hs.2
  rcases h s s' a he hdata with rfl | ⟨d, rfl, hd, hholding⟩
  · exact ⟨respects_exclusive hs halone.1 hdata fun _ _ => Iff.rfl, halone⟩
  · refine ⟨respects_exclusive hs halone.1 hd fun u _ => ?_, halone.1, ?_⟩
    · rw [hholding]
    · exact hholding ▸ halone.2

theorem resetAccount_spec (now : ℕ) :
    BossTriple args maxCapacity t (Alone t) (Prog.call (BossOp.resetAccount now))
      fun _ => Alone t := by
  refine alone_spec fun s s' a he hdata => Or.inr ?_
  obtain ⟨rfl, -⟩ := Prod.ext_iff.mp (Option.some.inj he)
  exact ⟨_, rfl, hdata.resetAccount now, rfl⟩

theorem listIpLimiters_spec :
    BossTriple args maxCapacity t (Alone t) (Prog.call BossOp.listIpLimiters) fun _ => Alone t := by
  refine alone_spec fun s s' a he _ => Or.inl ?_
  exact (Prod.ext_iff.mp (Option.some.inj he)).1.symm

theorem resetIp_spec (localIp : String) (now : ℕ) :
    BossTriple args maxCapacity t (Alone t) (Prog.call (BossOp.resetIp localIp now))
      fun _ => Alone t := by
  refine alone_spec fun s s' a he hdata => Or.inr ?_
  obtain ⟨limiter, -, hpair⟩ := Option.map_eq_some_iff.mp he
  exact ⟨_, (Prod.ext_iff.mp hpair).1.symm, hdata.setIpLimiter localIp _, rfl⟩

theorem setIpLimiter_spec (localIp : String) (limiter : AutoResetOrderLimiter) :
    BossTriple args maxCapacity t (Alone t) (Prog.call (BossOp.setIpLimiter localIp limiter))
      fun _ => Alone t := by
  refine alone_spec fun s s' a he hdata => Or.inr ?_
  obtain ⟨rfl, -⟩ := Prod.ext_iff.mp (Option.some.inj he)
  exact ⟨_, rfl, hdata.setIpLimiter localIp limiter, rfl⟩

/-- A pass of the refresh. -/
theorem refreshAllLimiters_spec (now : ℕ) :
    BossTriple args maxCapacity t (fun s => t ∉ s.data.holding) (refreshAllLimiters now)
      fun _ s => t ∉ s.data.holding := by
  refine Triple.bind lockExclusive_spec fun _ => ?_
  refine Triple.bind (resetAccount_spec now) fun _ => ?_
  refine Triple.bind listIpLimiters_spec fun ips => ?_
  refine Triple.bind (R := fun _ => Alone t) ?_ fun _ => unlockExclusive_spec
  exact Triple.forM (A := fun _ => Alone t) fun _ ip _ _ => resetIp_spec ip now

/-- Giving up the shared lock with empty hands. -/
theorem unlockShared_spec :
    BossTriple args maxCapacity t (Inside t false) (Prog.call BossOp.unlockShared)
      fun _ s => t ∉ s.data.holding := by
  refine Triple.call (stable_inside false) fun s hs hin _ s' a he => ?_
  obtain ⟨ht, hnot⟩ := hin
  have hnot : t ∉ s.data.holding := by simpa using hnot
  obtain ⟨rfl, -⟩ := Prod.ext_iff.mp (Option.some.inj he)
  exact ⟨respects_unlockShared hs ht (hs.2.erase hnot) fun _ _ => Iff.rfl, hnot⟩

/-- The creation of a limiter. -/
theorem createIpLimiter_spec (localIp : String) (ipArgs : LimiterArgs) :
    BossTriple args maxCapacity t (fun s => t ∉ s.data.holding)
      (createIpLimiter maxCapacity localIp ipArgs) fun _ s => t ∉ s.data.holding := by
  refine Triple.bind lockShared_spec fun _ => ?_
  refine Triple.bind countIpLimiters_spec fun ipLimiterCount => ?_
  refine Triple.bind (findIpLimiter_spec localIp) fun ipLimiterExists => ?_
  refine Triple.bind unlockShared_spec fun _ => ?_
  refine Triple.ite (fun _ => Triple.ret fun _ _ h => h) fun _ => ?_
  refine Triple.ite (fun _ => Triple.ret fun _ _ h => h) fun _ => ?_
  refine Triple.bind lockExclusive_spec fun _ => ?_
  refine Triple.bind (setIpLimiter_spec localIp _) fun _ => ?_
  exact Triple.bind unlockExclusive_spec fun _ => Triple.ret fun _ _ h => h

end Specs

/-! ## Conservation -/

/-- The proof outline of the boss: between two calls a thread holds nothing. -/
def bossOutline (T : Type) [DecidableEq T] (maxCapacity : ℤ) (args : LimiterArgs) :
    Outline (orderLimiterBoss T maxCapacity) System.Unrestricted where
  I := bossInterference T args
  atRest t _ s := t ∉ s.data.holding
  stable _ _ := stable_notHolding
  body
    | _, _, .getOrderSemaphore localIp =>
      Triple.bind (getOrderSemaphore_spec localIp) fun _ => Triple.ret fun _ _ h => h
    | _, _, .refreshAllLimiters now => refreshAllLimiters_spec now
    | _, _, .createIpLimiter localIp ipArgs =>
      Triple.bind (createIpLimiter_spec localIp ipArgs) fun _ => Triple.ret fun _ _ h => h

/-- A boss that was just initialised, with nobody at its lock. -/
abbrev bossStart (T : Type) (args : LimiterArgs) : Boss T where
  data := .init args
  readers := ∅
  writer := none

/-- The account of one window: what remains, what was granted since its last reset and what calls
hold make up its initial count, and what remains is not negative. -/
structure WindowConserved (w : SemaphoreWindow) (count : ℤ) (granted holding : ℕ) : Prop where
  initCount : w.initCount = count
  nonneg : 0 ≤ w.remainCount
  total : w.remainCount + granted + holding = count
  granted_le : granted ≤ count

theorem WindowConserved.of_balanced {w : SemaphoreWindow} {count : ℤ} {granted holding : ℕ}
    (hcount : w.initCount = count) (h : w.Balanced (granted + holding)) :
    WindowConserved w count granted holding where
  initCount := hcount
  nonneg := h.nonneg
  total := by
    rw [add_assoc, ← hcount]
    exact h.total
  granted_le := by
    have := h.out_le
    omega

/-- **The best-path limiter conserves semaphores.** Whatever requests, refreshes and creations of
limiters do in whatever order, both windows of the account conserve their count; and a thread
between two calls holds nothing, so that with no call in progress every refused one has given back
what it took. -/
theorem semaphores_conserved {maxCapacity : ℤ} {args : LimiterArgs} {c}
    (hsecond : 0 ≤ args.secondSemaphoreCount) (hminute : 0 ≤ args.minuteSemaphoreCount)
    (hc : (orderLimiterBoss T maxCapacity).Reachable System.Unrestricted (bossStart T args)
      (fun _ => ()) c) :
    WindowConserved c.shared.data.accountLimiter.second args.secondSemaphoreCount
        c.shared.data.secondGranted c.shared.data.holding.card ∧
      WindowConserved c.shared.data.accountLimiter.minute args.minuteSemaphoreCount
        c.shared.data.minuteGranted c.shared.data.holding.card ∧
      (∀ t, c.thread t = .idle () → t ∉ c.shared.data.holding) ∧
      ((∀ t, c.thread t = .idle ()) →
        c.shared.data.accountLimiter.second.remainCount + c.shared.data.secondGranted =
            args.secondSemaphoreCount ∧
          c.shared.data.accountLimiter.minute.remainCount + c.shared.data.minuteGranted =
            args.minuteSemaphoreCount) := by
  let O := bossOutline T maxCapacity args
  have hinv : O.I.inv (bossStart T args) := by
    refine ⟨fun t ht => ?_, BossInv.init hsecond hminute⟩
    cases ht
  have hinit : ∀ t : T, O.atRest t () (bossStart T args) := fun t => Finset.notMem_empty t
  obtain ⟨-, hledger⟩ := O.inv hinv hinit hc
  have hrest : ∀ t, c.thread t = .idle () → t ∉ c.shared.data.holding :=
    fun t ht => O.idle hinv hinit hc ht
  have hs := WindowConserved.of_balanced hledger.secondCount hledger.second
  have hm := WindowConserved.of_balanced hledger.minuteCount hledger.minute
  refine ⟨hs, hm, hrest, fun hidle => ?_⟩
  have hnone : c.shared.data.holding.card = 0 := by
    rw [Finset.card_eq_zero]
    exact Finset.eq_empty_of_forall_notMem fun t => hrest t (hidle t)
  have hstotal := hs.total
  have hmtotal := hm.total
  rw [hnone] at hstotal hmtotal
  exact ⟨by simpa using hstotal, by simpa using hmtotal⟩

/-- Two requests overlap at an IP with a single semaphore: one is granted, and while the other one
holds a semaphore of the account, both windows account for all of theirs. -/
theorem semaphores_conserved_overlapping :
    ∃ c, c.shared.data.holding = {false} ∧
      WindowConserved c.shared.data.accountLimiter.second 2 1 1 ∧
      (orderLimiterBoss Bool 64).Reachable System.Unrestricted
        (bossStart Bool ⟨2, 10, 5, 1, 0, 0⟩) (fun _ => ()) c := by
  let moves : List (System.Move Bool fun _ => BossCall) := List.flatten
    [wholeCall true (.createIpLimiter "10.0.0.1" ⟨1, 10, 1, 1, 0, 0⟩) 7,
      [.start true (.getOrderSemaphore "10.0.0.1"), .start false (.getOrderSemaphore "10.0.0.1"),
        .act true, .act false, .act true, .act false, .act true, .act false],
      endCall true 2, goOn false 1]
  obtain ⟨c, hc, hholding, hgranted⟩ :
      ∃ c, (orderLimiterBoss Bool 64).Reachable System.Unrestricted
          (bossStart Bool ⟨2, 10, 5, 1, 0, 0⟩) (fun _ => ()) c ∧
        c.shared.data.holding = {false} ∧ c.shared.data.secondGranted = 1 :=
    ⟨_, System.reachable_of_schedule .refl moves rfl, rfl, rfl⟩
  have h := (semaphores_conserved (by decide) (by decide) hc).1
  rw [hholding, hgranted] at h
  exact ⟨c, hholding, h, hc⟩

end UmTaker.Trader
