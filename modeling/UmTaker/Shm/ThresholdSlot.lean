import UmTaker.Concurrency.Ghost
import UmTaker.Concurrency.Linearization
import UmTaker.Concurrency.Lock
import UmTaker.Concurrency.Transcript
import UmTaker.Shm.Agreement

/-!
# The threshold slots

One slot of a threshold segment. A writer looks at the stored time without the lock, and gives up if
it is newer than its own; otherwise it takes the lock, looks again, and writes. A reader copies the
record behind the lock. The calls of a slot, by any number of threads, are noted as they start and
end.

## Main definitions

* `ThresholdKind`: what the slots of early-run and beta thresholds have in common
* `writerUpdate`, `readerGet`: the programs of writer and reader
* `lockedUpdate`: a writer that always takes the lock
* `ThresholdKind.store`: what a writer makes of a slot it has for itself
* `Linearized`: what holds of a slot and the calls made on it

## Main results

* `thresholds_linearized`: writers that give up early cannot be told from those that always lock
-/

namespace UmTaker.Shm

open Concurrency Concurrency.System.Move

/-! ## The two kinds -/

/-- What the slots of the two kinds of thresholds have in common: their times and versions, what a
writer stores over the record of a slot, and what a reader copies. -/
structure ThresholdKind (R : Type) where
  timeMills : R → ℕ
  versionNumber : R → ℤ
  write : R → R → R
  copy : R → R
  timeMills_write : ∀ threshold stored, timeMills (write threshold stored) = timeMills threshold
  versionNumber_write : ∀ threshold stored,
    versionNumber (write threshold stored) = versionNumber stored + 1

/-- The early-run thresholds. -/
def earlyRunKind : ThresholdKind EarlyRunThresholdShm where
  timeMills := (·.timeMills)
  versionNumber := (·.versionNumber)
  write threshold stored :=
    { stored with
      avgMedian := threshold.avgMedian
      bidAskMedian := threshold.bidAskMedian
      askBidMedian := threshold.askBidMedian
      timeMills := threshold.timeMills
      versionNumber := stored.versionNumber + 1 }
  copy stored :=
    { asset := stored.asset
      avgMedian := stored.avgMedian
      bidAskMedian := stored.bidAskMedian
      askBidMedian := stored.askBidMedian
      versionNumber := stored.versionNumber
      timeMills := stored.timeMills }
  timeMills_write _ _ := rfl
  versionNumber_write _ _ := rfl

/-- The beta thresholds. -/
def betaKind : ThresholdKind BetaThresholdShm where
  timeMills := (·.timeMills)
  versionNumber := (·.versionNumber)
  write threshold stored :=
    { stored with
      sma := threshold.sma
      volatility := threshold.volatility
      volatilityMultiplier := threshold.volatilityMultiplier
      betaThreshold := threshold.betaThreshold
      bidSma := threshold.bidSma
      bidVolatility := threshold.bidVolatility
      bidVolatilityMultiplier := threshold.bidVolatilityMultiplier
      bidBetaThreshold := threshold.bidBetaThreshold
      askSma := threshold.askSma
      askVolatility := threshold.askVolatility
      askVolatilityMultiplier := threshold.askVolatilityMultiplier
      askBetaThreshold := threshold.askBetaThreshold
      timeMills := threshold.timeMills
      versionNumber := stored.versionNumber + 1 }
  copy stored :=
    { asset := stored.asset
      sma := stored.sma
      volatility := stored.volatility
      volatilityMultiplier := stored.volatilityMultiplier
      betaThreshold := stored.betaThreshold
      bidSma := stored.bidSma
      bidVolatility := stored.bidVolatility
      bidVolatilityMultiplier := stored.bidVolatilityMultiplier
      bidBetaThreshold := stored.bidBetaThreshold
      askSma := stored.askSma
      askVolatility := stored.askVolatility
      askVolatilityMultiplier := stored.askVolatilityMultiplier
      askBetaThreshold := stored.askBetaThreshold
      versionNumber := stored.versionNumber
      timeMills := stored.timeMills }
  timeMills_write _ _ := rfl
  versionNumber_write _ _ := rfl

/-! ## Operations -/

/-- A call on a slot. -/
inductive ThresholdCall (R : Type)
  | update (threshold : R)
  | get

/-- What a call returns. -/
inductive ThresholdResult (R : Type)
  | updated (updateResult : ℤ)
  | copied (sharedInstance : R)
  deriving DecidableEq

/-- A slot: the record in memory, and the history of the calls made on it. -/
structure ThresholdSlot (T R : Type) where
  record : R
  history : List (CallEvent T (ThresholdCall R) (ThresholdResult R))

/-- An atomic operation. The first two note the start and the end of a call. -/
inductive ThresholdOp (R : Type)
  | invoke (x : ThresholdCall R)
  | respond (r : ThresholdResult R)
  | readTimeMills
  | acquireLock
  | recheckAndWrite (threshold : R)
  | copyRecord
  | releaseLock

/-- The answer of an operation. -/
abbrev ThresholdAns {R : Type} : ThresholdOp R → Type
  | .readTimeMills => ℕ
  | .recheckAndWrite _ => ℤ
  | .copyRecord => R
  | _ => Unit

variable {T R : Type}

abbrev ThresholdProg (R : Type) := Prog (ThresholdOp R) ThresholdAns

namespace ThresholdKind

variable (K : ThresholdKind R)

/-- An operation carried out. `common_acquire_lock` spins until the lock is free. -/
def exec (t : T) : (o : ThresholdOp R) → Locked T (ThresholdSlot T R) →
    Option (Locked T (ThresholdSlot T R) × ThresholdAns o)
  | .invoke x, s =>
    some ({ s with data := { s.data with history := s.data.history ++ [.invoke t x] } }, ())
  | .respond r, s =>
    some ({ s with data := { s.data with history := s.data.history ++ [.respond t r] } }, ())
  | .readTimeMills, s => some (s, K.timeMills s.data.record)
  | .acquireLock, s =>
    match s.holder with
    | none => some ({ s with holder := some t }, ())
    | some _ => none
  | .recheckAndWrite threshold, s =>
    if K.timeMills s.data.record ≤ K.timeMills threshold then
      some ({ s with data := { s.data with record := K.write threshold s.data.record } }, 1)
    else some (s, 0)
  | .copyRecord, s => some (s, K.copy s.data.record)
  | .releaseLock, s => some ({ s with holder := none }, ())

/-! ## Programs -/

/-- `early_run_shm_writer_update` and `beta_shm_writer_update`. -/
def writerUpdate (threshold : R) : ThresholdProg R ℤ := do
  let histTimeMills ← Prog.call ThresholdOp.readTimeMills
  if histTimeMills ≤ K.timeMills threshold then do
    Prog.call ThresholdOp.acquireLock
    -- what was read may be old by now, so it is read again behind the lock
    let updateResult ← Prog.call (ThresholdOp.recheckAndWrite threshold)
    Prog.call ThresholdOp.releaseLock
    pure updateResult
  else
    pure 0

/-- `early_run_shm_reader_get` and `beta_shm_reader_get`. -/
def readerGet : ThresholdProg R R := do
  Prog.call ThresholdOp.acquireLock
  let sharedInstance ← Prog.call ThresholdOp.copyRecord
  Prog.call ThresholdOp.releaseLock
  pure sharedInstance

/-- An update that always takes the lock. -/
def lockedUpdate (threshold : R) : ThresholdProg R ℤ := do
  Prog.call ThresholdOp.acquireLock
  let updateResult ← Prog.call (ThresholdOp.recheckAndWrite threshold)
  Prog.call ThresholdOp.releaseLock
  pure updateResult

/-- The program of a call: `update` is the writer and `get` the reader. -/
def answer (update : R → ThresholdProg R ℤ) : ThresholdCall R → ThresholdProg R (ThresholdResult R)
  | .update threshold => do
    let updateResult ← update threshold
    pure (.updated updateResult)
  | .get => do
    let sharedInstance ← readerGet
    pure (.copied sharedInstance)

/-- Any number of threads make calls on one slot. -/
def system (T : Type) : System T (Locked T (ThresholdSlot T R)) (fun _ => Unit)
    (fun _ => ThresholdCall R) (ThresholdOp R) ThresholdAns where
  exec := K.exec
  body _ _ x := do
    Prog.call (ThresholdOp.invoke x)
    let r ← answer K.writerUpdate x
    Prog.call (ThresholdOp.respond r)

end ThresholdKind

/-- An initialised slot: the lock is free, and no call was made. -/
def initialisedSlot (T : Type) (first : R) : Locked T (ThresholdSlot T R) := ⟨⟨first, []⟩, none⟩

/-- `early_run_shm_writer_update`. -/
def earlyRunShmWriterUpdate : EarlyRunThresholdShm → ThresholdProg EarlyRunThresholdShm ℤ :=
  earlyRunKind.writerUpdate

/-- `early_run_shm_reader_get`. -/
def earlyRunShmReaderGet : ThresholdProg EarlyRunThresholdShm EarlyRunThresholdShm :=
  ThresholdKind.readerGet

/-- `beta_shm_writer_update`. -/
def betaShmWriterUpdate : BetaThresholdShm → ThresholdProg BetaThresholdShm ℤ :=
  betaKind.writerUpdate

/-- `beta_shm_reader_get`. -/
def betaShmReaderGet : ThresholdProg BetaThresholdShm BetaThresholdShm :=
  ThresholdKind.readerGet

/-! ## Writers that always take the lock -/

namespace ThresholdKind

variable (K : ThresholdKind R)

/-- A call with a writer that always takes the lock, made while no other is under way, leads from
one record of the slot to the other. -/
def AlwaysLocked (T : Type) (x : ThresholdCall R) (stored stored' : R) (r : ThresholdResult R) :
    Prop :=
  ∀ (t : T) history, (answer lockedUpdate x).alone (K.exec t) ⟨⟨stored, history⟩, none⟩ =
    some (⟨⟨stored', history⟩, none⟩, r)

variable {K} {stored stored' threshold : R}

theorem alwaysLocked_of_le (h : K.timeMills stored ≤ K.timeMills threshold) :
    K.AlwaysLocked T (.update threshold) stored (K.write threshold stored) (.updated 1) := by
  intro t history
  have hwrite : K.exec t (.recheckAndWrite threshold) ⟨⟨stored, history⟩, some t⟩ =
      some (⟨⟨K.write threshold stored, history⟩, some t⟩, 1) := if_pos h
  simp only [answer, lockedUpdate, Prog.call_bind, Prog.perform_bind, Prog.pure_eq_ret,
    Prog.ret_bind]
  rw [Prog.alone_perform rfl, Prog.alone_perform hwrite, Prog.alone_perform rfl, Prog.alone_ret]

theorem alwaysLocked_of_lt (h : K.timeMills threshold < K.timeMills stored) :
    K.AlwaysLocked T (.update threshold) stored stored (.updated 0) := by
  intro t history
  have hwrite : K.exec t (.recheckAndWrite threshold) ⟨⟨stored, history⟩, some t⟩ =
      some (⟨⟨stored, history⟩, some t⟩, 0) := if_neg (not_le.mpr h)
  simp only [answer, lockedUpdate, Prog.call_bind, Prog.perform_bind, Prog.pure_eq_ret,
    Prog.ret_bind]
  rw [Prog.alone_perform rfl, Prog.alone_perform hwrite, Prog.alone_perform rfl, Prog.alone_ret]

theorem alwaysLocked_get : K.AlwaysLocked T .get stored stored (.copied (K.copy stored)) := by
  intro t history
  simp only [answer, readerGet, Prog.call_bind, Prog.perform_bind, Prog.pure_eq_ret,
    Prog.ret_bind]
  rw [Prog.alone_perform rfl, Prog.alone_perform rfl, Prog.alone_perform rfl, Prog.alone_ret]

/-- The version counts the calls that returned one. -/
theorem AlwaysLocked.versionNumber [DecidableEq R] {x : ThresholdCall R} {r : ThresholdResult R}
    (h : K.AlwaysLocked T x stored stored' r) (t : T) :
    K.versionNumber stored' = K.versionNumber stored + if r = .updated 1 then 1 else 0 := by
  cases x with
  | update threshold =>
    by_cases hle : K.timeMills stored ≤ K.timeMills threshold
    · have heq := (h t []).symm.trans (alwaysLocked_of_le hle t [])
      cases heq
      rw [K.versionNumber_write, if_pos rfl]
    · have heq := (h t []).symm.trans (alwaysLocked_of_lt (not_le.mp hle) t [])
      cases heq
      simp
  | get =>
    have heq := (h t []).symm.trans (alwaysLocked_get t [])
    cases heq
    simp

theorem versionNumber_of_sequential [DecidableEq R] {first : R}
    {order : List (PlacedCall T (ThresholdCall R) (ThresholdResult R))}
    (h : Sequential (K.AlwaysLocked T) first order stored) :
    K.versionNumber stored =
      K.versionNumber first + (order.map (·.result)).count (.updated 1) := by
  induction h with
  | nil => simp
  | @snoc order s s' c _ hc ih =>
    rw [hc.versionNumber c.thread, ih, List.map_append, List.count_append, List.map_singleton,
      List.count_singleton]
    by_cases hr : c.result = .updated 1
    · simp [hr, add_assoc]
    · simp [hr]

/-- What a writer makes of a slot: a threshold older than the stored one is refused. -/
def store (K : ThresholdKind R) (threshold stored : R) : R :=
  if K.timeMills stored ≤ K.timeMills threshold then K.write threshold stored else stored

/-- It is what the writer's program does to a slot it has for itself. -/
theorem alwaysLocked_store (K : ThresholdKind R) (threshold stored : R) :
    K.AlwaysLocked T (.update threshold) stored (K.store threshold stored)
      (.updated (if K.timeMills stored ≤ K.timeMills threshold then 1 else 0)) := by
  unfold store
  split_ifs with h
  · exact alwaysLocked_of_le h
  · exact alwaysLocked_of_lt (not_le.mp h)

end ThresholdKind

/-! ## Linearizability -/

section Linearized

variable {K : ThresholdKind R} {first : R}

/-- The configurations of a slot. -/
abbrev SlotConfig (T R : Type) :=
  Config T (Locked T (ThresholdSlot T R)) (fun _ => Unit) (ThresholdOp R) ThresholdAns

/-- What holds of a slot and the calls made on it: there is a sequential order of the calls, with
the same results and the same record, in which the writers always take the lock; the stored time
never decreases from here on; and the version counts the calls that returned one. -/
structure Linearized [DecidableEq T] [DecidableEq R] (K : ThresholdKind R) (first : R)
    (c : SlotConfig T R) : Prop where
  linearization : ∃ order,
    Linearization (K.AlwaysLocked T) first c.shared.data.history order c.shared.data.record ∧
      K.versionNumber c.shared.data.record = (order.map (·.result)).count (.updated 1)
  versionNumber : (∀ t, c.thread t = .idle ()) →
    K.versionNumber c.shared.data.record =
      ((returns c.shared.data.history).map (·.2)).count (.updated 1)
  timeMills : ∀ c', Relation.ReflTransGen ((K.system T).Step System.Unrestricted) c c' →
    K.timeMills c.shared.data.record ≤ K.timeMills c'.shared.data.record

/-- No operation stores an older time. -/
theorem exec_timeMills {t : T} {o : ThresholdOp R} {s s' : Locked T (ThresholdSlot T R)}
    {a : ThresholdAns o} (h : K.exec t o s = some (s', a)) :
    K.timeMills s.data.record ≤ K.timeMills s'.data.record := by
  cases o with
  | recheckAndWrite threshold =>
    simp only [ThresholdKind.exec] at h
    split_ifs at h with hle
    · cases h
      rw [K.timeMills_write]
      exact hle
    · cases h
      exact le_rfl
  | acquireLock =>
    simp only [ThresholdKind.exec] at h
    split at h
    · cases h
      exact le_rfl
    · cases h
  | invoke x =>
    cases h
    exact le_rfl
  | respond r =>
    cases h
    exact le_rfl
  | readTimeMills =>
    cases h
    exact le_rfl
  | copyRecord =>
    cases h
    exact le_rfl
  | releaseLock =>
    cases h
    exact le_rfl

/-- **The stored time never decreases.** -/
theorem timeMills_le [DecidableEq T] {c c' : SlotConfig T R}
    (h : Relation.ReflTransGen ((K.system T).Step System.Unrestricted) c c') :
    K.timeMills c.shared.data.record ≤ K.timeMills c'.shared.data.record := by
  induction h with
  | refl => exact le_rfl
  | tail _ hstep ih =>
    apply ih.trans
    cases hstep with
    | start x ht => exact le_rfl
    | act ht ha he => exact exec_timeMills he
    | finish ht => exact le_rfl

/-! ### The ledger of a slot -/

variable [DecidableEq T]

/-- When the calls take place: a writer that finds a newer time without the lock is rejected there;
all others take place behind the lock. -/
def ledgerRecord (K : ThresholdKind R) (t : T) : (o : ThresholdOp R) →
    Locked T (ThresholdSlot T R) → ThresholdAns o →
    Ledger T (ThresholdCall R) (ThresholdResult R) →
    Ledger T (ThresholdCall R) (ThresholdResult R)
  | .invoke x, s, _, g => g.invoke t s.data.history.length x
  | .respond _, _, _, g => g.respond t
  | .readTimeMills, s, histTimeMills, g =>
    match g.progress t with
    | .invoked _ (.update threshold) =>
      if histTimeMills ≤ K.timeMills threshold then g
      else g.commit t s.data.history.length (.updated 0)
    | _ => g
  | .recheckAndWrite _, s, updateResult, g =>
    g.commit t s.data.history.length (.updated updateResult)
  | .copyRecord, s, sharedInstance, g =>
    g.commit t s.data.history.length (.copied sharedInstance)
  | .acquireLock, _, _, g => g
  | .releaseLock, _, _, g => g

variable [DecidableEq R]

/-- The ledger is kept, and no thread touches the progress of another. -/
def ledgerInterference (K : ThresholdKind R) (first : R) : Interference T
    (Locked T (ThresholdSlot T R) × Ledger T (ThresholdCall R) (ThresholdResult R)) where
  inv s := Kept (K.AlwaysLocked T) first s.1.data.history s.1.data.record s.2
  rely t s s' := s'.2.progress t = s.2.progress t
  refl _ _ := rfl
  trans _ _ _ _ h₁ h₂ := h₂.trans h₁

/-- What a thread knows of its own progress stays true. -/
theorem stable_progress {t : T}
    (P : Progress (ThresholdCall R) (ThresholdResult R) → Prop) :
    (ledgerInterference K first).Stable t fun s => P (s.2.progress t) := by
  intro s s' _ _ hrely h
  rw [show s'.2.progress t = s.2.progress t from hrely]
  exact h

/-- The triples of a thread that calls on the slot, with the ledger beside. -/
abbrev CallTriple {α : Type} (K : ThresholdKind R) (first : R) (t : T)
    (P : Progress (ThresholdCall R) (ThresholdResult R) → Prop) (p : ThresholdProg R α)
    (Q : α → Progress (ThresholdCall R) (ThresholdResult R) → Prop) : Prop :=
  Triple ((K.system T).withGhost (ledgerRecord K)) System.Unrestricted
    (ledgerInterference K first) t (fun s => P (s.2.progress t)) p
    fun a s => Q a (s.2.progress t)

section Triples

variable {t : T}

/-- The call was started and has not taken place. -/
def Open (x : ThresholdCall R) (progress : Progress (ThresholdCall R) (ThresholdResult R)) :
    Prop :=
  ∃ i, progress = .invoked i x

/-- The call took place with this result. -/
def Done (r : ThresholdResult R) (progress : Progress (ThresholdCall R) (ThresholdResult R)) :
    Prop :=
  ∃ i, progress = .committed i r

/-- One operation, by what it does to the ledger. -/
theorem callTriple_call {o : ThresholdOp R}
    {P : Progress (ThresholdCall R) (ThresholdResult R) → Prop}
    {Q : ThresholdAns o → Progress (ThresholdCall R) (ThresholdResult R) → Prop}
    (h : ∀ (s s' : Locked T (ThresholdSlot T R))
      (g : Ledger T (ThresholdCall R) (ThresholdResult R)) (a : ThresholdAns o),
      Kept (K.AlwaysLocked T) first s.data.history s.data.record g → P (g.progress t) →
      K.exec t o s = some (s', a) →
      Kept (K.AlwaysLocked T) first s'.data.history s'.data.record (ledgerRecord K t o s a g) ∧
        (∀ u, u ≠ t → (ledgerRecord K t o s a g).progress u = g.progress u) ∧
        Q a ((ledgerRecord K t o s a g).progress t)) :
    CallTriple K first t P (Prog.call o) Q := by
  apply Triple.call_withGhost (stable_progress P)
  intro s g s' a hinv hP _ he
  obtain ⟨hkept, hothers, hQ⟩ := h s s' g a hinv hP he
  exact ⟨⟨hkept, hothers⟩, hQ⟩

theorem callTriple_invoke (x : ThresholdCall R) :
    CallTriple K first t (· = .idle) (Prog.call (.invoke x)) fun _ => Open x := by
  apply callTriple_call
  rintro s s' g _ hkept hidle ⟨⟩
  refine ⟨hkept.invoke hidle x, fun u hu => Ledger.invoke_progress_of_ne hu, ?_⟩
  exact ⟨_, Ledger.invoke_progress_self⟩

theorem callTriple_respond (r : ThresholdResult R) :
    CallTriple K first t (Done r) (Prog.call (.respond r)) fun _ => (· = .idle) := by
  apply callTriple_call
  rintro s s' g _ hkept ⟨i, hdone⟩ ⟨⟩
  exact ⟨hkept.respond hdone, fun u hu => Ledger.respond_progress_of_ne hu,
    Ledger.respond_progress_self⟩

theorem callTriple_acquireLock
    (P : Progress (ThresholdCall R) (ThresholdResult R) → Prop) :
    CallTriple K first t P (Prog.call .acquireLock) fun _ => P := by
  apply callTriple_call
  intro s s' g _ hkept hP he
  simp only [ThresholdKind.exec] at he
  split at he
  · cases he
    exact ⟨hkept, fun _ _ => rfl, hP⟩
  · cases he

theorem callTriple_releaseLock
    (P : Progress (ThresholdCall R) (ThresholdResult R) → Prop) :
    CallTriple K first t P (Prog.call .releaseLock) fun _ => P := by
  apply callTriple_call
  rintro s s' g _ hkept hP ⟨⟩
  exact ⟨hkept, fun _ _ => rfl, hP⟩

/-- **The look without the lock**: a writer that finds a newer time is rejected at once, as it would
be with the lock. -/
theorem callTriple_readTimeMills (threshold : R) :
    CallTriple K first t (Open (.update threshold)) (Prog.call .readTimeMills)
      fun histTimeMills progress =>
        if (histTimeMills : ℕ) ≤ K.timeMills threshold then Open (.update threshold) progress
        else Done (.updated 0) progress := by
  apply callTriple_call
  rintro s s' g _ hkept ⟨i, hopen⟩ ⟨⟩
  by_cases hle : K.timeMills s.data.record ≤ K.timeMills threshold
  · have hrecord : ledgerRecord K t .readTimeMills s (K.timeMills s.data.record) g = g := by
      simp only [ledgerRecord, hopen, if_pos hle]
    rw [hrecord]
    refine ⟨hkept, fun _ _ => rfl, ?_⟩
    rw [if_pos hle]
    exact ⟨i, hopen⟩
  · have hrecord : ledgerRecord K t .readTimeMills s (K.timeMills s.data.record) g =
        g.commit t s.data.history.length (.updated 0) := by
      simp only [ledgerRecord, hopen, if_neg hle]
    rw [hrecord]
    refine ⟨hkept.commit hopen (ThresholdKind.alwaysLocked_of_lt (not_le.mp hle)),
      fun u hu => Ledger.commit_progress_of_ne hu, ?_⟩
    rw [if_neg hle]
    exact ⟨i, Ledger.commit_progress_self hopen⟩

/-- The look behind the lock, and the write. -/
theorem callTriple_recheckAndWrite (threshold : R) :
    CallTriple K first t (Open (.update threshold)) (Prog.call (.recheckAndWrite threshold))
      fun updateResult => Done (.updated updateResult) := by
  apply callTriple_call
  rintro s s' g updateResult hkept ⟨i, hopen⟩ he
  have hspec : K.AlwaysLocked T (.update threshold) s.data.record s'.data.record
      (.updated updateResult) ∧ s'.data.history = s.data.history := by
    simp only [ThresholdKind.exec] at he
    split_ifs at he with hle
    · cases he
      exact ⟨ThresholdKind.alwaysLocked_of_le hle, rfl⟩
    · cases he
      exact ⟨ThresholdKind.alwaysLocked_of_lt (not_le.mp hle), rfl⟩
  refine ⟨?_, fun u hu => Ledger.commit_progress_of_ne hu, i, Ledger.commit_progress_self hopen⟩
  rw [hspec.2]
  exact hkept.commit hopen hspec.1

theorem callTriple_copyRecord :
    CallTriple K first t (Open .get) (Prog.call .copyRecord)
      fun sharedInstance => Done (.copied sharedInstance) := by
  apply callTriple_call
  rintro s s' g _ hkept ⟨i, hopen⟩ ⟨⟩
  exact ⟨hkept.commit hopen ThresholdKind.alwaysLocked_get,
    fun u hu => Ledger.commit_progress_of_ne hu, i, Ledger.commit_progress_self hopen⟩

/-- **The writer**: its call takes place with the result it returns. -/
theorem callTriple_writerUpdate (threshold : R) :
    CallTriple K first t (Open (.update threshold)) (K.writerUpdate threshold)
      fun updateResult => Done (.updated updateResult) := by
  refine Triple.bind (callTriple_readTimeMills threshold) fun histTimeMills => ?_
  refine Triple.ite (fun hle => ?_) fun hlt => ?_
  · refine Triple.weaken (P := fun s => Open (.update threshold) (s.2.progress t)) ?_
      (fun s _ hs => ?_) fun _ _ _ hs => hs
    · refine Triple.bind (callTriple_acquireLock _) fun _ => ?_
      refine Triple.bind (callTriple_recheckAndWrite threshold) fun updateResult => ?_
      refine Triple.bind (callTriple_releaseLock _) fun _ => ?_
      exact Triple.ret fun _ _ hs => hs
    · simp only [if_pos hle] at hs
      exact hs
  · refine Triple.ret fun s _ hs => ?_
    simp only [if_neg hlt] at hs
    exact hs

/-- **The reader**: its call takes place with the copy it returns. -/
theorem callTriple_readerGet :
    CallTriple K first t (Open .get) ThresholdKind.readerGet
      fun sharedInstance => Done (.copied sharedInstance) := by
  refine Triple.bind (callTriple_acquireLock _) fun _ => ?_
  refine Triple.bind callTriple_copyRecord fun sharedInstance => ?_
  refine Triple.bind (callTriple_releaseLock _) fun _ => ?_
  exact Triple.ret fun _ _ hs => hs

theorem callTriple_answer (x : ThresholdCall R) :
    CallTriple K first t (Open x) (ThresholdKind.answer K.writerUpdate x) Done := by
  cases x with
  | update threshold =>
    exact Triple.bind (callTriple_writerUpdate threshold) fun _ => Triple.ret fun _ _ hs => hs
  | get => exact Triple.bind callTriple_readerGet fun _ => Triple.ret fun _ _ hs => hs

end Triples

/-- The outline of a slot: an idle thread has no open call. -/
def slotOutline (K : ThresholdKind R) (first : R) :
    Outline ((K.system T).withGhost (ledgerRecord K)) System.Unrestricted where
  I := ledgerInterference K first
  atRest t _ s := s.2.progress t = .idle
  stable t _ := stable_progress (· = .idle)
  body t _ x := by
    refine Triple.bind (callTriple_invoke x) fun _ => ?_
    refine Triple.bind (callTriple_answer x) fun r => ?_
    exact callTriple_respond r

/-- Every reachable configuration of a slot is linearized. -/
theorem linearized (hfirst : K.versionNumber first = 0) {c : SlotConfig T R}
    (hc : (K.system T).Reachable System.Unrestricted (initialisedSlot T first) (fun _ => ()) c) :
    Linearized K first c := by
  obtain ⟨g, hg⟩ : ∃ g, ((K.system T).withGhost (ledgerRecord K)).Reachable System.Unrestricted
      (initialisedSlot T first, .empty) (fun _ => ()) (c.withRecord g) :=
    System.exists_ghost _ hc
  have hstart : (slotOutline K first).I.inv (initialisedSlot T first, .empty) := kept_empty
  have hidle : ∀ t : T, (slotOutline K first).atRest t () (initialisedSlot T first, .empty) :=
    fun _ => rfl
  have hkept : Kept (K.AlwaysLocked T) first c.shared.data.history c.shared.data.record g :=
    (slotOutline K first).inv hstart hidle hg
  have hversion : K.versionNumber c.shared.data.record =
      (g.order.map (·.result)).count (.updated 1) := by
    rw [ThresholdKind.versionNumber_of_sequential hkept.linearization.sequential, hfirst,
      zero_add]
  refine ⟨⟨g.order, hkept.linearization, hversion⟩, fun hc => ?_, fun c' => timeMills_le⟩
  have hperm := hkept.perm_returns fun t =>
    (slotOutline K first).idle hstart hidle hg (hc t)
  rw [hversion, ← (hperm.map Prod.snd).count_eq, List.map_map]
  rfl

end Linearized

/-- **The look without the lock is sound**: for any interleaving of updates and readers on a slot of
either kind there is a sequential order of the calls, each placed between its start and its end, in
which writers that always take the lock return the same and leave the same record, and readers copy
the same. -/
theorem thresholds_linearized [DecidableEq T] (asset : String) :
    (∀ c, (earlyRunKind.system T).Reachable System.Unrestricted
        (initialisedSlot T (earlyRunShmWriterInit asset)) (fun _ => ()) c →
      Linearized earlyRunKind (earlyRunShmWriterInit asset) c) ∧
    (∀ c, (betaKind.system T).Reachable System.Unrestricted
        (initialisedSlot T (betaShmWriterInit asset)) (fun _ => ()) c →
      Linearized betaKind (betaShmWriterInit asset) c) :=
  ⟨fun _ hc => linearized rfl hc, fun _ hc => linearized rfl hc⟩

/-- A writer of time 5 that found no newer time without the lock, and is overtaken by one of time 7,
and one of time 3 that is rejected at once. -/
def overtakenMoves :
    List (System.Move Bool (fun _ => ThresholdCall EarlyRunThresholdShm)) :=
  List.flatten
    [beginCall false (.update { timeMills := 5 }) 2,
      wholeCall true (.update { timeMills := 7 }) 6,
      endCall false 4,
      wholeCall true (.update { timeMills := 3 }) 3]

theorem linearized_overtaken :
    ∃ c : SlotConfig Bool EarlyRunThresholdShm,
      Linearized earlyRunKind (earlyRunShmWriterInit "BTC") c ∧
        c.shared.data.record.timeMills = 7 ∧ c.shared.data.record.versionNumber = 1 ∧
        (returns c.shared.data.history).map (·.2) = [.updated 1, .updated 0, .updated 0] := by
  obtain ⟨c, hc, hrecord⟩ : ∃ c : SlotConfig Bool EarlyRunThresholdShm,
      (earlyRunKind.system Bool).Reachable System.Unrestricted
        (initialisedSlot Bool (earlyRunShmWriterInit "BTC")) (fun _ => ()) c ∧
      (c.shared.data.record.timeMills = 7 ∧ c.shared.data.record.versionNumber = 1 ∧
        (returns c.shared.data.history).map (·.2) = [.updated 1, .updated 0, .updated 0]) :=
    System.exists_of_schedule overtakenMoves (by decide +kernel)
  exact ⟨c, (thresholds_linearized "BTC").1 c hc, hrecord⟩

end UmTaker.Shm
