import UmTaker.Common.AutoResetCounterBoss
import UmTaker.General.Run
import Mathlib.Data.List.Nodup

/-!
# The order interval

Each symbol has a counter of its own. A fill takes a token from the counter of its symbol, and the
trader places orders only for symbols whose counter has a token left; the counters are refilled by
the refresh thread of their boss, each when a cycle has passed since it was refilled last.

## Main definitions

* `AutoResetOrderIntervalBoss`, with `init`, `start`, `hasMoreSemaphore`, `burnSemaphore`
* `IntervalEvent`, `IntervalRun`: runs of fills and refreshes, with the fills that took a token
* `Paused`: no order is placed for a symbol within the interval after a fill
* `RefillsLate`: a counter is refilled only after the intervals of its fills

## Main results

* `paused_iff_refillsLate`: fills pause their symbols exactly when all refills come late
* `refilled_iff`: when every symbol becomes tradable again
-/

namespace UmTaker.Trader

/-- `AutoResetOrderIntervalBoss`: the map refers to the counter of a symbol by its place. -/
structure AutoResetOrderIntervalBoss where
  isStarted : Bool
  intervalBoss : AutoResetCounterBoss
  intervalMap : StringMap ℕ
  counters : Counters

/-- What the memory of the members holds that no constructor initialises: the flag of the boss, and
the members of the inner boss that `init` creates. -/
structure IntervalMemory where
  isStarted : Bool
  innerMaxCapacity : ℤ
  innerRefreshDurationMillis : ℕ
  innerIsStarted : Bool

/-- A listed symbol, with the id and the clock reading of the counter created for it. -/
structure IntervalSymbol where
  symbol : String
  counterId : String
  now : ℕ

namespace AutoResetOrderIntervalBoss

/-- One symbol of the loop in `init`. -/
def createInterval (orderLimitCount : ℤ) (orderIntervalMillis : ℕ)
    (boss : AutoResetOrderIntervalBoss) (symbol : IntervalSymbol) : AutoResetOrderIntervalBoss :=
  let r := boss.intervalBoss.createNewCounter boss.counters orderLimitCount orderIntervalMillis
    symbol.counterId symbol.now
  { boss with
    intervalBoss := r.2.1
    counters := r.2.2
    intervalMap :=
      match r.1 with
      | some ref => boss.intervalMap.insert symbol.symbol ref
      | none => boss.intervalMap }

/-- A boss just constructed, with the inner boss that `init` creates: it has room for `capacity`
counters, and is refreshed every millisecond. -/
def ofMemory (memory : IntervalMemory) (capacity : ℤ) : AutoResetOrderIntervalBoss where
  isStarted := memory.isStarted
  intervalBoss := (AutoResetCounterBoss.ofMemory memory.innerMaxCapacity
    memory.innerRefreshDurationMillis memory.innerIsStarted).init capacity 1
  intervalMap := .empty
  counters := []

/-- `init` of a boss just constructed. -/
def init (memory : IntervalMemory) (symbols : List IntervalSymbol) (orderLimitCount : ℤ)
    (orderIntervalMillis : ℕ) : AutoResetOrderIntervalBoss :=
  symbols.foldl (createInterval orderLimitCount orderIntervalMillis)
    (ofMemory memory (int32 symbols.length))

/-- `start`. -/
def start (boss : AutoResetOrderIntervalBoss) : AutoResetOrderIntervalBoss :=
  if boss.isStarted then boss
  else { boss with intervalBoss := boss.intervalBoss.start, isStarted := true }

/-- `has_more_semaphore`. -/
def hasMoreSemaphore (boss : AutoResetOrderIntervalBoss) (symbol : String) : Bool :=
  match boss.intervalMap symbol with
  | some ref => boss.counters[ref]?.any fun counter => decide (0 < counter.remainCount)
  | none => false

/-- `burn_semaphore`. -/
def burnSemaphore (boss : AutoResetOrderIntervalBoss) (symbol : String) :
    Bool × AutoResetOrderIntervalBoss :=
  match boss.intervalMap symbol with
  | some ref =>
    (boss.counters[ref]?.any fun counter => (AutoResetCounter.getSemaphore counter 1).1,
      { boss with
        counters := boss.counters.modify ref fun counter =>
          (AutoResetCounter.getSemaphore counter 1).2 })
  | none => (false, boss)

end AutoResetOrderIntervalBoss

/-! ## Runs -/

/-- What happens to the boss: a fill is reported, or the refresh thread comes to a counter. -/
inductive IntervalCall
  | burnSemaphore (symbol : String)
  | refreshCounter (counterId : String)
  deriving DecidableEq

/-- A call and its time. -/
structure IntervalEvent where
  time : ℕ
  call : IntervalCall
  deriving DecidableEq

/-- A fill that took a token. -/
structure Fill where
  symbol : String
  time : ℕ
  deriving DecidableEq

/-- The boss, the fills that took a token, and the time of the latest event. -/
structure IntervalRun where
  boss : AutoResetOrderIntervalBoss
  fills : List Fill
  now : ℕ

namespace IntervalRun

/-- The boss after `init` and `start`. -/
def start (memory : IntervalMemory) (symbols : List IntervalSymbol) (orderLimitCount : ℤ)
    (orderIntervalMillis : ℕ) : IntervalRun where
  boss := (AutoResetOrderIntervalBoss.init memory symbols orderLimitCount
    orderIntervalMillis).start
  fills := []
  now := 0

/-- One event. The refresh thread comes to a counter only while it runs. -/
def step (s : IntervalRun) (e : IntervalEvent) : IntervalRun :=
  match e.call with
  | .burnSemaphore symbol =>
    let r := s.boss.burnSemaphore symbol
    { boss := r.2
      fills := if r.1 then s.fills ++ [⟨symbol, e.time⟩] else s.fills
      now := e.time }
  | .refreshCounter counterId =>
    { s with
      boss :=
        if s.boss.intervalBoss.refreshLoopRuns then
          { s.boss with
            counters :=
              s.boss.intervalBoss.refreshCounter s.boss.counters counterId e.time }
        else s.boss
      now := e.time }

end IntervalRun

/-- The gate of `scan_and_send_order`: orders are placed, and the symbol is not paused. -/
def mayPlaceOrder (openPlaceOrder : Bool) (boss : AutoResetOrderIntervalBoss) (symbol : String) :
    Bool :=
  openPlaceOrder && boss.hasMoreSemaphore symbol

/-- Within the interval after a fill its symbol has no token, so no order is placed for it. -/
def Paused (orderIntervalMillis : ℕ) (s : IntervalRun) : Prop :=
  ∀ f ∈ s.fills, s.now < f.time + orderIntervalMillis →
    s.boss.hasMoreSemaphore f.symbol = false ∧
      ∀ openPlaceOrder, mayPlaceOrder openPlaceOrder s.boss f.symbol = false

/-- A refresh that finds the cycle of a counter ended comes after the intervals of the fills of its
symbol. -/
def RefillsLate (orderIntervalMillis : ℕ) (s : IntervalRun) (e : IntervalEvent) : Prop :=
  ∀ counterId ref counter, e.call = .refreshCounter counterId →
    s.boss.intervalBoss.refreshLoopRuns = true →
    s.boss.intervalBoss.counterMap.lookup counterId = some ref →
    s.boss.counters[ref]? = some counter → counter.cycleEnded e.time = true →
    ∀ f ∈ s.fills, s.boss.intervalMap f.symbol = some ref →
      f.time + orderIntervalMillis ≤ e.time

/-- Times do not go back. -/
def InTime (s : IntervalRun) (e : IntervalEvent) : Prop := s.now ≤ e.time

/-! ## Counts -/

/-- A counter within its count. -/
structure InCount (n : ℤ) (D : ℕ) (counter : AutoResetCounter) : Prop where
  initCount : counter.initCount = n
  duration : counter.resetDurationMillis = D
  nonneg : 0 ≤ counter.remainCount
  le : counter.remainCount ≤ n

section Counts

variable {n : ℤ} {D : ℕ} {counter : AutoResetCounter}

theorem inCount_init (hn : 0 ≤ n) (now : ℕ) : InCount n D (.init n D now) :=
  ⟨rfl, rfl, hn, le_rfl⟩

theorem InCount.getSemaphore (h : InCount n D counter) :
    InCount n D (AutoResetCounter.getSemaphore counter 1).2 := by
  unfold AutoResetCounter.getSemaphore
  split_ifs with hle
  · refine ⟨h.initCount, h.duration, ?_, ?_⟩
    · show 0 ≤ counter.remainCount - 1
      omega
    · show counter.remainCount - 1 ≤ n
      have := h.le
      omega
  · exact h

theorem InCount.resetIfCycleEnd (h : InCount n D counter) (now : ℕ) :
    InCount n D (counter.resetIfCycleEnd now) := by
  unfold SemaphoreWindow.resetIfCycleEnd
  split_ifs
  · exact ⟨h.initCount, h.duration, (h.nonneg.trans h.le).trans_eq h.initCount.symm,
      h.initCount.le⟩
  · exact h

/-- The counters of a run are within their count. -/
def Sound (n : ℤ) (D : ℕ) (counters : Counters) : Prop :=
  ∀ (ref : ℕ) (counter : AutoResetCounter), counters[ref]? = some counter → InCount n D counter

end Counts

/-! ## One event -/

section Step

variable {n : ℤ} {D : ℕ} {s : IntervalRun} {e : IntervalEvent}

@[simp] theorem step_now : (s.step e).now = e.time := by
  obtain ⟨time, symbol | counterId⟩ := e
  · rfl
  · rfl

/-- An event leaves both maps and the refresh thread as they are. -/
theorem step_maps : (s.step e).boss.intervalMap = s.boss.intervalMap ∧
    (s.step e).boss.intervalBoss = s.boss.intervalBoss := by
  obtain ⟨time, symbol | counterId⟩ := e
  · simp only [IntervalRun.step, AutoResetOrderIntervalBoss.burnSemaphore]
    split <;> exact ⟨rfl, rfl⟩
  · simp only [IntervalRun.step]
    split_ifs <;> exact ⟨rfl, rfl⟩

/-- A fill takes a token from the counter of its symbol. -/
theorem step_burnSemaphore_counters (time : ℕ) (symbol : String) (ref : ℕ) :
    (s.step ⟨time, .burnSemaphore symbol⟩).boss.counters[ref]? =
      if s.boss.intervalMap symbol = some ref then
        s.boss.counters[ref]?.map fun counter => (AutoResetCounter.getSemaphore counter 1).2
      else s.boss.counters[ref]? := by
  simp only [IntervalRun.step, AutoResetOrderIntervalBoss.burnSemaphore]
  cases hsymbol : s.boss.intervalMap symbol with
  | none => simp
  | some other =>
    rw [List.getElem?_modify]
    by_cases h : other = ref
    · simp [h]
    · simp [h]

/-- A refresh resets the counter of its id, while the refresh thread runs. -/
theorem step_refreshCounter_counters (time : ℕ) (counterId : String) (ref : ℕ) :
    (s.step ⟨time, .refreshCounter counterId⟩).boss.counters[ref]? =
      if s.boss.intervalBoss.refreshLoopRuns = true ∧
          s.boss.intervalBoss.counterMap.lookup counterId = some ref then
        s.boss.counters[ref]?.map (·.resetIfCycleEnd time)
      else s.boss.counters[ref]? := by
  by_cases hruns : s.boss.intervalBoss.refreshLoopRuns = true
  · simp only [IntervalRun.step, hruns, if_true, true_and]
    exact AutoResetCounterBoss.refreshCounter_getElem? counterId
  · simp [IntervalRun.step, hruns]

/-- **Every event keeps the counters sound.** -/
theorem Sound.step (h : Sound n D s.boss.counters) : Sound n D (s.step e).boss.counters := by
  obtain ⟨time, symbol | counterId⟩ := e
  · intro ref counter hcounter
    rw [step_burnSemaphore_counters] at hcounter
    split_ifs at hcounter
    · obtain ⟨before, hbefore, rfl⟩ := Option.map_eq_some_iff.mp hcounter
      exact (h ref before hbefore).getSemaphore
    · exact h ref counter hcounter
  · intro ref counter hcounter
    rw [step_refreshCounter_counters] at hcounter
    split_ifs at hcounter
    · obtain ⟨before, hbefore, rfl⟩ := Option.map_eq_some_iff.mp hcounter
      exact (h ref before hbefore).resetIfCycleEnd time
    · exact h ref counter hcounter

/-- A symbol has no token exactly when its counter, if it has one, has none left. -/
theorem hasMoreSemaphore_eq_false {boss : AutoResetOrderIntervalBoss} {symbol : String} :
    boss.hasMoreSemaphore symbol = false ↔
      ∀ (ref : ℕ) (counter : AutoResetCounter), boss.intervalMap symbol = some ref →
        boss.counters[ref]? = some counter → counter.remainCount ≤ 0 := by
  unfold AutoResetOrderIntervalBoss.hasMoreSemaphore
  cases hsymbol : boss.intervalMap symbol with
  | none => simp
  | some ref =>
    cases hcounter : boss.counters[ref]? with
    | none =>
      simp only [hcounter, Option.any_none, true_iff]
      rintro _ counter ⟨⟩ h
      rw [hcounter] at h
      cases h
    | some counter =>
      simp only [hcounter, Option.any_some, decide_eq_false_iff_not, not_lt]
      constructor
      · rintro hle _ _ ⟨⟩ h
        rw [hcounter] at h
        obtain rfl := Option.some.inj h
        exact hle
      · exact fun h => h ref counter rfl hcounter

/-- What it takes for the symbols of all fills to be paused. -/
theorem paused_iff : Paused D s ↔
    ∀ f ∈ s.fills, s.now < f.time + D → s.boss.hasMoreSemaphore f.symbol = false := by
  constructor
  · exact fun h f hf hnow => (h f hf hnow).1
  · intro h f hf hnow
    refine ⟨h f hf hnow, fun openPlaceOrder => ?_⟩
    rw [mayPlaceOrder, h f hf hnow, Bool.and_false]

/-- A fill takes a token when the counter of its symbol has one. -/
theorem burnSemaphore_fst_eq_true {boss : AutoResetOrderIntervalBoss} {symbol : String} :
    (boss.burnSemaphore symbol).1 = true ↔ ∃ (ref : ℕ) (counter : AutoResetCounter),
      boss.intervalMap symbol = some ref ∧ boss.counters[ref]? = some counter ∧
        1 ≤ counter.remainCount := by
  unfold AutoResetOrderIntervalBoss.burnSemaphore
  cases hsymbol : boss.intervalMap symbol with
  | none => simp
  | some ref =>
    have htoken : ∀ counter : AutoResetCounter,
        (AutoResetCounter.getSemaphore counter 1).1 = true ↔ 1 ≤ counter.remainCount := by
      intro counter
      unfold AutoResetCounter.getSemaphore
      split_ifs with hle
      · simp [hle]
      · simp [hle]
    simp only [Option.any_eq_true, htoken, Option.some.injEq, exists_and_left, exists_eq_left']

/-- Only a fill that takes a token is recorded. -/
theorem mem_fills_burnSemaphore {time : ℕ} {symbol : String} {f : Fill}
    (hf : f ∈ (s.step ⟨time, .burnSemaphore symbol⟩).fills) :
    f ∈ s.fills ∨ f.symbol = symbol ∧ (s.boss.burnSemaphore symbol).1 = true := by
  have hfills : (s.step ⟨time, .burnSemaphore symbol⟩).fills =
      if (s.boss.burnSemaphore symbol).1 then s.fills ++ [⟨symbol, time⟩] else s.fills := rfl
  rw [hfills] at hf
  split_ifs at hf with htook
  · rcases List.mem_append.mp hf with hf | hf
    · exact Or.inl hf
    · obtain rfl := List.mem_singleton.mp hf
      exact Or.inr ⟨rfl, htook⟩
  · exact Or.inl hf

/-- A fill keeps the symbols paused, and pauses its own: of one token none is left. -/
theorem Paused.burnSemaphore {time : ℕ} {symbol : String} (hsound : Sound 1 D s.boss.counters)
    (htime : s.now ≤ time) (h : Paused D s) :
    Paused D (s.step ⟨time, .burnSemaphore symbol⟩) := by
  rw [paused_iff] at h ⊢
  intro f hf hnow
  rw [step_now] at hnow
  rw [hasMoreSemaphore_eq_false, step_maps.1]
  intro ref counter hsymbol hcounter
  rw [step_burnSemaphore_counters] at hcounter
  rcases mem_fills_burnSemaphore hf with hf | ⟨rfl, htook⟩
  · have hempty := hasMoreSemaphore_eq_false.mp (h f hf (htime.trans_lt hnow)) ref
    split_ifs at hcounter
    · obtain ⟨before, hbefore, rfl⟩ := Option.map_eq_some_iff.mp hcounter
      have hle := hempty before hsymbol hbefore
      have hrefused : ¬ (1 : ℤ) ≤ before.remainCount := by omega
      simpa [AutoResetCounter.getSemaphore, hrefused] using hle
    · exact hempty counter hsymbol hcounter
  · rw [if_pos hsymbol] at hcounter
    obtain ⟨before, hbefore, rfl⟩ := Option.map_eq_some_iff.mp hcounter
    obtain ⟨ref', taken, hsymbol', htaken, htoken⟩ := burnSemaphore_fst_eq_true.mp htook
    obtain rfl := Option.some.inj (hsymbol.symm.trans hsymbol')
    obtain rfl := Option.some.inj (hbefore.symm.trans htaken)
    have hle := (hsound ref before hbefore).le
    rw [AutoResetCounter.getSemaphore, if_pos htoken]
    show before.remainCount - 1 ≤ 0
    omega

/-- A refresh keeps the symbols paused exactly when it does not come early. -/
theorem paused_refreshCounter_iff {time : ℕ} {counterId : String}
    (hsound : Sound 1 D s.boss.counters) (htime : s.now ≤ time) (h : Paused D s) :
    Paused D (s.step ⟨time, .refreshCounter counterId⟩) ↔
      RefillsLate D s ⟨time, .refreshCounter counterId⟩ := by
  rw [paused_iff] at h ⊢
  have hfills : (s.step ⟨time, .refreshCounter counterId⟩).fills = s.fills := rfl
  rw [hfills, step_now]
  constructor
  · rintro hpaused _ ref counter ⟨⟩ hruns hlookup hcounter hended f hf hsymbol
    by_contra hearly
    have hempty := hasMoreSemaphore_eq_false.mp (hpaused f hf (not_le.mp hearly)) ref
      (counter.resetIfCycleEnd time) (by rw [step_maps.1, hsymbol]) (by
        rw [step_refreshCounter_counters, if_pos ⟨hruns, hlookup⟩, hcounter, Option.map_some])
    rw [SemaphoreWindow.resetIfCycleEnd, if_pos hended] at hempty
    have hinit := (hsound ref counter hcounter).initCount
    have hle : counter.initCount ≤ 0 := hempty
    omega
  · intro hlate f hf hnow
    have hempty := hasMoreSemaphore_eq_false.mp (h f hf (htime.trans_lt hnow))
    rw [hasMoreSemaphore_eq_false, step_maps.1]
    intro ref counter hsymbol hcounter
    rw [step_refreshCounter_counters] at hcounter
    split_ifs at hcounter with hrefreshed
    · obtain ⟨before, hbefore, rfl⟩ := Option.map_eq_some_iff.mp hcounter
      have hnotEnded : ¬ before.cycleEnded time = true := by
        intro hended
        have hafter : f.time + D ≤ time :=
          hlate counterId ref before rfl hrefreshed.1 hrefreshed.2 hbefore hended f hf hsymbol
        exact absurd hafter (not_le.mpr hnow)
      rw [SemaphoreWindow.resetIfCycleEnd, if_neg hnotEnded]
      exact hempty ref before hsymbol hbefore
    · exact hempty ref counter hsymbol hcounter

/-- **One event** keeps the symbols paused exactly when it does not refill early. -/
theorem paused_step_iff (hsound : Sound 1 D s.boss.counters) (htime : InTime s e)
    (h : Paused D s) : Paused D (s.step e) ↔ RefillsLate D s e := by
  obtain ⟨time, symbol | counterId⟩ := e
  · apply iff_of_true (h.burnSemaphore hsound htime)
    rintro _ _ _ ⟨⟩
  · exact paused_refreshCounter_iff hsound htime h

end Step

/-! ## The pause after a fill -/

section Pause

variable {n : ℤ} {D : ℕ}

/-- A symbol gets a counter while there is room. -/
theorem createInterval_cases (n : ℤ) (D : ℕ) (boss : AutoResetOrderIntervalBoss)
    (x : IntervalSymbol) :
    (boss.intervalBoss.maxCapacity ≤ int32 boss.intervalBoss.counterMap.keys.length ∧
      AutoResetOrderIntervalBoss.createInterval n D boss x = boss) ∨
    (¬ boss.intervalBoss.maxCapacity ≤ int32 boss.intervalBoss.counterMap.keys.length ∧
      AutoResetOrderIntervalBoss.createInterval n D boss x =
        { boss with
          intervalBoss :=
            { boss.intervalBoss with
              counterMap :=
                boss.intervalBoss.counterMap.insert x.counterId boss.counters.length }
          counters := boss.counters ++ [.init n D x.now]
          intervalMap := boss.intervalMap.insert x.symbol boss.counters.length }) := by
  unfold AutoResetOrderIntervalBoss.createInterval
  by_cases h : boss.intervalBoss.maxCapacity ≤ int32 boss.intervalBoss.counterMap.keys.length
  · refine Or.inl ⟨h, ?_⟩
    rw [AutoResetCounterBoss.createNewCounter_of_full _ _ _ _ _ h]
  · refine Or.inr ⟨h, ?_⟩
    rw [AutoResetCounterBoss.createNewCounter_of_room _ _ _ _ _ h]

/-- The counters created for the symbols are sound. -/
theorem Sound.foldl_createInterval (hn : 0 ≤ n) (symbols : List IntervalSymbol)
    {boss : AutoResetOrderIntervalBoss} (h : Sound n D boss.counters) :
    Sound n D
      (symbols.foldl (AutoResetOrderIntervalBoss.createInterval n D) boss).counters := by
  induction symbols generalizing boss with
  | nil => exact h
  | cons x symbols ih =>
    rw [List.foldl_cons]
    apply ih
    rcases createInterval_cases n D boss x with ⟨-, heq⟩ | ⟨-, heq⟩
    · rw [heq]
      exact h
    · rw [heq]
      intro ref counter hcounter
      rw [List.getElem?_append] at hcounter
      split_ifs at hcounter
      · exact h ref counter hcounter
      · rw [List.getElem?_singleton] at hcounter
        split_ifs at hcounter
        obtain rfl := Option.some.inj hcounter
        exact inCount_init hn x.now

theorem sound_init (hn : 0 ≤ n) (memory : IntervalMemory) (symbols : List IntervalSymbol) :
    Sound n D (AutoResetOrderIntervalBoss.init memory symbols n D).counters := by
  apply Sound.foldl_createInterval hn symbols
  intro ref counter hcounter
  cases hcounter

@[simp] theorem start_counters (boss : AutoResetOrderIntervalBoss) :
    boss.start.counters = boss.counters := by
  unfold AutoResetOrderIntervalBoss.start
  split_ifs <;> rfl

@[simp] theorem start_intervalMap (boss : AutoResetOrderIntervalBoss) :
    boss.start.intervalMap = boss.intervalMap := by
  unfold AutoResetOrderIntervalBoss.start
  split_ifs <;> rfl

end Pause

/-! ## Refills -/

/-- The events of the refresh thread going through all counters at one time. -/
def refreshRound (s : IntervalRun) (now : ℕ) : List IntervalEvent :=
  s.boss.intervalBoss.counterMap.keys.map fun counterId => ⟨now, .refreshCounter counterId⟩

/-- Every listed symbol has a counter. -/
def AllCreated (symbols : List IntervalSymbol) (boss : AutoResetOrderIntervalBoss) : Prop :=
  ∀ x ∈ symbols, ∃ (ref : ℕ) (counter : AutoResetCounter),
    boss.intervalMap x.symbol = some ref ∧ boss.counters[ref]? = some counter

/-- A counter is full, and its symbol has a token. -/
def RefilledAt (n : ℤ) (ref : ℕ) (boss : AutoResetOrderIntervalBoss) : Prop :=
  (∃ counter : AutoResetCounter, boss.counters[ref]? = some counter ∧ counter.remainCount = n) ∧
    ∀ symbol, boss.intervalMap symbol = some ref → boss.hasMoreSemaphore symbol = true

/-- The refresh thread runs, and it refills the counters whose latest reset lies an interval back:
each when it comes to it, and all of them when it goes through the counters. -/
def Refilled (n : ℤ) (D : ℕ) (s : IntervalRun) : Prop :=
  s.boss.intervalBoss.refreshLoopRuns = true ∧
    ∀ (now ref : ℕ) (counter : AutoResetCounter), s.boss.counters[ref]? = some counter →
      counter.latestResetMillis + D ≤ now →
      (∀ counterId, s.boss.intervalBoss.counterMap.lookup counterId = some ref →
        RefilledAt n ref (s.step ⟨now, .refreshCounter counterId⟩).boss) ∧
      RefilledAt n ref (Run.after IntervalRun.step s (refreshRound s now)).boss

/-- The symbols within the capacity that `init` computes from the length of the list. -/
def withinCapacity (symbols : List IntervalSymbol) : List IntervalSymbol :=
  symbols.take (int32 symbols.length).toNat

section Created

/-- The boss after counters were created for the symbols `made`. -/
structure Created (n : ℤ) (D : ℕ) (capacity : ℤ) (made : List IntervalSymbol)
    (boss : AutoResetOrderIntervalBoss) : Prop where
  counters : boss.counters = made.map fun x => .init n D x.now
  maxCapacity : boss.intervalBoss.maxCapacity = capacity
  isStarted : boss.intervalBoss.isStarted = false
  refreshThread : boss.intervalBoss.refreshThread = false
  keys : boss.intervalBoss.counterMap.keys = (made.map (·.counterId)).reverse
  lookup : ∀ ref, ref < made.length →
    ∃ counterId, boss.intervalBoss.counterMap.lookup counterId = some ref
  isSome : ∀ symbol, (boss.intervalMap symbol).isSome ↔ symbol ∈ made.map (·.symbol)
  ref_lt : ∀ symbol ref, boss.intervalMap symbol = some ref → ref < made.length

variable {n : ℤ} {D : ℕ} {capacity : ℤ} {made : List IntervalSymbol}
  {boss : AutoResetOrderIntervalBoss}

theorem created_ofMemory (memory : IntervalMemory) (capacity : ℤ) :
    Created n D capacity [] (.ofMemory memory capacity) where
  counters := rfl
  maxCapacity := rfl
  isStarted := rfl
  refreshThread := rfl
  keys := rfl
  lookup := by
    intro ref h
    cases h
  isSome := by
    intro symbol
    simp [AutoResetOrderIntervalBoss.ofMemory]
  ref_lt := by
    intro symbol ref h
    cases h

/-- The capacity is reached when as many counters were created. -/
theorem Created.full_iff (h : Created n D capacity made boss) (hcap : capacity < 2 ^ 31)
    (hlen : made.length ≤ capacity.toNat) :
    boss.intervalBoss.maxCapacity ≤ int32 boss.intervalBoss.counterMap.keys.length ↔
      capacity.toNat ≤ made.length := by
  have hkeys : boss.intervalBoss.counterMap.keys.length = made.length := by simp [h.keys]
  have hint : int32 made.length = made.length := int32_of_lt (by omega) (by omega)
  rw [h.maxCapacity, hkeys, hint]
  omega

/-- With one id more than the places below, the next place has an id too. -/
theorem exists_lookup_insert {counterMap : AList fun _ : String => ℕ} {id : String} {m : ℕ}
    (hfresh : id ∉ counterMap.keys)
    (h : ∀ ref, ref < m → ∃ counterId, counterMap.lookup counterId = some ref) {ref : ℕ}
    (href : ref < m + 1) : ∃ counterId, (counterMap.insert id m).lookup counterId = some ref := by
  by_cases hlast : ref = m
  · exact ⟨id, by rw [AList.lookup_insert, hlast]⟩
  · obtain ⟨counterId, hlookup⟩ := h ref (by omega)
    have hne : counterId ≠ id := by
      rintro rfl
      exact hfresh (AList.lookup_isSome.mp (by rw [hlookup]; rfl))
    exact ⟨counterId, by rw [AList.lookup_insert_ne hne, hlookup]⟩

/-- The next place is inserted: a symbol listed again keeps its place. -/
theorem ref_lt_insert {intervalMap : StringMap ℕ} {symbol symbol' : String} {m ref : ℕ}
    (h : ∀ symbol ref, intervalMap symbol = some ref → ref < m)
    (href : intervalMap.insert symbol m symbol' = some ref) : ref < m + 1 := by
  rw [StringMap.insert_apply] at href
  split_ifs at href
  · have hget := Option.some.inj href
    cases hold : intervalMap symbol with
    | none =>
      rw [hold, Option.getD_none] at hget
      omega
    | some old =>
      rw [hold, Option.getD_some] at hget
      have := h symbol old hold
      omega
  · exact Nat.lt_succ_of_lt (h symbol' ref href)

/-- A counter is created for the next symbol. -/
theorem Created.snoc (h : Created n D capacity made boss) {x : IntervalSymbol}
    (hx : x.counterId ∉ made.map (·.counterId)) :
    Created n D capacity (made ++ [x])
      { boss with
        intervalBoss :=
          { boss.intervalBoss with
            counterMap :=
              boss.intervalBoss.counterMap.insert x.counterId boss.counters.length }
        counters := boss.counters ++ [.init n D x.now]
        intervalMap := boss.intervalMap.insert x.symbol boss.counters.length } := by
  have hlength : boss.counters.length = made.length := by simp [h.counters]
  have hfresh : x.counterId ∉ boss.intervalBoss.counterMap.keys := by
    rw [h.keys, List.mem_reverse]
    exact hx
  constructor
  case counters =>
    rw [h.counters, List.map_append]
    rfl
  case maxCapacity => exact h.maxCapacity
  case isStarted => exact h.isStarted
  case refreshThread => exact h.refreshThread
  case keys =>
    show (AList.insert _ _ boss.intervalBoss.counterMap).keys = _
    rw [AList.keys_insert, List.erase_of_not_mem hfresh, h.keys]
    simp
  case lookup =>
    intro ref href
    rw [List.length_append, List.length_singleton] at href
    show ∃ counterId, AList.lookup counterId (AList.insert _ _ boss.intervalBoss.counterMap) = _
    rw [hlength]
    exact exists_lookup_insert hfresh h.lookup href
  case isSome =>
    intro symbol
    show (boss.intervalMap.insert x.symbol boss.counters.length symbol).isSome ↔ _
    rw [StringMap.insert_apply, List.map_append, List.mem_append, ← h.isSome]
    by_cases hsymbol : symbol = x.symbol
    · simp [hsymbol]
    · simp [hsymbol]
  case ref_lt =>
    intro symbol ref href
    rw [List.length_append, List.length_singleton]
    apply ref_lt_insert h.ref_lt
    rw [← hlength]
    exact href

/-- **The loop of `init`** creates counters for the symbols within the capacity. -/
theorem created_foldl (memory : IntervalMemory) (hcap : capacity < 2 ^ 31)
    (symbols : List IntervalSymbol) (hids : (symbols.map (·.counterId)).Nodup) :
    Created n D capacity (symbols.take capacity.toNat)
      (symbols.foldl (AutoResetOrderIntervalBoss.createInterval n D)
        (.ofMemory memory capacity)) := by
  induction symbols using List.reverseRecOn with
  | nil => simpa using created_ofMemory memory capacity
  | append_singleton symbols x ih =>
    rw [List.map_append, List.nodup_append] at hids
    obtain ⟨hids, -, hdisjoint⟩ := hids
    have hcreated := ih hids
    rw [List.foldl_append, List.foldl_cons, List.foldl_nil]
    have hfull := hcreated.full_iff hcap (List.length_take_le _ _)
    rw [List.length_take] at hfull
    rcases createInterval_cases n D
      (symbols.foldl (AutoResetOrderIntervalBoss.createInterval n D) (.ofMemory memory capacity)) x
      with ⟨hle, heq⟩ | ⟨hroom, heq⟩
    · rw [heq, List.take_append_of_le_length]
      · exact hcreated
      · have := hfull.mp hle
        omega
    · rw [hfull] at hroom
      have hall : symbols.take capacity.toNat = symbols := List.take_of_length_le (by omega)
      have hall' : (symbols ++ [x]).take capacity.toNat = symbols ++ [x] := by
        apply List.take_of_length_le
        rw [List.length_append, List.length_singleton]
        omega
      rw [heq, hall']
      rw [hall] at hcreated
      refine hcreated.snoc fun hx => ?_
      exact hdisjoint _ hx _ (List.mem_singleton_self _) rfl

/-- What `init` creates. -/
theorem created_init (memory : IntervalMemory) (symbols : List IntervalSymbol)
    (hids : (symbols.map (·.counterId)).Nodup) :
    Created n D (int32 symbols.length) (withinCapacity symbols)
      (AutoResetOrderIntervalBoss.init memory symbols n D) :=
  created_foldl memory (int32_lt _) symbols hids

/-- All listed symbols have counters when each is within the capacity. -/
theorem Created.allCreated_iff (h : Created n D capacity made boss)
    (symbols : List IntervalSymbol) :
    AllCreated symbols boss ↔ ∀ x ∈ symbols, x.symbol ∈ made.map (·.symbol) := by
  constructor
  · intro hall x hx
    obtain ⟨ref, counter, hsymbol, -⟩ := hall x hx
    rw [← h.isSome, hsymbol]
    rfl
  · intro hall x hx
    obtain ⟨ref, hsymbol⟩ := Option.isSome_iff_exists.mp ((h.isSome x.symbol).mpr (hall x hx))
    have hlt : ref < boss.counters.length := by
      rw [h.counters, List.length_map]
      exact h.ref_lt x.symbol ref hsymbol
    exact ⟨ref, boss.counters[ref], hsymbol, List.getElem?_eq_getElem hlt⟩

/-- The refresh thread runs after `start` unless the boss took itself for started. -/
theorem Created.refreshLoopRuns_iff (h : Created n D capacity made boss) :
    boss.start.intervalBoss.refreshLoopRuns = true ↔ boss.isStarted = false := by
  unfold AutoResetOrderIntervalBoss.start AutoResetCounterBoss.start
    AutoResetCounterBoss.refreshLoopRuns
  cases boss.isStarted with
  | false => simp [h.isStarted]
  | true => simp [h.isStarted]

end Created

section Refill

variable {n : ℤ} {D : ℕ} {s : IntervalRun}

/-- What keeps the counters refilled: the refresh thread runs, and it comes to every counter. -/
structure Refillable (n : ℤ) (D : ℕ) (s : IntervalRun) : Prop where
  runs : s.boss.intervalBoss.refreshLoopRuns = true
  sound : Sound n D s.boss.counters
  lookup : ∀ ref, ref < s.boss.counters.length →
    ∃ counterId, s.boss.intervalBoss.counterMap.lookup counterId = some ref

theorem step_counters_length (e : IntervalEvent) :
    (s.step e).boss.counters.length = s.boss.counters.length := by
  obtain ⟨time, symbol | counterId⟩ := e
  · simp only [IntervalRun.step, AutoResetOrderIntervalBoss.burnSemaphore]
    split
    · exact List.length_modify ..
    · rfl
  · simp only [IntervalRun.step]
    split_ifs
    · simp only [AutoResetCounterBoss.refreshCounter]
      split
      · exact List.length_modify ..
      · rfl
    · rfl

theorem Refillable.step (h : Refillable n D s) (e : IntervalEvent) :
    Refillable n D (s.step e) where
  runs := by
    rw [step_maps.2]
    exact h.runs
  sound := h.sound.step
  lookup := by
    rw [step_maps.2, step_counters_length]
    exact h.lookup

/-- A full counter gives its symbol a token. -/
theorem refilledAt_of_full (hn : 1 ≤ n) {boss : AutoResetOrderIntervalBoss} {ref : ℕ}
    {counter : AutoResetCounter} (hcounter : boss.counters[ref]? = some counter)
    (hfull : counter.remainCount = n) : RefilledAt n ref boss := by
  refine ⟨⟨counter, hcounter, hfull⟩, fun symbol hsymbol => ?_⟩
  unfold AutoResetOrderIntervalBoss.hasMoreSemaphore
  simp only [hsymbol, hcounter, Option.any_some, decide_eq_true_iff]
  omega

/-- The events of the refresh thread are its calls. -/
theorem after_refreshCounter (hruns : s.boss.intervalBoss.refreshLoopRuns = true) (now : ℕ)
    (ids : List String) :
    (Run.after IntervalRun.step s (ids.map fun id => ⟨now, .refreshCounter id⟩)).boss =
      { s.boss with
        counters := ids.foldl
          (fun counters id => s.boss.intervalBoss.refreshCounter counters id now)
          s.boss.counters } := by
  induction ids using List.reverseRecOn with
  | nil => rfl
  | append_singleton ids id ih =>
    rw [List.map_append, List.map_singleton, Run.after_snoc, List.foldl_append]
    simp only [IntervalRun.step, ih, hruns, if_true, List.foldl_cons, List.foldl_nil]

theorem Refillable.refilled (hn : 1 ≤ n) (h : Refillable n D s) : Refilled n D s := by
  refine ⟨h.runs, fun now ref counter hcounter hdue => ⟨fun counterId hlookup => ?_, ?_⟩⟩
  · have hsound := h.sound ref counter hcounter
    have hafter : (s.step ⟨now, .refreshCounter counterId⟩).boss.counters[ref]? =
        some (counter.resetIfCycleEnd now) := by
      rw [step_refreshCounter_counters, if_pos ⟨h.runs, hlookup⟩, hcounter]
      rfl
    apply refilledAt_of_full hn hafter
    rw [SemaphoreWindow.resetIfCycleEnd_full (Or.inr (by rw [hsound.duration]; exact hdue)),
      SemaphoreWindow.resetIfCycleEnd_initCount, hsound.initCount]
  · have hsound := h.sound ref counter hcounter
    obtain ⟨counterId, hlookup⟩ := h.lookup ref (List.getElem?_eq_some_iff.mp hcounter).1
    have hkey : counterId ∈ s.boss.intervalBoss.counterMap.keys :=
      AList.mem_keys.mp (AList.lookup_isSome.mp (by rw [hlookup]; rfl))
    have hended : counter.latestResetMillis + counter.resetDurationMillis ≤ now := by
      rw [hsound.duration]
      exact hdue
    obtain ⟨counter', hcounter', hfull, hinit⟩ :=
      AutoResetCounterBoss.foldl_refreshCounter_full hcounter
        (Or.inr ⟨hended, counterId, hkey, hlookup⟩)
    rw [refreshRound, after_refreshCounter h.runs]
    exact refilledAt_of_full hn hcounter' (hfull.trans (hinit.trans hsound.initCount))

theorem init_isStarted (memory : IntervalMemory) (symbols : List IntervalSymbol) :
    (AutoResetOrderIntervalBoss.init memory symbols n D).isStarted = memory.isStarted := by
  have hfold : ∀ boss, (symbols.foldl (AutoResetOrderIntervalBoss.createInterval n D)
      boss).isStarted = boss.isStarted := by
    induction symbols with
    | nil => exact fun boss => rfl
    | cons x symbols ih =>
      intro boss
      rw [List.foldl_cons, ih]
      rcases createInterval_cases n D boss x with ⟨-, heq⟩ | ⟨-, heq⟩
      · rw [heq]
      · rw [heq]
  exact hfold _

theorem start_counterMap (boss : AutoResetOrderIntervalBoss) :
    boss.start.intervalBoss.counterMap = boss.intervalBoss.counterMap := by
  unfold AutoResetOrderIntervalBoss.start AutoResetCounterBoss.start
  split_ifs <;> rfl

/-- A boss that created its counters and did start keeps them refilled. -/
theorem Created.refillable {capacity : ℤ} {made : List IntervalSymbol}
    {boss : AutoResetOrderIntervalBoss} (h : Created n D capacity made boss)
    (hsound : Sound n D boss.counters) (hstarted : boss.isStarted = false) :
    Refillable n D ⟨boss.start, [], 0⟩ where
  runs := h.refreshLoopRuns_iff.mpr hstarted
  sound := by
    rw [start_counters]
    exact hsound
  lookup := by
    rw [start_counterMap, start_counters, h.counters, List.length_map]
    exact h.lookup

/-- The counters of the listed symbols stay. -/
theorem AllCreated.step {symbols : List IntervalSymbol} (h : AllCreated symbols s.boss)
    (e : IntervalEvent) : AllCreated symbols (s.step e).boss := by
  intro x hx
  obtain ⟨ref, counter, hsymbol, hcounter⟩ := h x hx
  have hlt : ref < (s.step e).boss.counters.length := by
    rw [step_counters_length]
    exact (List.getElem?_eq_some_iff.mp hcounter).1
  refine ⟨ref, (s.step e).boss.counters[ref], ?_, List.getElem?_eq_getElem hlt⟩
  rw [step_maps.1]
  exact hsymbol

/-- **Every symbol becomes tradable again**, whatever happens after `init` and `start`, exactly when
the boss did not take itself for started before and the capacity has room for every symbol. -/
theorem refilled_iff (hn : 1 ≤ n) (memory : IntervalMemory) (symbols : List IntervalSymbol)
    (hids : (symbols.map (·.counterId)).Nodup) :
    (∀ es,
        AllCreated symbols (Run.after IntervalRun.step (.start memory symbols n D) es).boss ∧
          Refilled n D (Run.after IntervalRun.step (.start memory symbols n D) es)) ↔
      memory.isStarted = false ∧
        ∀ x ∈ symbols, x.symbol ∈ (withinCapacity symbols).map (·.symbol) := by
  have hcreated : Created n D (int32 symbols.length) (withinCapacity symbols)
      (AutoResetOrderIntervalBoss.init memory symbols n D) := created_init memory symbols hids
  have hall : AllCreated symbols (IntervalRun.start memory symbols n D).boss ↔
      ∀ x ∈ symbols, x.symbol ∈ (withinCapacity symbols).map (·.symbol) := by
    rw [← hcreated.allCreated_iff symbols]
    simp only [AllCreated, IntervalRun.start, start_intervalMap, start_counters]
  have hruns : (IntervalRun.start memory symbols n D).boss.intervalBoss.refreshLoopRuns = true ↔
      memory.isStarted = false := by
    rw [← init_isStarted (n := n) (D := D) memory symbols]
    exact hcreated.refreshLoopRuns_iff
  constructor
  · intro h
    obtain ⟨hcounters, hrefilled⟩ := h []
    exact ⟨hruns.mp hrefilled.1, hall.mp hcounters⟩
  · rintro ⟨hstarted, hroom⟩ es
    have hsound := sound_init (D := D) (zero_le_one.trans hn) memory symbols
    have hstart : Refillable n D (.start memory symbols n D) :=
      hcreated.refillable hsound (by rw [init_isStarted]; exact hstarted)
    constructor
    · have hstep : ∀ (s : IntervalRun) (e : IntervalEvent),
          AllCreated symbols s.boss → AllCreated symbols (s.step e).boss := fun _ e h => h.step e
      exact Run.after_invariant (P := fun s : IntervalRun => AllCreated symbols s.boss)
        (hall.mpr hroom) hstep es
    · exact (Run.after_invariant hstart (fun s e h => h.step e) es).refilled hn

/-- A list that is not longer than an `int` can say fits. -/
theorem withinCapacity_of_lt {symbols : List IntervalSymbol} (h : symbols.length < 2 ^ 31) :
    withinCapacity symbols = symbols := by
  rw [withinCapacity, int32_of_lt (by omega) (by omega), Int.toNat_natCast]
  exact List.take_length

/-- Two symbols, one of them filled, and memory that holds zeros. -/
theorem refilled_two_symbols :
    Refilled 1 2000 (Run.after IntervalRun.step
      (.start ⟨false, 0, 0, false⟩ [⟨"BTCUSDC", "a", 0⟩, ⟨"ETHUSDC", "b", 1⟩] 1 2000)
      [⟨1500, .burnSemaphore "ETHUSDC"⟩]) := by
  refine ((refilled_iff le_rfl ⟨false, 0, 0, false⟩ _ (by decide)).mpr ⟨rfl, ?_⟩ _).2
  rw [withinCapacity_of_lt (by decide)]
  exact fun x hx => List.mem_map_of_mem hx

/-- Memory whose flag is set: the refresh thread is never launched. -/
theorem not_refilled_of_isStarted :
    ¬ Refilled 1 2000 (.start ⟨true, 0, 0, false⟩ [⟨"BTCUSDC", "a", 0⟩] 1 2000) := by
  rintro ⟨hruns, -⟩
  exact absurd hruns (by decide)

end Refill

end UmTaker.Trader
