import UmTaker.Common.AutoResetCounter
import UmTaker.General.FixedWindow
import UmTaker.General.Run
import Mathlib.Algebra.BigOperators.Group.List.Basic
import Mathlib.Algebra.Order.Ring.Int
import Mathlib.Data.Int.ConditionallyCompleteOrder
import Mathlib.Data.List.Induction
import Mathlib.Tactic.Linarith

/-!
# Runs of a counter

A counter is asked for tokens, and asked to reset, at times that do not go back. The log of a run
tells when it granted tokens and when it was reset.

## Main definitions

* `CounterEvent`, `CounterRun`, `CounterRun.step`: runs of a counter, with their log
* `tokensSince`, `tokensIn`: the tokens granted since the latest reset, and in an interval
* `InOrder`: requests are positive, and times do not go back

## Main results

* `refill_bounds`: the count stays in its range, a period grants no more than the initial count,
  and an interval of the length of the period no more than twice as much, exactly when the end of
  a period can be computed in 64 bits
-/

namespace UmTaker

open FixedWindow

/-- What a counter is asked. -/
inductive CounterCall
  | getSemaphore (requireCount : ℤ)
  | resetIfCycleEnd
  deriving DecidableEq

/-- A call and its time. -/
structure CounterEvent where
  time : ℕ
  call : CounterCall
  deriving DecidableEq

/-- What happened to a counter. -/
inductive CounterEntry
  | granted (time : ℕ) (count : ℤ)
  | reset (time : ℕ)
  deriving DecidableEq

/-- A counter, what happened to it, and the time of its latest event. -/
structure CounterRun where
  counter : AutoResetCounter
  log : List CounterEntry
  now : ℕ

namespace CounterRun

/-- A new counter. -/
def start (semaphoreCount : ℤ) (resetDurationMillis now : ℕ) : CounterRun where
  counter := .init semaphoreCount resetDurationMillis now
  log := []
  now := now

/-- One event. -/
def step (s : CounterRun) (e : CounterEvent) : CounterRun :=
  match e.call with
  | .getSemaphore requireCount =>
    let r := s.counter.getSemaphore requireCount
    { counter := r.2
      log := if r.1 then s.log ++ [.granted e.time requireCount] else s.log
      now := e.time }
  | .resetIfCycleEnd =>
    { counter := s.counter.resetIfCycleEnd e.time
      log := if s.counter.cycleEnded e.time then s.log ++ [.reset e.time] else s.log
      now := e.time }

end CounterRun

/-- The tokens granted since the latest reset. -/
def tokensSince (log : List CounterEntry) : ℤ :=
  log.foldl
    (fun out e =>
      match e with
      | .granted _ count => out + count
      | .reset _ => 0)
    0

/-- The tokens granted in the interval `[a, a + d)`. -/
def tokensIn (a d : ℕ) (log : List CounterEntry) : ℤ :=
  (log.map fun e =>
    match e with
    | .granted time count => share a d time count
    | .reset _ => 0).sum

/-- A request is positive, and its time neither goes back nor exceeds `T`. -/
structure InOrder (T : ℕ) (s : CounterRun) (e : CounterEvent) : Prop where
  notBack : s.now ≤ e.time
  bounded : e.time ≤ T
  positive : ∀ requireCount, e.call = .getSemaphore requireCount → 0 < requireCount

section Log

variable (log : List CounterEntry) (a d time : ℕ) (count : ℤ)

@[simp] theorem tokensSince_granted :
    tokensSince (log ++ [.granted time count]) = tokensSince log + count := by
  simp [tokensSince]

@[simp] theorem tokensSince_reset : tokensSince (log ++ [.reset time]) = 0 := by
  simp [tokensSince]

@[simp] theorem tokensIn_granted :
    tokensIn a d (log ++ [.granted time count]) = tokensIn a d log + share a d time count := by
  simp [tokensIn]

@[simp] theorem tokensIn_reset : tokensIn a d (log ++ [.reset time]) = tokensIn a d log := by
  simp [tokensIn]

end Log

/-! ## One event -/

section Step

variable {N : ℤ} {D t₀ T a : ℕ} {s : CounterRun} {e : CounterEvent}

theorem step_getSemaphore {time : ℕ} {requireCount : ℤ}
    (h : requireCount ≤ s.counter.remainCount) :
    s.step ⟨time, .getSemaphore requireCount⟩ =
      ⟨SemaphoreWindow.take s.counter requireCount,
        s.log ++ [.granted time requireCount], time⟩ := by
  simp [CounterRun.step, AutoResetCounter.getSemaphore, h]

theorem step_resetIfCycleEnd {time : ℕ} (h : s.counter.cycleEnded time = true) :
    s.step ⟨time, .resetIfCycleEnd⟩ =
      ⟨{ s.counter with toQuota := s.counter.renew, latestResetMillis := time },
        s.log ++ [.reset time], time⟩ := by
  simp [CounterRun.step, SemaphoreWindow.resetIfCycleEnd, h]

/-- An event grants tokens that are left, or resets a counter whose cycle ended, or does nothing. -/
theorem step_cases (s : CounterRun) (e : CounterEvent) :
    (∃ requireCount, e.call = .getSemaphore requireCount ∧
      requireCount ≤ s.counter.remainCount ∧
      s.step e = ⟨SemaphoreWindow.take s.counter requireCount,
        s.log ++ [.granted e.time requireCount], e.time⟩) ∨
    (s.counter.cycleEnded e.time = true ∧
      s.step e = ⟨{ s.counter with toQuota := s.counter.renew, latestResetMillis := e.time },
        s.log ++ [.reset e.time], e.time⟩) ∨
    s.step e = { s with now := e.time } := by
  obtain ⟨time, requireCount | _⟩ := e
  · by_cases h : requireCount ≤ s.counter.remainCount
    · exact Or.inl ⟨requireCount, rfl, h, step_getSemaphore h⟩
    · refine Or.inr (Or.inr ?_)
      simp [CounterRun.step, AutoResetCounter.getSemaphore, h]
  · by_cases h : s.counter.cycleEnded time = true
    · exact Or.inr (Or.inl ⟨h, step_resetIfCycleEnd h⟩)
    · refine Or.inr (Or.inr ?_)
      simp [CounterRun.step, SemaphoreWindow.resetIfCycleEnd, h]

theorem cycleEnded_iff {w : SemaphoreWindow} {now : ℕ}
    (h : w.latestResetMillis + w.resetDurationMillis < 2 ^ 64) :
    w.cycleEnded now = true ↔ w.latestResetMillis + w.resetDurationMillis ≤ now := by
  unfold SemaphoreWindow.cycleEnded u64
  rw [decide_eq_true_iff]
  omega

/-- The end of a cycle that 64 bits cannot hold lies in the past. -/
theorem cycleEnded_of_wrap {w : SemaphoreWindow} {now : ℕ}
    (h : 2 ^ 64 ≤ w.latestResetMillis + w.resetDurationMillis)
    (hduration : w.resetDurationMillis < 2 ^ 64) (hlatest : w.latestResetMillis < 2 ^ 64)
    (hnow : w.latestResetMillis ≤ now) : w.cycleEnded now = true := by
  unfold SemaphoreWindow.cycleEnded u64
  rw [decide_eq_true_iff]
  omega

/-! ## The count and the period -/

/-- What is left and what was granted since the latest reset make up the initial count. -/
structure Counted (N : ℤ) (D : ℕ) (s : CounterRun) : Prop where
  initCount : s.counter.initCount = N
  duration : s.counter.resetDurationMillis = D
  balanced : s.counter.toQuota.Balanced (tokensSince s.log)
  granted : 0 ≤ tokensSince s.log

theorem counted_start (hN : 0 ≤ N) : Counted N D (.start N D t₀) :=
  ⟨rfl, rfl, Quota.balanced_full hN, le_rfl⟩

/-- **Every event keeps the count.** -/
theorem Counted.step (h : Counted N D s) (he : InOrder T s e) : Counted N D (s.step e) := by
  rcases step_cases s e with ⟨requireCount, hcall, hle, heq⟩ | ⟨-, heq⟩ | heq
  · have hpos : 0 < requireCount := he.positive requireCount hcall
    rw [heq]
    refine ⟨h.initCount, h.duration, ?_, ?_⟩
    · rw [tokensSince_granted]
      exact h.balanced.take hle
    · rw [tokensSince_granted]
      exact add_nonneg h.granted hpos.le
  · rw [heq]
    refine ⟨h.initCount, h.duration, ?_, ?_⟩
    · rw [tokensSince_reset]
      exact h.balanced.renew h.granted
    · rw [tokensSince_reset]
  · rw [heq]
    exact ⟨h.initCount, h.duration, h.balanced, h.granted⟩

theorem Counted.tokensSince_le (h : Counted N D s) : tokensSince s.log ≤ N :=
  h.initCount ▸ h.balanced.out_le

/-! ## The sliding window -/

/-- No end of a cycle within the run exceeds 64 bits: neither that of the first cycle nor, if it
ends within the run, that of a cycle that starts as late as possible. -/
def CyclesFit (D t₀ T : ℕ) : Prop := t₀ + D < 2 ^ 64 ∧ (t₀ + D ≤ T → T + D < 2 ^ 64)

/-- The bound on a window in the run of a counter. -/
structure Windowed (N : ℤ) (D t₀ T a : ℕ) (s : CounterRun) : Prop extends Counted N D s where
  latest : s.counter.latestResetMillis = t₀ ∨
    (t₀ + D ≤ s.counter.latestResetMillis ∧ s.counter.latestResetMillis ≤ T)
  notBack : s.counter.latestResetMillis ≤ s.now
  window : WindowBound N a D s.counter.latestResetMillis s.now (tokensSince s.log)
    (tokensIn a D s.log)

theorem windowed_start (hN : 0 ≤ N) : Windowed N D t₀ T a (.start N D t₀) where
  toCounted := counted_start hN
  latest := Or.inl rfl
  notBack := le_rfl
  window := WindowBound.start hN t₀

/-- **Every event keeps the bound on a window**, if the ends of cycles fit. -/
theorem Windowed.step (h : Windowed N D t₀ T a s) (hfit : CyclesFit D t₀ T)
    (he : InOrder T s e) : Windowed N D t₀ T a (s.step e) := by
  have hcounted := h.toCounted.step he
  rcases step_cases s e with ⟨requireCount, hcall, hle, heq⟩ | ⟨hended, heq⟩ | heq
  · have hpos : 0 < requireCount := he.positive requireCount hcall
    rw [heq] at hcounted ⊢
    refine ⟨hcounted, h.latest, h.notBack.trans he.notBack, ?_⟩
    rw [tokensSince_granted, tokensIn_granted]
    have hquota := hcounted.tokensSince_le
    rw [tokensSince_granted] at hquota
    exact h.window.grant (h.notBack.trans he.notBack) he.notBack hpos.le hquota
  · have hnowrap : s.counter.latestResetMillis + s.counter.resetDurationMillis < 2 ^ 64 := by
      rw [h.duration]
      rcases h.latest with hlatest | ⟨hafter, hbound⟩
      · rw [hlatest]
        exact hfit.1
      · have := hfit.2 (hafter.trans hbound)
        omega
    have hspace := (cycleEnded_iff hnowrap).mp hended
    rw [h.duration] at hspace
    rw [heq] at hcounted ⊢
    refine ⟨hcounted, Or.inr ⟨?_, he.bounded⟩, le_rfl, ?_⟩
    · show t₀ + D ≤ e.time
      rcases h.latest with hlatest | ⟨hafter, -⟩
      · rwa [hlatest] at hspace
      · omega
    · rw [tokensSince_reset, tokensIn_reset]
      exact h.window.renew hspace he.notBack h.tokensSince_le
  · rw [heq] at hcounted ⊢
    exact ⟨hcounted, h.latest, h.notBack.trans he.notBack, h.window.wait he.notBack⟩

/-! ## Refilling over and over -/

/-- The whole count is asked for three times, with resets between. -/
def burst (N : ℤ) (T : ℕ) : List CounterEvent :=
  [⟨T, .getSemaphore N⟩, ⟨T, .resetIfCycleEnd⟩, ⟨T, .getSemaphore N⟩, ⟨T, .resetIfCycleEnd⟩,
    ⟨T, .getSemaphore N⟩]

@[simp] theorem step_now (s : CounterRun) (e : CounterEvent) : (s.step e).now = e.time := by
  rcases step_cases s e with ⟨_, -, -, heq⟩ | ⟨-, heq⟩ | heq
  all_goals rw [heq]

theorem burst_inOrder (hN : 0 < N) (hstart : t₀ ≤ T) :
    Run.Every CounterRun.step (.start N D t₀) (InOrder T) (burst N T) := by
  have hpositive : ∀ e ∈ burst N T, ∀ requireCount, e.call = .getSemaphore requireCount →
      0 < requireCount := by
    simp [burst, hN]
  simp only [burst, Run.every_cons, Run.every_nil, and_true]
  refine ⟨⟨hstart, le_rfl, ?_⟩, ⟨?_, le_rfl, ?_⟩, ⟨?_, le_rfl, ?_⟩, ⟨?_, le_rfl, ?_⟩,
    ⟨?_, le_rfl, ?_⟩⟩
  all_goals first | exact (step_now _ _).le | simp [hN]

/-- If the ends of cycles do not fit, the count is refilled at once. -/
theorem burst_log (hnofit : ¬ CyclesFit D t₀ T) (hstart : t₀ ≤ T) (hT : T < 2 ^ 64)
    (hD : D < 2 ^ 64) :
    (Run.after CounterRun.step (.start N D t₀) (burst N T)).log =
      [.granted T N, .reset T, .granted T N, .reset T, .granted T N] := by
  have hlate : 2 ^ 64 ≤ T + D := by
    unfold CyclesFit at hnofit
    omega
  -- the first cycle has ended by then, in time or because its end wrapped around
  have hfirst : (SemaphoreWindow.init N D t₀).cycleEnded T = true := by
    by_cases hfit : t₀ + D < 2 ^ 64
    · rw [cycleEnded_iff hfit]
      show t₀ + D ≤ T
      unfold CyclesFit at hnofit
      omega
    · exact cycleEnded_of_wrap (not_lt.mp hfit) hD (hstart.trans_lt hT) hstart
  have hagain : ∀ q : Quota ℤ, (SemaphoreWindow.mk q D T).cycleEnded T = true :=
    fun q => cycleEnded_of_wrap hlate hD hT le_rfl
  have htake : ∀ (latest : ℕ) (log : List CounterEntry) (now : ℕ),
      CounterRun.step ⟨⟨⟨N, N⟩, D, latest⟩, log, now⟩ ⟨T, .getSemaphore N⟩ =
        ⟨⟨⟨N, N - N⟩, D, latest⟩, log ++ [.granted T N], T⟩ :=
    fun _ _ _ => step_getSemaphore le_rfl
  have hrefill : ∀ (latest : ℕ) (log : List CounterEntry),
      (SemaphoreWindow.mk ⟨N, N - N⟩ D latest).cycleEnded T = true →
      CounterRun.step ⟨⟨⟨N, N - N⟩, D, latest⟩, log, T⟩ ⟨T, .resetIfCycleEnd⟩ =
        ⟨⟨⟨N, N⟩, D, T⟩, log ++ [.reset T], T⟩ :=
    fun _ _ h => step_resetIfCycleEnd h
  rw [Run.after, burst, CounterRun.start, SemaphoreWindow.init]
  simp only [List.foldl_cons, List.foldl_nil]
  rw [htake, hrefill t₀ _ hfirst, htake, hrefill T _ (hagain _), htake]
  rfl

/-! ## The bounds -/

/-- **Refilling bounds what is granted.** In every run the count stays in its range and no more than
the initial count is granted between two resets; and no more than twice the initial count is granted
in any interval of the length of the period exactly when there is nothing to grant or the ends of
all cycles fit into 64 bits. -/
theorem refill_bounds {N : ℤ} {D t₀ T : ℕ} (hN : 0 ≤ N) (hstart : t₀ ≤ T) (hT : T < 2 ^ 64)
    (hD : D < 2 ^ 64) :
    (∀ es, Run.Every CounterRun.step (.start N D t₀) (InOrder T) es →
        (0 ≤ (Run.after CounterRun.step (.start N D t₀) es).counter.remainCount ∧
          (Run.after CounterRun.step (.start N D t₀) es).counter.remainCount ≤ N) ∧
        tokensSince (Run.after CounterRun.step (.start N D t₀) es).log ≤ N) ∧
      ((∀ es, Run.Every CounterRun.step (.start N D t₀) (InOrder T) es →
          ∀ a, tokensIn a D (Run.after CounterRun.step (.start N D t₀) es).log ≤ 2 * N) ↔
        N = 0 ∨ CyclesFit D t₀ T) := by
  refine ⟨fun es hes => ?_, ?_, ?_⟩
  · have h : Counted N D (Run.after CounterRun.step (.start N D t₀) es) :=
      hes.after_invariant (counted_start hN) fun _ _ h he => h.step he
    have hnonneg := h.balanced.nonneg
    have htotal := h.balanced.total
    rw [h.initCount] at htotal
    have hgranted := h.granted
    exact ⟨⟨hnonneg, by omega⟩, h.tokensSince_le⟩
  · intro h
    by_contra hnot
    obtain ⟨hne, hnofit⟩ := not_or.mp hnot
    have hpos : 0 < N := lt_of_le_of_ne hN (Ne.symm hne)
    have hperiod : 0 < D := by
      unfold CyclesFit at hnofit
      omega
    have hthree := h (burst N T) (burst_inOrder hpos hstart) T
    rw [burst_log hnofit hstart hT hD] at hthree
    simp [tokensIn, share, hperiod] at hthree
    omega
  · rintro (rfl | hfit) es hes a
    · have h : Counted 0 D (Run.after CounterRun.step (.start 0 D t₀) es) ∧
          tokensIn a D (Run.after CounterRun.step (.start 0 D t₀) es).log = 0 := by
        refine hes.after_invariant (P := fun s => Counted 0 D s ∧ tokensIn a D s.log = 0)
          ⟨counted_start le_rfl, rfl⟩ fun s e ⟨hs, htokens⟩ he => ⟨hs.step he, ?_⟩
        rcases step_cases s e with ⟨requireCount, hcall, hle, -⟩ | ⟨-, heq⟩ | heq
        · have hpos := he.positive requireCount hcall
          have htotal := hs.balanced.total
          rw [hs.initCount] at htotal
          have hgranted := hs.granted
          omega
        · rw [heq, tokensIn_reset, htokens]
        · rw [heq, htokens]
      rw [h.2]
      simp
    · have h : Windowed N D t₀ T a (Run.after CounterRun.step (.start N D t₀) es) :=
        hes.after_invariant (windowed_start hN) fun _ _ h he => h.step hfit he
      have := h.window.total
      omega

/-- A counter of two tokens and a period of one second, asked three times. -/
theorem refill_bounds_two :
    tokensIn 1000 1000 (Run.after CounterRun.step (.start 2 1000 0)
      [⟨1000, .resetIfCycleEnd⟩, ⟨1500, .getSemaphore 2⟩, ⟨1999, .getSemaphore 1⟩]).log ≤ 4 := by
  have hordered : Run.Every CounterRun.step (.start 2 1000 0) (InOrder 1999)
      [⟨1000, .resetIfCycleEnd⟩, ⟨1500, .getSemaphore 2⟩, ⟨1999, .getSemaphore 1⟩] := by
    simp only [Run.every_cons, Run.every_nil, and_true]
    exact ⟨⟨by decide, by decide, by simp⟩, ⟨by decide, by decide, by simp⟩,
      ⟨by decide, by decide, by simp⟩⟩
  exact (refill_bounds (by decide) (by decide) (by decide) (by decide)).2.mpr
    (Or.inr ⟨by decide, by decide⟩) _ hordered 1000

/-- A period of `2 ^ 64 - 1` milliseconds: the end of the first cycle wraps around, and three tokens
are granted at the same moment. -/
theorem refill_window_exceeded :
    Run.Every CounterRun.step (.start 1 (2 ^ 64 - 1) 1) (InOrder 1) (burst 1 1) ∧
      tokensIn 1 (2 ^ 64 - 1) (Run.after CounterRun.step (.start 1 (2 ^ 64 - 1) 1)
        (burst 1 1)).log = 3 := by
  refine ⟨burst_inOrder (by decide) le_rfl, ?_⟩
  rw [burst_log (by unfold CyclesFit; decide) le_rfl (by decide) (by decide)]
  decide

end Step

end UmTaker
