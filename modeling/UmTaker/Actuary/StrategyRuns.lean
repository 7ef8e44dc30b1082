import UmTaker.Actuary.Strategy
import Mathlib.Data.Int.ConditionallyCompleteOrder

/-!
# Runs of the strategy

The loop of an asset, iteration after iteration. The versions of the tickers it holds never go back,
and an order is written only on a version that triggers.

## Main definitions

* `heldVersions`: the ticker versions the loop holds
* `strategyStep`, `writtenVersions`: an iteration, and the versions of the orders of a run
* `Triggers`: versions that may follow one another

## Main results

* `heldVersions_le`: no iteration goes back to an older ticker
* `writtenVersions_pairwise`: every order of a run is triggered by a new ticker
-/

namespace UmTaker.Actuary

open LoopBody Shm

/-! ## Versions -/

/-- The versions of the benchmark's and the follower's ticker that the loop holds. -/
def heldVersions (st : LoopState) : ℤ × ℤ := (st.benchmarkTickerVersion, st.followerTickerVersion)

/-- The variables after an iteration. -/
def strategyStep (ctx : StrategyContext) (st : LoopState) (snap : Snapshot) : LoopState :=
  (calculateSignalMakeOrder ctx snap st).2

/-- The ticker versions held when the orders of a run are written. -/
def writtenVersions (ctx : StrategyContext) : LoopState → List Snapshot → List (ℤ × ℤ)
  | _, [] => []
  | st, snap :: snaps =>
    let st' := strategyStep ctx st snap
    match writtenOrder ctx snap st with
    | some _ => heldVersions st' :: writtenVersions ctx st' snaps
    | none => writtenVersions ctx st' snaps

/-- Neither version goes back, and one whose trigger is enabled goes up. -/
def Triggers (config : ActuaryConfig) (before after : ℤ × ℤ) : Prop :=
  before ≤ after ∧
    ((config.enableBenchmarkTickerTrigger = true ∧ before.1 < after.1) ∨
      (config.enableFollowerTickerTrigger = true ∧ before.2 < after.2))

variable {ctx : StrategyContext} {snap : Snapshot} {st : LoopState} {m : Market}

/-- The versions of older tickers are followed all the more. -/
theorem Triggers.of_le {config : ActuaryConfig} {v w before : ℤ × ℤ} (hv : v ≤ before)
    (h : Triggers config before w) : Triggers config v w := by
  obtain ⟨hle, htrigger⟩ := h
  refine ⟨hv.trans hle, ?_⟩
  rcases htrigger with ⟨henabled, hlt⟩ | ⟨henabled, hlt⟩
  · exact Or.inl ⟨henabled, hv.1.trans_lt hlt⟩
  · exact Or.inr ⟨henabled, hv.2.trans_lt hlt⟩

/-! ## One iteration -/

theorem loadTickers_grows : Body.Grows heldVersions (loadTickers ctx snap) := by
  refine Body.Grows.bind (Body.Grows.require _) fun benchmark => ?_
  refine Body.Grows.bind (Body.Grows.require _) fun follower => ?_
  refine Body.Grows.bind (Body.Grows.skipWhen _) fun _ => ?_
  refine Body.Grows.bind Body.Grows.read fun st => ?_
  refine Body.Grows.bind (Body.Grows.skipWhen _) fun _ => ?_
  refine Body.Grows.bind (Body.Grows.modify fun st => ?_) fun _ => ?_
  · exact ⟨le_max_left _ _, le_max_left _ _⟩
  · exact Body.Grows.bind (Body.Grows.skipWhen _) fun _ => Body.Grows.pure _

theorem loadThresholds_grows : Body.Grows heldVersions (loadThresholds snap) := by
  refine Body.Grows.bind (Body.Grows.require _) fun earlyRun => ?_
  refine Body.Grows.bind (Body.Grows.skipWhen _) fun _ => ?_
  refine Body.Grows.bind (Body.Grows.require _) fun benchmarkBeta => ?_
  refine Body.Grows.bind (Body.Grows.skipWhen _) fun _ => ?_
  refine Body.Grows.bind (Body.Grows.require _) fun followerBeta => ?_
  refine Body.Grows.bind (Body.Grows.skipWhen _) fun _ => ?_
  refine Body.Grows.bind Body.Grows.read fun st => ?_
  refine Body.Grows.bind (Body.Grows.modify fun st => le_refl _) fun _ => ?_
  exact Body.Grows.bind (Body.Grows.skipWhen _) fun _ => Body.Grows.pure _

theorem loadMarket_grows : Body.Grows heldVersions (loadMarket ctx snap) := by
  refine Body.Grows.bind loadTickers_grows fun tickers => ?_
  refine Body.Grows.bind loadThresholds_grows fun thresholds => ?_
  refine Body.Grows.bind (Body.Grows.skipWhen _) fun _ => ?_
  refine Body.Grows.bind (Body.Grows.skipWhen _) fun _ => ?_
  refine Body.Grows.bind (Body.Grows.require _) fun position => ?_
  exact Body.Grows.bind (Body.Grows.skipWhen _) fun _ => Body.Grows.pure _

/-- Making an order sets its price and time only. -/
theorem heldVersions_makeSignalledOrder (stop : StopFlags) :
    heldVersions (makeSignalledOrder ctx snap m stop st).2 = heldVersions st := by
  have hset : ∀ (c : Prop) [Decidable c] (latest : LoopState),
      heldVersions latest = heldVersions st →
      heldVersions (if c then latest else st) = heldVersions st := by
    intro c _ latest h
    split_ifs
    · exact h
    · rfl
  unfold makeSignalledOrder
  split_ifs
  · exact hset _ _ rfl
  · exact hset _ _ rfl
  · rfl

/-- **No iteration goes back to an older ticker.** -/
theorem heldVersions_le (ctx : StrategyContext) (st : LoopState) (snap : Snapshot) :
    heldVersions st ≤ heldVersions (strategyStep ctx st snap) := by
  have hgrows : Body.Grows heldVersions (calculateSignalMakeOrder ctx snap) :=
    Body.Grows.bind loadMarket_grows fun m st => (heldVersions_makeSignalledOrder _).ge
  exact hgrows st

/-- An iteration that writes an order holds the versions it was triggered by. -/
theorem triggers_of_written {o : OrderShm} (ho : writtenOrder ctx snap st = some o) :
    Triggers ctx.config (heldVersions st) (heldVersions (strategyStep ctx st snap)) := by
  obtain ⟨st', hends⟩ := Body.fst_eq_some.mp (Option.join_eq_some_iff.mp ho)
  have hstep : strategyStep ctx st snap = st' := congrArg Prod.snd hends
  rw [hstep]
  obtain ⟨m, _, hload, hmake⟩ := Body.bind_ends.mp hends
  obtain ⟨hm, rfl⟩ := loadMarket_ends.mp hload
  have hheld : heldVersions st' = heldVersions (st.seen m) := by
    have hmade := congrArg (fun r => heldVersions r.2) hmake
    exact hmade.symm.trans (heldVersions_makeSignalledOrder _)
  rw [hheld]
  exact ⟨hm.tickerNotOld, hm.triggered⟩

/-! ## Runs -/

/-- The orders of a run hold versions that follow those held before. -/
theorem triggers_of_mem (snaps : List Snapshot) {v : ℤ × ℤ}
    (h : v ∈ writtenVersions ctx st snaps) : Triggers ctx.config (heldVersions st) v := by
  induction snaps generalizing st with
  | nil => cases h
  | cons snap snaps ih =>
    have hle := heldVersions_le ctx st snap
    unfold writtenVersions at h
    cases ho : writtenOrder ctx snap st with
    | none =>
      simp only [ho] at h
      exact (ih h).of_le hle
    | some o =>
      simp only [ho, List.mem_cons] at h
      rcases h with rfl | h
      · exact triggers_of_written ho
      · exact (ih h).of_le hle

/-- **Every order of a run is triggered by a new ticker**: against the versions held at any order
before it, neither goes back and one whose trigger is enabled goes up. -/
theorem writtenVersions_pairwise (ctx : StrategyContext) (st : LoopState)
    (snaps : List Snapshot) :
    (writtenVersions ctx st snaps).Pairwise (Triggers ctx.config) := by
  induction snaps generalizing st with
  | nil => exact List.Pairwise.nil
  | cons snap snaps ih =>
    unfold writtenVersions
    cases writtenOrder ctx snap st with
    | none => exact ih _
    | some o => exact List.pairwise_cons.mpr ⟨fun v hv => triggers_of_mem snaps hv, ih _⟩

end UmTaker.Actuary
