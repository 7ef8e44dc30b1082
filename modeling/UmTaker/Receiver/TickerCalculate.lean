import UmTaker.Concurrency.Triple
import UmTaker.Receiver.TickerContainer

/-!
# The beta calculator and the subscribers

The subscriber threads push tickers into a wrapper while the beta calculator works out its extremes:
it looks whether they are valid, copies the tickers of the interval, and stores their extremes as
valid. Each call of the wrapper is atomic, a round of the calculator is not.

## Main definitions

* `TickerOp`, `TickerState`: the calls of the wrapper, and the wrapper with the copies the
  calculator took
* `processBetaThresholdCalculate`: a round of the calculator
* `tickerThreads`: the calculator and any subscribers
* `Covered`: valid extremes hide no ticker
* `LateSpanned`: no ticker pushed since the copy lies outside it

## Main results

* `covered_of_lateSpanned`: if the copies of all rounds that store are late spanned, valid extremes
  never hide a ticker
* `covered_store_iff`: a store of a copy that is not late spanned hides a ticker
* `hides_late_ticker`: a ticker pushed between copy and store is hidden
-/

namespace UmTaker.Receiver

open Concurrency Concurrency.System.Move

/-! ## The calls of the wrapper -/

/-- A copy of the calculator: the tickers, the cutoff, and how many tickers had been pushed. -/
structure Copy where
  tickers : List UmTickerInfo := []
  cutoff : ℕ := 0
  pushes : ℕ := 0

/-- A wrapper, the number of tickers pushed into it, the latest copy the calculator took, and the
copy behind the result it stored last. -/
structure TickerState where
  wrapper : TickerWrapper := {}
  pushes : ℕ := 0
  copy : Copy := {}
  stored : Copy := {}

namespace TickerState

/-- The tickers of the list that were pushed after a copy was taken. -/
def since (s : TickerState) (copy : Copy) : List UmTickerInfo :=
  s.wrapper.tickerList.rtake (s.pushes - copy.pushes)

/-- A subscriber's update. -/
def update (s : TickerState) (ticker : UmTickerInfo) (now remainSeconds : ℕ) : TickerState :=
  { s with
    wrapper := s.wrapper.updateTicker ticker now remainSeconds
    pushes := s.pushes + 1 }

/-- The calculator's copy. -/
def takeCopy (s : TickerState) (remainTsAfter : ℕ) : TickerState :=
  { s with copy := ⟨s.wrapper.copyTickerListAfter remainTsAfter, remainTsAfter, s.pushes⟩ }

/-- The calculator's store. -/
def store (s : TickerState) (result : TickerMinMaxResult) : TickerState :=
  { s with wrapper := s.wrapper.setMinMaxResult result, stored := s.copy }

end TickerState

/-- A call of the wrapper. -/
inductive TickerOp
  | updateTicker (ticker : UmTickerInfo) (now remainSeconds : ℕ)
  | getMinMaxResult
  | copyTickerListAfter (remainTsAfter : ℕ)
  | setMinMaxResult (result : TickerMinMaxResult)

abbrev TickerAns : TickerOp → Type
  | .updateTicker _ _ _ => Unit
  | .getMinMaxResult => TickerMinMaxResult
  | .copyTickerListAfter _ => List UmTickerInfo
  | .setMinMaxResult _ => Unit

/-- A call carried out behind the lock of the wrapper. -/
def tickerExec : (o : TickerOp) → TickerState → TickerState × TickerAns o
  | .updateTicker ticker now remainSeconds, s => (s.update ticker now remainSeconds, ())
  | .getMinMaxResult, s => (s, s.wrapper.getMinMaxResult)
  | .copyTickerListAfter remainTsAfter, s =>
    (s.takeCopy remainTsAfter, s.wrapper.copyTickerListAfter remainTsAfter)
  | .setMinMaxResult result, s => (s.store result, ())

abbrev TickerProg := Prog TickerOp TickerAns

/-! ## The threads -/

/-- A round of `process_beta_threshold_calculate`, up to the result the thresholds are worked out
from; there is none while the interval has too few tickers. -/
def processBetaThresholdCalculate (calculateSmaIntervalSeconds now : ℕ) :
    TickerProg (Option TickerMinMaxResult) := do
  let minMaxResult ← Prog.call TickerOp.getMinMaxResult
  if minMaxResult.validityMinMax = false ∨
      minMaxResult.tickerLength < calculateSmaIntervalSeconds then do
    let tickerList ← Prog.call
      (TickerOp.copyTickerListAfter (u64 (now - calculateSmaIntervalSeconds * 1000)))
    if tickerList.length < calculateSmaIntervalSeconds then
      pure none
    else do
      -- tickers pushed since the copy are not in it, but the result is stored as valid
      let result : TickerMinMaxResult :=
        { minMaxResult with extremes := .ofList tickerList, validityMinMax := true }
      Prog.call (TickerOp.setMinMaxResult result)
      pure (some result)
  else
    pure (some minMaxResult)

/-- The calculator, and the subscribers. -/
abbrev TickerThread (W : Type) : Type := Option W

/-- What a call is given: a round its clock reading, an update a ticker and its clock reading. -/
abbrev TickerCall {W : Type} : TickerThread W → Type
  | none => ℕ
  | some _ => UmTickerInfo × ℕ

/-- The calculator and the subscribers over one wrapper, which keeps the tickers of the interval the
calculator works on. -/
def tickerThreads (W : Type) (calculateSmaIntervalSeconds : ℕ) :
    System (TickerThread W) TickerState (fun _ => Unit) TickerCall TickerOp TickerAns where
  exec _ o s := some (tickerExec o s)
  body
    | none, _, now => do
      let _ ← processBetaThresholdCalculate calculateSmaIntervalSeconds now
      pure ()
    | some _, _, (ticker, now) =>
      Prog.call (TickerOp.updateTicker ticker now calculateSmaIntervalSeconds)

/-! ## What a result covers -/

/-- Valid extremes contain every ticker of the list that is newer than the cutoff they were worked
out for, or was pushed after the copy they were worked out from. -/
def Covered (s : TickerState) : Prop :=
  s.wrapper.validityMinMax = true → ∀ ticker ∈ s.wrapper.tickerList,
    s.stored.cutoff < ticker.updateTimeMillis ∨ ticker ∈ s.since s.stored →
      s.wrapper.extremes.Contain ticker

/-- The latest copy has every ticker of the list that is newer than its cutoff, except those pushed
after it. -/
structure CopyComplete (s : TickerState) : Prop where
  pushes_le : s.copy.pushes ≤ s.pushes
  mem : ∀ ticker ∈ s.wrapper.tickerList, s.copy.cutoff < ticker.updateTimeMillis →
    ticker ∈ s.copy.tickers ∨ ticker ∈ s.since s.copy

/-- Every ticker of the list pushed since the latest copy lies within the prices of the copy. -/
def LateSpanned (s : TickerState) : Prop :=
  ∀ ticker ∈ s.since s.copy, Extremes.Spanned s.copy.tickers ticker

instance (s : TickerState) : Decidable (LateSpanned s) := inferInstanceAs (Decidable (∀ _ ∈ _, _))

/-- A round stores its result only while its copy is late spanned. -/
def StoresLateSpanned {W : Type} : TickerThread W → TickerOp → TickerState → Prop
  | _, .setMinMaxResult _, s => LateSpanned s
  | _, _, _ => True

namespace TickerState

variable {s : TickerState} {ticker new : UmTickerInfo} {now remainSeconds : ℕ}

/-- After an update the list holds old tickers and the new one. -/
theorem mem_update (h : ticker ∈ (s.update new now remainSeconds).wrapper.tickerList) :
    ticker ∈ s.wrapper.tickerList ∨ ticker = new := by
  obtain ⟨⟨n, hlist⟩, -⟩ := s.wrapper.updateTicker_spec new now remainSeconds
  have h : ticker ∈ (s.wrapper.updateTicker new now remainSeconds).tickerList := h
  rw [hlist] at h
  have := List.mem_of_mem_drop h
  rwa [List.mem_append, List.mem_singleton] at this

/-- An update adds only its own ticker to those pushed since a copy, and keeps those that stay in
the list. -/
theorem mem_since_update {copy : Copy} (hcopy : copy.pushes ≤ s.pushes) :
    (ticker ∈ (s.update new now remainSeconds).since copy → ticker ∈ s.since copy ∨ ticker = new) ∧
      (ticker ∈ (s.update new now remainSeconds).wrapper.tickerList →
        ticker ∈ s.since copy ∨ ticker = new →
          ticker ∈ (s.update new now remainSeconds).since copy) := by
  obtain ⟨⟨n, hlist⟩, -⟩ := s.wrapper.updateTicker_spec new now remainSeconds
  have hlist : (s.update new now remainSeconds).wrapper.tickerList =
      (s.wrapper.tickerList ++ [new]).drop n := hlist
  have hcount : (s.update new now remainSeconds).pushes - copy.pushes =
      (s.pushes - copy.pushes) + 1 := by
    simp only [update]
    omega
  unfold since
  rw [hlist, hcount]
  constructor
  · intro h
    exact (SlidingWindow.mem_rtake_snoc new).mp (SlidingWindow.mem_rtake_of_mem_rtake_drop h)
  · intro hmem h
    exact SlidingWindow.mem_rtake_of_mem_drop hmem ((SlidingWindow.mem_rtake_snoc new).mpr h)

end TickerState

/-- An update keeps valid extremes covering: they were valid before, and it widened them. -/
theorem Covered.update {s : TickerState} (h : Covered s) (hstored : s.stored.pushes ≤ s.pushes)
    (new : UmTickerInfo) (now remainSeconds : ℕ) : Covered (s.update new now remainSeconds) := by
  intro hvalid ticker hmem hcovered
  obtain ⟨hextremes, hbefore⟩ := (s.wrapper.updateTicker_spec new now remainSeconds).2 hvalid
  have hextremes : (s.update new now remainSeconds).wrapper.extremes =
      s.wrapper.extremes.widen new := hextremes
  rw [hextremes]
  -- an old ticker was covered before; the new one has just widened the extremes
  rcases TickerState.mem_update hmem with hold | rfl
  · rcases hcovered with hnewer | hsince
    · exact (h hbefore ticker hold (Or.inl hnewer)).widen new
    · rcases (TickerState.mem_since_update hstored).1 hsince with hsince | rfl
      · exact (h hbefore ticker hold (Or.inr hsince)).widen new
      · exact Extremes.contain_widen_self _ _
  · exact Extremes.contain_widen_self _ _

/-- An update keeps the copy complete: its ticker is one pushed after the copy. -/
theorem CopyComplete.update {s : TickerState} (h : CopyComplete s) (new : UmTickerInfo)
    (now remainSeconds : ℕ) : CopyComplete (s.update new now remainSeconds) where
  pushes_le := h.pushes_le.trans (Nat.le_succ s.pushes)
  mem ticker hmem hnewer := by
    rcases TickerState.mem_update hmem with hold | rfl
    · rcases h.mem ticker hold hnewer with hcopied | hsince
      · exact Or.inl hcopied
      · exact Or.inr ((TickerState.mem_since_update h.pushes_le).2 hmem (Or.inl hsince))
    · exact Or.inr ((TickerState.mem_since_update h.pushes_le).2 hmem (Or.inr rfl))

/-- A copy just taken is complete. -/
theorem CopyComplete.takeCopy (s : TickerState) (remainTsAfter : ℕ) :
    CopyComplete (s.takeCopy remainTsAfter) where
  pushes_le := le_rfl
  mem ticker hmem hnewer := by
    refine Or.inl (List.mem_filter.mpr ⟨hmem, ?_⟩)
    exact decide_eq_true hnewer

/-- A store does not touch the list or the copy. -/
theorem CopyComplete.store {s : TickerState} (h : CopyComplete s) (result : TickerMinMaxResult) :
    CopyComplete (s.store result) :=
  ⟨h.pushes_le, h.mem⟩

/-- Storing the extremes of the copy covers the list: a ticker newer than the cutoff was copied or
pushed since, and what was pushed since is spanned by what was copied. -/
theorem Covered.store {s : TickerState} (hcopy : CopyComplete s) (hlate : LateSpanned s)
    {result : TickerMinMaxResult} (hresult : result.extremes = .ofList s.copy.tickers) :
    Covered (s.store result) := by
  intro _ ticker hmem hcovered
  have hextremes : (s.store result).wrapper.extremes = .ofList s.copy.tickers := hresult
  rw [hextremes]
  apply Extremes.contain_ofList
  rcases hcovered with hnewer | hsince
  · rcases hcopy.mem ticker hmem hnewer with hcopied | hsince
    · exact Extremes.spanned_of_mem hcopied
    · exact hlate ticker hsince
  · exact hlate ticker hsince

/-- Nothing less will do: a copy of tickers within bounds that is not late spanned hides a ticker of
the list once its extremes are stored as valid. -/
theorem covered_store_iff {s : TickerState} (hcopy : CopyComplete s)
    (hne : s.copy.tickers ≠ []) (hbounds : ∀ x ∈ s.copy.tickers, Extremes.InBounds x)
    {result : TickerMinMaxResult} (hresult : result.extremes = .ofList s.copy.tickers)
    (hvalid : result.validityMinMax = true) : Covered (s.store result) ↔ LateSpanned s := by
  refine ⟨fun h ticker hsince => ?_, fun hlate => Covered.store hcopy hlate hresult⟩
  have hcontain : result.extremes.Contain ticker :=
    h hvalid ticker (List.mem_of_mem_drop hsince) (Or.inr hsince)
  rw [hresult] at hcontain
  exact (Extremes.contain_ofList_iff hne hbounds).mp hcontain

/-! ## Every interleaving -/

/-- What every step keeps. -/
structure TickerInv (s : TickerState) : Prop where
  covered : Covered s
  complete : CopyComplete s
  stored_le : s.stored.pushes ≤ s.pushes

/-- The subscribers leave the calculator's copy alone. -/
def tickerInterference (W : Type) : Interference (TickerThread W) TickerState where
  inv := TickerInv
  rely
    | none, s, s' => s'.copy = s.copy
    | some _, _, _ => True
  refl
    | none, _ => rfl
    | some _, _ => trivial
  trans
    | none, _, _, _ => fun h₁ h₂ => h₂.trans h₁
    | some _, _, _, _ => fun _ _ => trivial

section Specs

variable {W : Type} {calculateSmaIntervalSeconds : ℕ}

/-- A step of the calculator owes the subscribers nothing but the invariant. -/
theorem respects_calculator {s s' : TickerState} (h : TickerInv s') :
    (tickerInterference W).Respects none s s' := by
  refine ⟨h, fun u hu => ?_⟩
  cases u with
  | none => exact absurd rfl hu
  | some w => trivial

/-- **An update** of a subscriber keeps the invariant. -/
theorem updateTicker_triple (w : W) (ticker : UmTickerInfo) (now : ℕ) :
    Triple (tickerThreads W calculateSmaIntervalSeconds) StoresLateSpanned (tickerInterference W)
      (some w) (fun _ => True)
      (Prog.call (TickerOp.updateTicker ticker now calculateSmaIntervalSeconds))
      fun _ _ => True := by
  refine Triple.call (Interference.Stable.const _ _) fun s hs _ _ s' a he => ?_
  obtain ⟨rfl, -⟩ := Prod.ext_iff.mp (Option.some.inj he)
  refine ⟨⟨⟨?_, ?_, ?_⟩, fun u _ => ?_⟩, trivial⟩
  · exact hs.covered.update hs.stored_le ticker now _
  · exact hs.complete.update ticker now _
  · exact hs.stored_le.trans (Nat.le_succ s.pushes)
  · cases u with
    | none => rfl
    | some v => trivial

/-- **A round** of the calculator keeps the invariant, if it stores only while its copy is late
spanned. -/
theorem processBetaThresholdCalculate_triple (now : ℕ) :
    Triple (tickerThreads W calculateSmaIntervalSeconds) StoresLateSpanned (tickerInterference W)
      none (fun _ => True) (processBetaThresholdCalculate calculateSmaIntervalSeconds now)
      fun _ _ => True := by
  -- the look at the flag tells nothing that lasts
  refine Triple.step (R := fun _ _ => True) (Interference.Stable.const _ _) ?_
    fun minMaxResult => ?_
  · intro s hs _ _ s' a he
    obtain ⟨rfl, -⟩ := Prod.ext_iff.mp (Option.some.inj he)
    exact ⟨respects_calculator hs, trivial⟩
  refine Triple.ite (fun _ => ?_) fun _ => Triple.ret fun _ _ _ => trivial
  refine Triple.step (R := fun tickerList s => s.copy.tickers = tickerList)
    (Interference.Stable.const _ _) ?_ fun tickerList => ?_
  · intro s hs _ _ s' tickerList he
    obtain ⟨rfl, rfl⟩ := Prod.ext_iff.mp (Option.some.inj he)
    exact ⟨respects_calculator ⟨hs.covered, .takeCopy s _, hs.stored_le⟩, rfl⟩
  refine Triple.ite (fun _ => Triple.ret fun _ _ _ => trivial) fun _ => ?_
  refine Triple.step (R := fun _ _ => True) ?_ ?_ fun _ => Triple.ret fun _ _ _ => trivial
  · intro s s' _ _ hrely hcopy
    have hrely : s'.copy = s.copy := hrely
    rw [hrely, hcopy]
  · intro s hs hcopy hlate s' a he
    obtain ⟨rfl, -⟩ := Prod.ext_iff.mp (Option.some.inj he)
    refine ⟨respects_calculator ⟨?_, hs.complete.store _, hs.complete.pushes_le⟩, trivial⟩
    exact Covered.store hs.complete hlate (by rw [hcopy])

end Specs

/-- The proof outline of calculator and subscribers. -/
def tickerOutline (W : Type) (calculateSmaIntervalSeconds : ℕ) :
    Outline (tickerThreads W calculateSmaIntervalSeconds) StoresLateSpanned where
  I := tickerInterference W
  atRest _ _ _ := True
  stable _ _ := Interference.Stable.const _ _
  body
    | none, _, now =>
      Triple.bind (processBetaThresholdCalculate_triple now) fun _ =>
        Triple.ret fun _ _ _ => trivial
    | some w, _, (ticker, now) => updateTicker_triple w ticker now

/-- **Valid extremes hide no ticker**, in every interleaving whose rounds store only while their
copy is late spanned. -/
theorem covered_of_lateSpanned {W : Type} [DecidableEq W] {calculateSmaIntervalSeconds : ℕ} {c}
    (hc : (tickerThreads W calculateSmaIntervalSeconds).Reachable StoresLateSpanned {}
      (fun _ => ()) c) : Covered c.shared := by
  let O := tickerOutline W calculateSmaIntervalSeconds
  have hinv : O.I.inv {} := by
    refine ⟨fun hvalid => ?_, ⟨le_rfl, fun ticker hmem _ => ?_⟩, le_rfl⟩
    · cases hvalid
    · cases hmem
  exact (O.inv hinv (fun _ => trivial) hc).covered

instance {W : Type} (t : TickerThread W) (o : TickerOp) (s : TickerState) :
    Decidable (StoresLateSpanned t o s) := by
  cases o with
  | setMinMaxResult result => exact inferInstanceAs (Decidable (LateSpanned s))
  | _ => exact .isTrue trivial

/-- A ticker of one price at a time. -/
def tickerAt (price : ℚ) (updateTimeMillis : ℕ) : UmTickerInfo where
  bidPrice := price
  askPrice := price
  avgPrice := price
  updateTimeMillis := updateTimeMillis

/-- A second ticker arrives after the store of a round: its price widens the extremes. -/
theorem covered_of_lateSpanned_widened :
    ∃ c, c.shared.wrapper.validityMinMax = true ∧ c.shared.wrapper.tickerList.length = 2 ∧
      Covered c.shared ∧
      (tickerThreads Unit 1).Reachable StoresLateSpanned {} (fun _ => ()) c := by
  let moves : List (System.Move (TickerThread Unit) TickerCall) := List.flatten
    [wholeCall (some ()) (tickerAt 100 5000, 5000) 1, wholeCall none 5001 3,
      beginCall (some ()) (tickerAt 101 5002, 5002) 1]
  obtain ⟨c, hc, hvalid, hlength⟩ :
      ∃ c, (tickerThreads Unit 1).Reachable StoresLateSpanned {} (fun _ => ()) c ∧
        c.shared.wrapper.validityMinMax = true ∧ c.shared.wrapper.tickerList.length = 2 :=
    System.exists_of_schedule moves (by decide +kernel)
  exact ⟨c, hvalid, hlength, covered_of_lateSpanned hc, hc⟩

/-- A ticker arrives between the copy and the store of a round: the extremes stored as valid do not
contain it. -/
theorem hides_late_ticker :
    ¬ ∀ c, (tickerThreads Unit 1).Reachable System.Unrestricted {} (fun _ => ()) c →
      Covered c.shared := by
  intro h
  let moves : List (System.Move (TickerThread Unit) TickerCall) := List.flatten
    [wholeCall (some ()) (tickerAt 100 5000, 5000) 1, beginCall none 5001 2,
      beginCall (some ()) (tickerAt 101 5002, 5002) 1, goOn none 1]
  obtain ⟨c, hc, hvalid, ticker, hmem, hsince, hnot⟩ :
      ∃ c, (tickerThreads Unit 1).Reachable System.Unrestricted {} (fun _ => ()) c ∧
        c.shared.wrapper.validityMinMax = true ∧
        ∃ ticker ∈ c.shared.wrapper.tickerList, ticker ∈ c.shared.since c.shared.stored ∧
          ¬ c.shared.wrapper.extremes.Contain ticker :=
    System.exists_of_schedule moves (by decide +kernel)
  exact hnot (h c hc hvalid ticker hmem (Or.inr hsince))

end UmTaker.Receiver
