import UmTaker.Concurrency.Transcript
import UmTaker.General.Run
import UmTaker.Receiver.TickerCalculate
import Mathlib.Algebra.Order.Field.Basic
import Mathlib.Order.Bounds.Defs
import Mathlib.Tactic.NormNum
import Mathlib.Tactic.Positivity

/-!
# Rounds without interruption

When nothing is pushed during a round of the beta calculator, the extremes that updates keep and
rounds store are those that a recomputation finds: the extremes of tickers still in the list, among
them all that the extremes are meant to cover.

## Main definitions

* `TickerEvent`, `tickerStep`: an update, or a whole round
* `Attained`: each extreme is a price of a ticker in the list
* `ExtremesOf`: minimum and maximum of each price over a list

## Main results

* `attained_updateTicker`: an update invalidates the extremes, or leaves them attained
* `exists_extremesOf`: valid extremes are those of a sublist with all tickers they cover
-/

namespace UmTaker.Receiver

open Concurrency

/-! ## Attained extremes -/

/-- The extremes are those of the list: for each price, its least and its greatest value there. -/
def ExtremesOf (e : Extremes) (tickers : List UmTickerInfo) : Prop :=
  ∀ k, IsLeast {price | ∃ x ∈ tickers, x.price k = price} (e.get k).min ∧
    IsGreatest {price | ∃ x ∈ tickers, x.price k = price} (e.get k).max

/-- Each extreme is a price of a ticker in the list that lies within the extremes. -/
def Attained (e : Extremes) (tickers : List UmTickerInfo) : Prop :=
  ∀ k, (∃ x ∈ tickers, e.Contain x ∧ x.price k = (e.get k).min) ∧
    ∃ x ∈ tickers, e.Contain x ∧ x.price k = (e.get k).max

section Attained

variable {e : Extremes} {tickers : List UmTickerInfo} {ticker : UmTickerInfo}

/-- Attained extremes are those of the tickers that lie within them. -/
theorem Attained.extremesOf (h : Attained e tickers) :
    ExtremesOf e (tickers.filter fun x => decide (e.Contain x)) := by
  intro k
  obtain ⟨⟨low, hlow, hlowIn, hmin⟩, high, hhigh, hhighIn, hmax⟩ := h k
  refine ⟨⟨⟨low, List.mem_filter.mpr ⟨hlow, decide_eq_true hlowIn⟩, hmin⟩, ?_⟩,
    ⟨⟨high, List.mem_filter.mpr ⟨hhigh, decide_eq_true hhighIn⟩, hmax⟩, ?_⟩⟩
  · rintro price ⟨x, hx, rfl⟩
    have hin : e.Contain x := of_decide_eq_true (List.mem_filter.mp hx).2
    exact (hin k).1
  · rintro price ⟨x, hx, rfl⟩
    have hin : e.Contain x := of_decide_eq_true (List.mem_filter.mp hx).2
    exact (hin k).2

/-- The extremes worked out from tickers within bounds are attained by them. -/
theorem attained_ofList (hne : tickers ≠ []) (hbounds : ∀ x ∈ tickers, Extremes.InBounds x) :
    Attained (.ofList tickers) tickers := by
  intro k
  have hmin : (Extremes.cleared.get k).min = doubleMax := by cases k <;> rfl
  have hmax : (Extremes.cleared.get k).max = doubleMin := by cases k <;> rfl
  have hprices : tickers.map (·.price k) ≠ [] := by simpa using hne
  have hcontain : ∀ x ∈ tickers, (Extremes.ofList tickers).Contain x :=
    fun x hx => Extremes.contain_ofList (Extremes.spanned_of_mem hx)
  have hget : (Extremes.ofList tickers).get k =
      (Extremes.cleared.get k).widenAll (tickers.map (·.price k)) :=
    Extremes.get_foldl_widen _ _ _
  constructor
  · have hmem := Hull.widenAll_min_mem (h := Extremes.cleared.get k) hprices (by
      intro y hy
      obtain ⟨x, hx, rfl⟩ := List.mem_map.mp hy
      rw [hmin]
      exact (hbounds x hx k).2)
    obtain ⟨x, hx, hprice⟩ := List.mem_map.mp hmem
    exact ⟨x, hx, hcontain x hx, by rw [hget]; exact hprice⟩
  · have hmem := Hull.widenAll_max_mem (h := Extremes.cleared.get k) hprices (by
      intro y hy
      obtain ⟨x, hx, rfl⟩ := List.mem_map.mp hy
      rw [hmax]
      exact (hbounds x hx k).1)
    obtain ⟨x, hx, hprice⟩ := List.mem_map.mp hmem
    exact ⟨x, hx, hcontain x hx, by rw [hget]; exact hprice⟩

theorem Attained.mono {others : List UmTickerInfo} (h : Attained e tickers)
    (hsub : tickers ⊆ others) : Attained e others := by
  intro k
  obtain ⟨⟨low, hlow, hmin⟩, high, hhigh, hmax⟩ := h k
  exact ⟨⟨low, hsub hlow, hmin⟩, high, hsub hhigh, hmax⟩

/-- Widened by a new ticker, the extremes are attained by it or by the old ones. -/
theorem Attained.widen (h : Attained e tickers) (ticker : UmTickerInfo) :
    Attained (e.widen ticker) (tickers ++ [ticker]) := by
  intro k
  obtain ⟨⟨low, hlow, hlowIn, hmin⟩, high, hhigh, hhighIn, hmax⟩ := h k
  have hnew : ticker ∈ tickers ++ [ticker] := List.mem_append_right _ (List.mem_singleton_self _)
  rw [Extremes.get_widen]
  constructor
  · rcases Hull.widen_min_eq_or (e.get k) (ticker.price k) with hold | hself
    · exact ⟨low, List.mem_append_left _ hlow, hlowIn.widen ticker, hmin.trans hold.symm⟩
    · exact ⟨ticker, hnew, Extremes.contain_widen_self e ticker, hself.symm⟩
  · rcases Hull.widen_max_eq_or (e.get k) (ticker.price k) with hold | hself
    · exact ⟨high, List.mem_append_left _ hhigh, hhighIn.widen ticker, hmax.trans hold.symm⟩
    · exact ⟨ticker, hnew, Extremes.contain_widen_self e ticker, hself.symm⟩

/-- A ticker that reaches no extreme has all its prices strictly between them. -/
theorem between_of_not_reachedBy (h : e.reachedBy ticker = false) (k : PriceKind) :
    (e.get k).min < ticker.price k ∧ ticker.price k < (e.get k).max := by
  simp only [Extremes.reachedBy, Bool.or_eq_false_iff, decide_eq_false_iff_not, not_le] at h
  obtain ⟨⟨⟨⟨⟨hbidMax, hbidMin⟩, haskMax⟩, haskMin⟩, havgMax⟩, havgMin⟩ := h
  cases k with
  | bid => exact ⟨hbidMin, hbidMax⟩
  | ask => exact ⟨haskMin, haskMax⟩
  | avg => exact ⟨havgMin, havgMax⟩

/-- A front ticker that reaches no extreme is not needed. -/
theorem Attained.of_cons (h : Attained e (ticker :: tickers))
    (hreached : e.reachedBy ticker = false) : Attained e tickers := by
  intro k
  obtain ⟨⟨low, hlow, hlowIn, hmin⟩, high, hhigh, hhighIn, hmax⟩ := h k
  obtain ⟨hgt, hlt⟩ := between_of_not_reachedBy hreached k
  constructor
  · rcases List.mem_cons.mp hlow with rfl | hlow
    · exact absurd hmin hgt.ne'
    · exact ⟨low, hlow, hlowIn, hmin⟩
  · rcases List.mem_cons.mp hhigh with rfl | hhigh
    · exact absurd hmax hlt.ne
    · exact ⟨high, hhigh, hhighIn, hmax⟩

/-- The eviction leaves valid extremes attained. -/
theorem attained_evict {now remainSeconds : ℕ} {w : TickerWrapper}
    (h : w.validityMinMax = true → Attained w.extremes tickers)
    (hvalid : (TickerWrapper.evict now remainSeconds tickers w).validityMinMax = true) :
    Attained (TickerWrapper.evict now remainSeconds tickers w).extremes
      (TickerWrapper.evict now remainSeconds tickers w).tickerList := by
  induction tickers generalizing w with
  | nil => exact h hvalid
  | cons front rest ih =>
    unfold TickerWrapper.evict at hvalid ⊢
    split_ifs at hvalid ⊢ with hexpired hreached
    · refine ih (w := w.clearMinMax) (fun hcleared => ?_) hvalid
      simp [TickerWrapper.clearMinMax] at hcleared
    · refine ih (fun hw => (h hw).of_cons ?_) hvalid
      exact Bool.eq_false_iff.mpr hreached
    · exact h hvalid

/-- **An update** invalidates the extremes, or leaves them attained. -/
theorem attained_updateTicker {w : TickerWrapper} {now remainSeconds : ℕ}
    (h : w.validityMinMax = true → Attained w.extremes w.tickerList)
    (hvalid : (w.updateTicker ticker now remainSeconds).validityMinMax = true) :
    Attained (w.updateTicker ticker now remainSeconds).extremes
      (w.updateTicker ticker now remainSeconds).tickerList := by
  refine attained_evict (fun hw => ?_) hvalid
  have hw : w.validityMinMax = true := hw
  show Attained (if w.validityMinMax then w.extremes.widen ticker else w.extremes) _
  rw [if_pos hw]
  exact (h hw).widen ticker

end Attained

/-! ## Runs -/

/-- A subscriber's update, or a whole round of the calculator. -/
inductive TickerEvent
  | update (ticker : UmTickerInfo) (now remainSeconds : ℕ)
  | round (now : ℕ)

/-- One event: a round runs alone. -/
def tickerStep (calculateSmaIntervalSeconds : ℕ) (s : TickerState) : TickerEvent → TickerState
  | .update ticker now remainSeconds => s.update ticker now remainSeconds
  | .round now =>
    ((processBetaThresholdCalculate calculateSmaIntervalSeconds now).alone
      (fun o s => some (tickerExec o s)) s).elim s (·.1)

/-- The ticker of an update has prices within the sentinels. -/
def EventInBounds : TickerEvent → Prop
  | .update ticker _ _ => Extremes.InBounds ticker
  | .round _ => True

section Rounds

variable {n : ℕ} {s : TickerState}

/-- A round leaves the wrapper as it is, or stores the extremes of the tickers it copies. -/
theorem tickerStep_round (s : TickerState) (now : ℕ) :
    tickerStep n s (.round now) = s ∨ ∃ cutoff,
      tickerStep n s (.round now) = s.takeCopy cutoff ∨
        n ≤ (s.takeCopy cutoff).copy.tickers.length ∧ ∃ result : TickerMinMaxResult,
          result.extremes = .ofList (s.takeCopy cutoff).copy.tickers ∧
            tickerStep n s (.round now) = (s.takeCopy cutoff).store result := by
  simp only [tickerStep, processBetaThresholdCalculate, Prog.call_bind, Prog.pure_eq_ret]
  rw [Prog.alone_perform rfl]
  split_ifs with hstale
  · refine Or.inr ⟨u64 (now - n * 1000), ?_⟩
    rw [Prog.alone_perform rfl]
    split_ifs with hfew
    · exact Or.inl rfl
    · refine Or.inr ⟨not_lt.mp hfew, { s.wrapper.getMinMaxResult with
        extremes := .ofList (s.takeCopy (u64 (now - n * 1000))).copy.tickers
        validityMinMax := true }, rfl, ?_⟩
      rw [Prog.alone_perform rfl]
      rfl
  · exact Or.inl rfl

/-- What updates and rounds keep: the valid extremes are attained, and hide no ticker. -/
structure Exact (s : TickerState) : Prop where
  pushes_le : s.stored.pushes ≤ s.pushes
  inBounds : ∀ x ∈ s.wrapper.tickerList, Extremes.InBounds x
  covered : Covered s
  attained : s.wrapper.validityMinMax = true →
    Attained s.wrapper.extremes s.wrapper.tickerList

theorem exact_empty : Exact {} where
  pushes_le := le_rfl
  inBounds := by
    intro x hx
    cases hx
  covered := by
    rintro ⟨⟩
  attained := by
    rintro ⟨⟩

theorem Exact.update (h : Exact s) {ticker : UmTickerInfo} (hticker : Extremes.InBounds ticker)
    (now remainSeconds : ℕ) : Exact (s.update ticker now remainSeconds) where
  pushes_le := h.pushes_le.trans (Nat.le_succ s.pushes)
  inBounds := by
    intro x hx
    rcases TickerState.mem_update hx with hold | rfl
    · exact h.inBounds x hold
    · exact hticker
  covered := h.covered.update h.pushes_le ticker now remainSeconds
  attained := attained_updateTicker h.attained

/-- Nothing is pushed between the copy of a round and its store. -/
theorem lateSpanned_takeCopy (s : TickerState) (cutoff : ℕ) : LateSpanned (s.takeCopy cutoff) := by
  intro ticker hsince
  simp [TickerState.since, TickerState.takeCopy] at hsince

/-- The store of a round, right after its copy. -/
theorem Exact.store (h : Exact s) (cutoff : ℕ) (hn : 1 ≤ n)
    (hlength : n ≤ (s.takeCopy cutoff).copy.tickers.length) {result : TickerMinMaxResult}
    (hresult : result.extremes = .ofList (s.takeCopy cutoff).copy.tickers) :
    Exact ((s.takeCopy cutoff).store result) where
  pushes_le := le_rfl
  inBounds := h.inBounds
  covered := Covered.store (.takeCopy s cutoff) (lateSpanned_takeCopy s cutoff) hresult
  attained := by
    intro _
    have hsub : (s.takeCopy cutoff).copy.tickers ⊆ s.wrapper.tickerList :=
      fun x hx => (List.mem_filter.mp hx).1
    have hne : (s.takeCopy cutoff).copy.tickers ≠ [] := by
      rw [← List.length_pos_iff]
      omega
    have hattained := attained_ofList hne fun x hx => h.inBounds x (hsub hx)
    rw [← hresult] at hattained
    exact hattained.mono hsub

/-- **Every event** keeps valid extremes exact. -/
theorem Exact.step (h : Exact s) (hn : 1 ≤ n) {e : TickerEvent} (he : EventInBounds e) :
    Exact (tickerStep n s e) := by
  cases e with
  | update ticker now remainSeconds => exact h.update he now remainSeconds
  | round now =>
    rcases tickerStep_round (n := n) s now with
      heq | ⟨cutoff, heq | ⟨hlength, result, hresult, heq⟩⟩
    · rw [heq]
      exact h
    · rw [heq]
      exact ⟨h.pushes_le, h.inBounds, h.covered, h.attained⟩
    · rw [heq]
      exact h.store cutoff hn hlength hresult

/-- **Incremental extremes are those of a recomputation**: after any updates and uninterrupted
rounds, extremes that are valid are attained in the list and are those of a sublist with every
ticker newer than the cutoff of the last stored result and every ticker pushed since. -/
theorem exists_extremesOf (hn : 1 ≤ n) (es : List TickerEvent)
    (hbounds : ∀ e ∈ es, EventInBounds e)
    (hvalid : (Run.after (tickerStep n) {} es).wrapper.validityMinMax = true) :
    ∃ tickers, tickers.Sublist (Run.after (tickerStep n) {} es).wrapper.tickerList ∧
      (∀ ticker ∈ (Run.after (tickerStep n) {} es).wrapper.tickerList,
        (Run.after (tickerStep n) {} es).stored.cutoff < ticker.updateTimeMillis ∨
            ticker ∈ (Run.after (tickerStep n) {} es).since
              (Run.after (tickerStep n) {} es).stored →
          ticker ∈ tickers) ∧
      ExtremesOf (Run.after (tickerStep n) {} es).wrapper.extremes tickers := by
  have hevery : Run.Every (tickerStep n) {} (fun _ e => EventInBounds e) es :=
    fun before e hp => hbounds e (hp.subset (List.mem_append_right _ (List.mem_singleton_self e)))
  have hexact : Exact (Run.after (tickerStep n) {} es) :=
    hevery.after_invariant exact_empty fun s e hs he => hs.step hn he
  refine ⟨_, List.filter_sublist, fun ticker hmem hcovered => ?_,
    (hexact.attained hvalid).extremesOf⟩
  exact List.mem_filter.mpr ⟨hmem, decide_eq_true (hexact.covered hvalid ticker hmem hcovered)⟩

/-- Prices from one to a million are within the sentinels. -/
theorem inBounds_tickerAt {price : ℚ} (hmin : 1 ≤ price) (hmax : price ≤ 1000000)
    (updateTimeMillis : ℕ) : Extremes.InBounds (tickerAt price updateTimeMillis) := by
  have hlow : doubleMin ≤ 1 := by
    rw [doubleMin, div_le_one (by positivity)]
    exact one_le_pow₀ (by norm_num)
  have hhigh : (1000000 : ℚ) ≤ doubleMax := by
    have hscale : (1 : ℚ) ≤ 2 ^ 971 := one_le_pow₀ (by norm_num)
    calc (1000000 : ℚ) ≤ (2 ^ 53 - 1) * 1 := by norm_num
      _ ≤ (2 ^ 53 - 1) * 2 ^ 971 := mul_le_mul_of_nonneg_left hscale (by norm_num)
  intro k
  cases k <;> exact ⟨hlow.trans hmin, hmax.trans hhigh⟩

/-- Two tickers, with a round between them: the extremes are those of both. -/
theorem exists_extremesOf_two :
    ∃ tickers : List UmTickerInfo, tickers.Sublist [tickerAt 100 5000, tickerAt 101 5002] ∧
      ExtremesOf ((Extremes.ofList [tickerAt 100 5000]).widen (tickerAt 101 5002)) tickers := by
  obtain ⟨tickers, hsub, -, hextremes⟩ := exists_extremesOf le_rfl
    [.update (tickerAt 100 5000) 5000 1, .round 5001, .update (tickerAt 101 5002) 5002 1]
    (by
      intro e he
      simp only [List.mem_cons, List.not_mem_nil, or_false] at he
      rcases he with rfl | rfl | rfl
      · exact inBounds_tickerAt (by norm_num) (by norm_num) 5000
      · trivial
      · exact inBounds_tickerAt (by norm_num) (by norm_num) 5002)
    (by decide +kernel)
  exact ⟨tickers, hsub, hextremes⟩

end Rounds

end UmTaker.Receiver
