import UmTaker.Concurrency.History
import UmTaker.Evaluator.OrderStatManager
import UmTaker.General.LastOccurrence

/-!
# Where the statistics come from

Whatever the threads of the evaluator do meanwhile, no number in the statistics of an order is made
up: the order is one that was loaded or received, its fill is one of those received for it, and each
horizon is as it was loaded or was sampled of the newest ticker of its symbol after a clock reading
at which the order was old enough.

## Main definitions

* `StatFact`, `noteStat`: what the history of the evaluator holds
* `Quoted`: the newest ticker of a symbol at some time after a clock reading
* `RoundBegan`: the clock reading with which the last round began
* `Honest`, `SavedHonestly`: a record that goes back to the history, and one that was saved

## Main results

* `entry_calculateOrderPnl`: which horizons sampling fills, and with what
* `statistics_honest`: every record in memory and every record saved goes back to the history
-/

namespace UmTaker.Evaluator

open Concurrency Concurrency.System.Move

/-! ## The history -/

/-- What the statistics go back to: a fill or a ticker that was received; and of the polling thread,
a reading of the clock, the copy of all records, and a record that was saved. -/
inductive StatFact
  | fill (lite : StatOrderLite)
  | ticker (lite : TickerLite)
  | reading (now : ℕ)
  | copied
  | saved (info : StatOrderFullInfo)
  deriving DecidableEq

/-- What an operation of a thread is noted for. -/
def noteStat {W : Type} : StatUser W → (o : StatOp) → StatAns o → List StatFact
  | .polling, .now, now => [.reading now]
  | .polling, .getAllStatOrders, _ => [.copied]
  | _, .updateWithLite lite, _ => [.fill lite]
  | _, .saveOrderStat info, saved => if saved then [.saved info] else []
  | _, .world (.updateTicker lite), _ => [.ticker lite]
  | _, _, _ => []

/-- The evaluator with its history. -/
abbrev notedEvaluator (W : Type) := (evaluator W).withHistory fun t o _ a => noteStat t o a

/-- A reading of the clock. -/
def IsReading (e : StatFact) : Prop := ∃ now, e = .reading now

/-- The copy of all records, with which a round begins once it has read the clock. -/
def IsCopied (e : StatFact) : Prop := e = .copied

/-- The events that are noted for a thread alone. -/
def statOwn {W : Type} : StatUser W → StatFact → Prop
  | .polling, e => IsReading e ∨ IsCopied e
  | _, _ => False

/-- The last round began with this reading of the clock: its copy of all records is the last one,
and the reading the last one before it. -/
def RoundBegan (now : ℕ) (H : List StatFact) : Prop :=
  Since IsCopied .copied (Since IsReading (.reading now) fun _ => True) H

/-- A round began with one reading. -/
theorem RoundBegan.unique {now now' : ℕ} {H : List StatFact} (h : RoundBegan now H)
    (h' : RoundBegan now' H) : now = now' := by
  obtain ⟨H₀, H₁, hsplit, hlast, R₀, R₁, hreading, hlastReading, -⟩ := h
  obtain ⟨H₀', H₁', hsplit', hlast', R₀', R₁', hreading', hlastReading', -⟩ := h'
  obtain ⟨hsame, -⟩ :=
    LastOccurrence.split_unique (p := IsCopied) (hsplit.symm.trans hsplit') rfl rfl hlast hlast'
  rw [hreading, hreading'] at hsame
  obtain ⟨-, hnow, -⟩ :=
    LastOccurrence.split_unique hsame ⟨now, rfl⟩ ⟨now', rfl⟩ hlastReading hlastReading'
  exact StatFact.reading.inj hnow

theorem RoundBegan.mem {now : ℕ} {H : List StatFact} (h : RoundBegan now H) :
    StatFact.reading now ∈ H := by
  obtain ⟨H₀, H₁, rfl, -, R₀, R₁, rfl, -⟩ := h
  simp

/-- The tickers received so far. -/
def receivedTickers (H : List StatFact) : List TickerLite :=
  H.filterMap fun
    | .ticker lite => some lite
    | _ => none

theorem receivedTickers_snoc (H : List StatFact) (lite : TickerLite) :
    receivedTickers (H ++ [.ticker lite]) = receivedTickers H ++ [lite] := by
  simp [receivedTickers]

/-! ## Records that go back to it -/

namespace StatOrderFullInfo

/-- What a record says of its order, apart from fill and samples. -/
def identity (info : StatOrderFullInfo) : String × String × String × String × ℚ × ℕ :=
  (info.accountFlag, info.symbol, info.orderSide, info.clientOrderId, info.commissionRate,
    info.systemTimestamp)

/-- Price and profit at a horizon. -/
def entry (info : StatOrderFullInfo) (h : Horizon) : ℚ × ℚ :=
  (info.priceAfter h, info.pnlPercentage h)

end StatOrderFullInfo

/-- The price at which a filled order could be closed. -/
def TickerLite.closingPrice (orderSide : String) (ticker : TickerLite) : ℚ :=
  if orderSide == orderSideBuy then ticker.ask else ticker.bid

/-- The profit that an order filled at an average price has at a price. The price is not zero, and
the profit is one that can be cut: the code divides floating-point numbers and cuts through an
integer. -/
def pnlPercentageAt (orderSide : String) (commissionRate averagePrice price : ℚ) : ℚ :=
  decimalProcess ((price - averagePrice) / averagePrice *
    (if orderSide == orderSideBuy then 1 else -1) - commissionRate) 5

/-- A record as it came in: loaded, or made of a fill received. -/
def Origin (rows : List (StatOrderFullInfo × ℕ)) (H : List StatFact)
    (first : StatOrderFullInfo) : Prop :=
  first ∈ rows.map Prod.fst ∨ ∃ lite, StatFact.fill lite ∈ H ∧ first = .ofLite lite

/-- The newest ticker of a symbol at some time after a clock reading. -/
def Quoted (H : List StatFact) (now : ℕ) (symbol : String) (ticker : TickerLite) : Prop :=
  ∃ H₀, H₀ <+: H ∧ StatFact.reading now ∈ H₀ ∧
    newestTicker (receivedTickers H₀) symbol = some ticker

/-- A horizon was sampled: of a ticker newest after the order had reached its age, and for a fill
received of the order. -/
def SampledEntry (rows : List (StatOrderFullInfo × ℕ)) (H : List StatFact)
    (info : StatOrderFullInfo) (h : Horizon) : Prop :=
  ∃ now ticker first, Quoted H now info.symbol ticker ∧ info.systemTimestamp + h.seconds ≤ now ∧
    Origin rows H first ∧ first.clientOrderId = info.clientOrderId ∧
    info.entry h = (ticker.closingPrice info.orderSide, pnlPercentageAt info.orderSide
      info.commissionRate first.averagePrice (ticker.closingPrice info.orderSide))

/-- A record goes back to the history: its order and the horizons not sampled to one record as it
came in, its fill to one for the same order, and each horizon sampled to a ticker. -/
structure Honest (rows : List (StatOrderFullInfo × ℕ)) (H : List StatFact)
    (info : StatOrderFullInfo) : Prop where
  fill : ∃ first, Origin rows H first ∧ first.clientOrderId = info.clientOrderId ∧
    first.fill = info.fill
  order : ∃ first, Origin rows H first ∧ first.identity = info.identity ∧
    ∀ h, info.entry h = first.entry h ∨ SampledEntry rows H info h

/-- Every horizon that the order is old enough for has a price, unless the ticker quoted none. -/
def SampledThrough (rows : List (StatOrderFullInfo × ℕ)) (H : List StatFact) (now : ℕ)
    (info : StatOrderFullInfo) : Prop :=
  ∀ h, info.systemTimestamp + h.seconds ≤ now →
    info.priceAfter h ≠ 0 ∨ SampledEntry rows H info h

/-- A record that was saved goes back to what happened before, and lacks no horizon that its order
was old enough for at the reading with which the round began. -/
structure SavedHonestly (rows : List (StatOrderFullInfo × ℕ)) (H : List StatFact)
    (info : StatOrderFullInfo) : Prop where
  honest : Honest rows H info
  through : ∃ now, RoundBegan now H ∧ info.systemTimestamp < now ∧
    SampledThrough rows H now info

section Growth

variable {rows : List (StatOrderFullInfo × ℕ)} {info info' : StatOrderFullInfo} {h : Horizon}

theorem lasting_origin (first : StatOrderFullInfo) : Lasting fun H => Origin rows H first := by
  intro H H' hpre hfirst
  refine hfirst.imp_right ?_
  rintro ⟨lite, hlite, rfl⟩
  exact ⟨lite, hpre.subset hlite, rfl⟩

theorem lasting_quoted (now : ℕ) (symbol : String) (ticker : TickerLite) :
    Lasting fun H => Quoted H now symbol ticker :=
  lasting_once _

theorem lasting_sampledEntry (info : StatOrderFullInfo) (h : Horizon) :
    Lasting fun H => SampledEntry rows H info h :=
  .exists fun now => .exists fun ticker => .exists fun first =>
    (lasting_quoted now info.symbol ticker).and
      (.and (.const _) ((lasting_origin first).and (.const _)))

theorem lasting_honest (info : StatOrderFullInfo) : Lasting fun H => Honest rows H info := by
  rintro H H' hpre ⟨⟨filled, hfilled, hfill⟩, first, hfirst, hidentity, hentries⟩
  refine ⟨⟨filled, lasting_origin filled H H' hpre hfilled, hfill⟩, first,
    lasting_origin first H H' hpre hfirst, hidentity, fun h => ?_⟩
  exact (hentries h).imp_right (lasting_sampledEntry info h H H' hpre)

theorem lasting_sampledThrough (now : ℕ) (info : StatOrderFullInfo) :
    Lasting fun H => SampledThrough rows H now info := by
  intro H H' hpre hthrough h hage
  exact (hthrough h hage).imp_right (lasting_sampledEntry info h H H' hpre)

/-- A sample is one of every record of the order with the same entry. -/
theorem SampledEntry.congr {H : List StatFact} (hs : SampledEntry rows H info h)
    (hidentity : info'.identity = info.identity) (hentry : info'.entry h = info.entry h) :
    SampledEntry rows H info' h := by
  simp only [StatOrderFullInfo.identity, Prod.mk.injEq] at hidentity
  obtain ⟨-, hsymbol, hside, hid, hrate, htime⟩ := hidentity
  rw [SampledEntry, hsymbol, hside, hid, hrate, htime, hentry]
  exact hs

/-- Of a record, only order, fill and entries matter. -/
theorem Honest.congr {H : List StatFact} (hs : Honest rows H info)
    (hidentity : info'.identity = info.identity) (hfill : info'.fill = info.fill)
    (hentry : ∀ h, info'.entry h = info.entry h) : Honest rows H info' := by
  have hid : info'.clientOrderId = info.clientOrderId := by
    simp only [StatOrderFullInfo.identity, Prod.mk.injEq] at hidentity
    exact hidentity.2.2.2.1
  obtain ⟨filled, hfilled, hsame⟩ := hs.fill
  obtain ⟨first, hfirst, horder, hentries⟩ := hs.order
  refine ⟨⟨filled, hfilled, by rw [hid, hfill]; exact hsame⟩, first, hfirst,
    horder.trans hidentity.symm, fun h => ?_⟩
  rw [hentry h]
  exact (hentries h).imp_right fun hsampled => hsampled.congr hidentity (hentry h)

/-- A record as it came in. -/
theorem Origin.honest {H : List StatFact} {first : StatOrderFullInfo}
    (hfirst : Origin rows H first) : Honest rows H first :=
  ⟨⟨first, hfirst, rfl, rfl⟩, first, hfirst, rfl, fun _ => Or.inl rfl⟩

/-- A later fill of the order. -/
theorem Honest.withFill {H : List StatFact} (hs : Honest rows H info) {lite : StatOrderLite}
    (hlite : StatFact.fill lite ∈ H) (hid : lite.clientOrderId = info.clientOrderId) :
    Honest rows H (info.withFill lite) where
  fill := ⟨.ofLite lite, Or.inr ⟨lite, hlite, rfl⟩, hid, rfl⟩
  order := hs.order

end Growth

/-! ## Sampling -/

section Sampling

variable (timeRange : ℤ) (price pnl : ℚ)

theorem entry_sampleHorizon (info : StatOrderFullInfo) (h₀ h : Horizon) :
    (sampleHorizon timeRange price pnl info h₀).entry h =
      if h = h₀ ∧ (h₀.seconds : ℤ) ≤ timeRange ∧ info.priceAfter h₀ = 0 then (price, pnl)
      else info.entry h := by
  unfold sampleHorizon
  by_cases hdue : (h₀.seconds : ℤ) ≤ timeRange ∧ info.priceAfter h₀ = 0
  · rw [if_pos hdue]
    by_cases hsame : h = h₀
    · subst hsame
      simp [StatOrderFullInfo.entry, hdue]
    · simp [StatOrderFullInfo.entry, hsame]
  · rw [if_neg hdue, if_neg fun hall => hdue hall.2]

/-- The loop over the horizons fills those that were due and had no price. -/
theorem entry_foldl_sampleHorizon (hs : List Horizon) (info : StatOrderFullInfo) (h : Horizon) :
    (hs.foldl (sampleHorizon timeRange price pnl) info).entry h =
      if h ∈ hs ∧ (h.seconds : ℤ) ≤ timeRange ∧ info.priceAfter h = 0 then (price, pnl)
      else info.entry h := by
  induction hs generalizing info with
  | nil => simp
  | cons h₀ hs ih =>
    rw [List.foldl_cons, ih, entry_sampleHorizon]
    have hprice := congrArg Prod.fst (entry_sampleHorizon timeRange price pnl info h₀ h)
    by_cases hsame : h = h₀
    · subst hsame
      by_cases hdue : (h.seconds : ℤ) ≤ timeRange ∧ info.priceAfter h = 0
      · simp [hdue]
      · have hkept :
            (sampleHorizon timeRange price pnl info h).priceAfter h = info.priceAfter h := by
          rw [if_neg fun hall => hdue hall.2] at hprice
          exact hprice
        rw [hkept]
        simp [hdue]
    · have hkept :
          (sampleHorizon timeRange price pnl info h₀).priceAfter h = info.priceAfter h := by
        rw [if_neg fun hall => hsame hall.1] at hprice
        exact hprice
      rw [hkept]
      simp [hsame]

theorem identity_foldl_sampleHorizon (hs : List Horizon) (info : StatOrderFullInfo) :
    (hs.foldl (sampleHorizon timeRange price pnl) info).identity = info.identity := by
  induction hs generalizing info with
  | nil => rfl
  | cons h₀ hs ih =>
    rw [List.foldl_cons, ih, sampleHorizon]
    split_ifs <;> rfl

end Sampling

/-- **Which horizons sampling fills**, and with what. -/
theorem entry_calculateOrderPnl (now : ℕ) (ticker : TickerLite) (info : StatOrderFullInfo)
    (h : Horizon) :
    (calculateOrderPnl now ticker info).entry h =
      if info.systemTimestamp + h.seconds ≤ now ∧ info.priceAfter h = 0 then
        (ticker.closingPrice info.orderSide, pnlPercentageAt info.orderSide info.commissionRate
          info.averagePrice (ticker.closingPrice info.orderSide))
      else info.entry h := by
  have hall : h ∈ Horizon.all := by cases h <;> decide
  have hage : (h.seconds : ℤ) ≤ (now : ℤ) - info.systemTimestamp ↔
      info.systemTimestamp + h.seconds ≤ now := by omega
  have hentry := entry_foldl_sampleHorizon ((now : ℤ) - info.systemTimestamp)
    (ticker.closingPrice info.orderSide) (pnlPercentageAt info.orderSide info.commissionRate
      info.averagePrice (ticker.closingPrice info.orderSide)) Horizon.all info h
  simp only [hall, hage, true_and] at hentry
  exact hentry

theorem identity_calculateOrderPnl (now : ℕ) (ticker : TickerLite) (info : StatOrderFullInfo) :
    (calculateOrderPnl now ticker info).identity = info.identity :=
  identity_foldl_sampleHorizon ..

section Rounds

variable {rows : List (StatOrderFullInfo × ℕ)} {H : List StatFact} {info : StatOrderFullInfo}
  {now : ℕ} {ticker : TickerLite}

/-- A horizon that was due is sampled. -/
theorem sampledEntry_calculateOrderPnl (hs : Honest rows H info)
    (hquoted : Quoted H now info.symbol ticker) {h : Horizon}
    (hage : info.systemTimestamp + h.seconds ≤ now) (hnone : info.priceAfter h = 0) :
    SampledEntry rows H (calculateOrderPnl now ticker info) h := by
  have hidentity := identity_calculateOrderPnl now ticker info
  simp only [StatOrderFullInfo.identity, Prod.mk.injEq] at hidentity
  obtain ⟨-, hsymbol, hside, hid, hrate, htime⟩ := hidentity
  obtain ⟨filled, hfilled, hsame, hfill⟩ := hs.fill
  have haverage : filled.averagePrice = info.averagePrice := congrArg Prod.snd hfill
  refine ⟨now, ticker, filled, ?_, ?_, hfilled, hsame.trans hid.symm, ?_⟩
  · rw [hsymbol]
    exact hquoted
  · rw [htime]
    exact hage
  · rw [entry_calculateOrderPnl, if_pos ⟨hage, hnone⟩, hside, hrate, haverage]

/-- **Sampling keeps a record honest.** -/
theorem Honest.calculateOrderPnl (hs : Honest rows H info)
    (hquoted : Quoted H now info.symbol ticker) :
    Honest rows H (calculateOrderPnl now ticker info) := by
  have hspec := calculateOrderPnl_spec now ticker info
  have hidentity := identity_calculateOrderPnl now ticker info
  obtain ⟨filled, hfilled, hsame, hfill⟩ := hs.fill
  obtain ⟨first, hfirst, horder, hentries⟩ := hs.order
  refine ⟨⟨filled, hfilled, hsame.trans hspec.clientOrderId.symm, hfill.trans hspec.fill.symm⟩,
    first, hfirst, horder.trans hidentity.symm, fun h => ?_⟩
  by_cases hdue : info.systemTimestamp + h.seconds ≤ now ∧ info.priceAfter h = 0
  · exact Or.inr (sampledEntry_calculateOrderPnl hs hquoted hdue.1 hdue.2)
  · have hentry : (Evaluator.calculateOrderPnl now ticker info).entry h = info.entry h := by
      rw [entry_calculateOrderPnl, if_neg hdue]
    rw [hentry]
    exact (hentries h).imp_right fun hsampled => hsampled.congr hidentity hentry

/-- Sampling leaves no horizon out that the order is old enough for. -/
theorem sampledThrough_calculateOrderPnl (hs : Honest rows H info)
    (hquoted : Quoted H now info.symbol ticker) :
    SampledThrough rows H now (calculateOrderPnl now ticker info) := by
  intro h hage
  have htime : (calculateOrderPnl now ticker info).systemTimestamp = info.systemTimestamp := by
    have hidentity := identity_calculateOrderPnl now ticker info
    simp only [StatOrderFullInfo.identity, Prod.mk.injEq] at hidentity
    exact hidentity.2.2.2.2.2
  rw [htime] at hage
  by_cases hnone : info.priceAfter h = 0
  · exact Or.inr (sampledEntry_calculateOrderPnl hs hquoted hage hnone)
  · left
    have hentry := congrArg Prod.fst (entry_calculateOrderPnl now ticker info h)
    rw [if_neg fun hdue => hnone hdue.2] at hentry
    have hprice : (calculateOrderPnl now ticker info).priceAfter h = info.priceAfter h := hentry
    rw [hprice]
    exact hnone

end Rounds

/-! ## The invariant -/

/-- The store holds the newest ticker of each symbol, and every record in memory and every record
saved goes back to the history. -/
structure StatHonest (rows : List (StatOrderFullInfo × ℕ)) (s : EvaluatorState)
    (H : List StatFact) : Prop where
  tickers : ∀ symbol, s.tickerMap symbol = newestTicker (receivedTickers H) symbol
  memory : ∀ id info, s.statOrderMap.lookup id = some info →
    info.clientOrderId = id ∧ Honest rows H info
  saves : Justified (fun H e => ∀ info, e = StatFact.saved info → SavedHonestly rows H info) H

section Invariant

variable {rows : List (StatOrderFullInfo × ℕ)} {s : EvaluatorState} {H : List StatFact}

/-- What is loaded is one of the rows. -/
theorem mem_of_lookup_loadStatOrders {id : String} {info : StatOrderFullInfo}
    (h : (StatOrderMap.loadStatOrders rows).lookup id = some info) :
    info.clientOrderId = id ∧ info ∈ rows.map Prod.fst := by
  refine ⟨StatOrderMap.keyed_loadStatOrders rows id info h, ?_⟩
  -- the map holds records of the rows loaded so far, and of those before
  suffices hload : ∀ (rows' : List (StatOrderFullInfo × ℕ)) (m : StatOrderMap),
      (∀ id info, m.lookup id = some info → info ∈ rows.map Prod.fst) → rows' ⊆ rows →
      ∀ id info, (rows'.foldl (fun m row => m.updateWithFullInfo row.1 row.2) m).lookup id =
        some info → info ∈ rows.map Prod.fst by
    refine hload rows ∅ (fun id info hnone => ?_) (List.Subset.refl _) id info h
    simp at hnone
  intro rows'
  induction rows' with
  | nil => exact fun m hm _ => hm
  | cons row rows' ih =>
    intro m hm hsub
    obtain ⟨hrow, hrest⟩ := List.cons_subset.mp hsub
    refine ih _ (fun id info hlookup => ?_) hrest
    have hstep : (if row.1.expired row.2 then m else m.setFullInfo row.1).lookup id = some info :=
      hlookup
    split_ifs at hstep
    · exact hm id info hstep
    · rw [StatOrderMap.lookup_setFullInfo] at hstep
      split_ifs at hstep
      · rw [← Option.some.inj hstep]
        exact List.mem_map_of_mem hrow
      · exact hm id info hstep

theorem statHonest_start (rows : List (StatOrderFullInfo × ℕ)) (now : ℕ) :
    StatHonest rows (evaluatorStart rows now) [] where
  tickers symbol := rfl
  memory id info hinfo := by
    obtain ⟨hid, hmem⟩ := mem_of_lookup_loadStatOrders hinfo
    exact ⟨hid, Origin.honest (Or.inl hmem)⟩
  saves := .nil _

/-- A fact that is no ticker, and justified if it is a save. -/
theorem StatHonest.note (h : StatHonest rows s H) {s' : EvaluatorState} {e : StatFact}
    (htickers : s'.tickerMap = s.tickerMap) (he : ∀ lite, e ≠ .ticker lite)
    (hmemory : ∀ id info, s'.statOrderMap.lookup id = some info →
      info.clientOrderId = id ∧ Honest rows (H ++ [e]) info)
    (hsave : ∀ info, e = .saved info → SavedHonestly rows H info) :
    StatHonest rows s' (H ++ [e]) where
  tickers symbol := by
    have hreceived : receivedTickers (H ++ [e]) = receivedTickers H := by
      cases e with
      | ticker lite => exact absurd rfl (he lite)
      | _ => simp [receivedTickers]
    rw [htickers, hreceived]
    exact h.tickers symbol
  memory := hmemory
  saves := h.saves.snoc hsave

/-- The records in memory stay honest when something happens. -/
theorem StatHonest.memory_snoc (h : StatHonest rows s H) (e : StatFact) (id : String)
    (info : StatOrderFullInfo) (hinfo : s.statOrderMap.lookup id = some info) :
    info.clientOrderId = id ∧ Honest rows (H ++ [e]) info :=
  (h.memory id info hinfo).imp_right (lasting_honest info H _ (List.prefix_append _ _))

/-- The clock is read. -/
theorem StatHonest.reading (h : StatHonest rows s H) (now : ℕ) :
    StatHonest rows s (H ++ [.reading now]) :=
  h.note rfl (fun _ heq => by cases heq) (h.memory_snoc _) fun _ heq => by cases heq

/-- All records are copied. -/
theorem StatHonest.copied (h : StatHonest rows s H) : StatHonest rows s (H ++ [.copied]) :=
  h.note rfl (fun _ heq => by cases heq) (h.memory_snoc _) fun _ heq => by cases heq

/-- A fill is received. -/
theorem StatHonest.updateWithLite (h : StatHonest rows s H) (lite : StatOrderLite) :
    StatHonest rows { s with statOrderMap := s.statOrderMap.updateWithLite lite }
      (H ++ [.fill lite]) := by
  refine h.note rfl (fun _ heq => by cases heq) (fun id info hinfo => ?_) fun _ heq => by cases heq
  have hlite : StatFact.fill lite ∈ H ++ [StatFact.fill lite] := by simp
  rw [StatOrderMap.lookup_updateWithLite] at hinfo
  split_ifs at hinfo with hid
  · obtain rfl := Option.some.inj hinfo
    cases hlookup : s.statOrderMap.lookup id with
    | none =>
      have hfirst : Origin rows (H ++ [.fill lite]) (.ofLite lite) := Or.inr ⟨lite, hlite, rfl⟩
      exact ⟨hid.symm, hfirst.honest.withFill hlite rfl⟩
    | some original =>
      obtain ⟨hkey, hhonest⟩ := h.memory_snoc (.fill lite) id original hlookup
      exact ⟨hkey, hhonest.withFill hlite (hid.symm.trans hkey.symm)⟩
  · exact h.memory_snoc _ id info hinfo

/-- A ticker is received. -/
theorem StatHonest.updateTicker (h : StatHonest rows s H) (lite : TickerLite) :
    StatHonest rows { s with tickerMap := s.tickerMap.updateTicker lite }
      (H ++ [.ticker lite]) where
  tickers symbol := by
    show s.tickerMap.updateTicker lite symbol = _
    rw [receivedTickers_snoc]
    by_cases hsymbol : symbol = lite.symbol
    · subst hsymbol
      rw [newestTicker_snoc_self, TickerLiteComposite.updateTicker_self, h.tickers]
    · rw [newestTicker_snoc_of_ne _ hsymbol, TickerLiteComposite.updateTicker_of_ne _ hsymbol,
        h.tickers]
  memory := h.memory_snoc _
  saves := h.saves.snoc fun _ heq => by cases heq

/-- A record is written back. -/
theorem StatHonest.setFullInfo (h : StatHonest rows s H) {info : StatOrderFullInfo}
    (hinfo : Honest rows H info) :
    StatHonest rows { s with statOrderMap := s.statOrderMap.setFullInfo info } H where
  tickers := h.tickers
  memory id info' hinfo' := by
    rw [StatOrderMap.lookup_setFullInfo] at hinfo'
    split_ifs at hinfo' with hid
    · obtain rfl := Option.some.inj hinfo'
      exact ⟨hid.symm, hinfo⟩
    · exact h.memory id info' hinfo'
  saves := h.saves

/-- Old orders are evicted. -/
theorem StatHonest.eraseKeys (h : StatHonest rows s H) (keys : List String) :
    StatHonest rows { s with statOrderMap := s.statOrderMap.eraseKeys keys } H where
  tickers := h.tickers
  memory id info hinfo := h.memory id info (StatOrderMap.lookup_of_eraseKeys hinfo)
  saves := h.saves

/-- Something happens around the evaluator. -/
theorem StatHonest.world {W : Type} (h : StatHonest rows s H) (event : WorldEvent) :
    StatHonest rows (event.apply s)
      (H ++ noteStat (StatUser.world : StatUser W) (.world event) ()) := by
  cases event with
  | updateTicker lite => exact h.updateTicker lite
  | tick seconds =>
    show StatHonest rows _ (H ++ [])
    rw [List.append_nil]
    exact ⟨h.tickers, h.memory, h.saves⟩
  | setDatabase up =>
    show StatHonest rows _ (H ++ [])
    rw [List.append_nil]
    exact ⟨h.tickers, h.memory, h.saves⟩

end Invariant

/-! ## The programs -/

section Specs

variable {W : Type} {rows : List (StatOrderFullInfo × ℕ)} {P : List StatFact → Prop}
  {info : StatOrderFullInfo}

/-- Only the polling thread reads the clock and copies the records. -/
theorem polling_of_noteStat {t : StatUser W} {o : StatOp} {a : StatAns o} {e : StatFact}
    (he : e ∈ noteStat t o a) (hown : IsReading e ∨ IsCopied e) : t = .polling := by
  unfold noteStat at he
  split at he <;> simp_all [IsReading, IsCopied]

theorem statOwn_separate : Separate (fun t o (_ : EvaluatorState) a => noteStat t o a)
    (statOwn (W := W)) := by
  intro t u o s a hne e he hown
  cases u with
  | polling => exact hne (polling_of_noteStat he hown).symm
  | _ => exact hown

/-- The triples of the evaluator with its history. -/
abbrev NotedTriple (rows : List (StatOrderFullInfo × ℕ)) (t : StatUser W) {α : Type}
    (P : List StatFact → Prop) (p : StatProg α) (Q : α → List StatFact → Prop) : Prop :=
  HistoryTriple (evaluator W) (fun t o _ a => noteStat t o a) statOwn (StatHonest rows) t P p Q

/-- An operation of the evaluator. -/
theorem noted_call {t : StatUser W} {o : StatOp} {Q : StatAns o → List StatFact → Prop}
    (hP : LastingWithout (statOwn t) P)
    (h : ∀ s H, StatHonest rows s H → P H →
      StatHonest rows (statExec o s).1 (H ++ noteStat t o (statExec o s).2) ∧
        Q (statExec o s).2 (H ++ noteStat t o (statExec o s).2)) :
    NotedTriple rows t P (Prog.call o) Q := by
  refine HistoryTriple.call statOwn_separate hP fun s H s' a hs hp he => ?_
  obtain ⟨rfl, rfl⟩ := Prod.ext_iff.mp (Option.some.inj he)
  exact h s H hs hp

/-- What stays true until the next copy stays true for the polling thread. -/
theorem lastingWithout_statOwn (hP : LastingWithout IsCopied P) :
    LastingWithout (statOwn (.polling : StatUser W)) P :=
  hP.mono fun _ he => Or.inr he

/-- An operation of the polling thread that nothing is noted for. -/
theorem noted_quiet {o : StatOp} {Q : StatAns o → List StatFact → Prop}
    (hP : LastingWithout IsCopied P) (hnote : ∀ a, noteStat (.polling : StatUser W) o a = [])
    (h : ∀ s H, StatHonest rows s H → P H →
      StatHonest rows (statExec o s).1 H ∧ Q (statExec o s).2 H) :
    NotedTriple rows (.polling : StatUser W) P (Prog.call o) Q := by
  refine noted_call (lastingWithout_statOwn hP) fun s H hs hp => ?_
  rw [hnote, List.append_nil]
  exact h s H hs hp

/-- A clock reading does not begin another round. -/
theorem noted_now (hP : LastingWithout IsCopied P) :
    NotedTriple rows (.polling : StatUser W) P (Prog.call StatOp.now) fun _ => P := by
  refine noted_call (lastingWithout_statOwn hP) fun s H hs hp => ⟨hs.reading _, ?_⟩
  refine hP H _ ⟨_, rfl, fun e he => ?_⟩ hp
  rw [List.mem_singleton.mp he]
  rintro ⟨⟩

/-- A record is written back, or refused. -/
theorem writeBack_honest (hP : LastingWithout IsCopied P) (hinfo : ∀ H, P H → Honest rows H info) :
    NotedTriple rows (.polling : StatUser W) P (writeBack info) fun _ => P := by
  refine HistoryTriple.bind (R := fun _ => P) ?_ fun updated => ?_
  · refine HistoryTriple.bind (noted_now hP) fun now => ?_
    refine HistoryTriple.ite (fun _ => HistoryTriple.ret fun _ h => h) fun _ => ?_
    refine HistoryTriple.bind (R := fun _ => P) ?_ fun _ => HistoryTriple.ret fun _ h => h
    exact noted_quiet (o := .setFullInfo info) hP (fun _ => rfl) fun s H hs hp =>
      ⟨hs.setFullInfo (hinfo H hp), hp⟩
  · cases updated with
    | true => exact HistoryTriple.ret fun _ h => h
    | false =>
      exact noted_quiet (o := .warnNotUpdated info.clientOrderId) hP (fun _ => rfl) fun _ _ hs hp =>
        ⟨hs, hp⟩

/-- The copy of an order in a round: honest, and sampled through if it changed. -/
structure HonestCopy (rows : List (StatOrderFullInfo × ℕ)) (now : ℕ) (info : StatOrderFullInfo)
    (H : List StatFact) : Prop where
  honest : Honest rows H info
  through : info.propertyChanged = true → SampledThrough rows H now info

theorem lasting_honestCopy (now : ℕ) (info : StatOrderFullInfo) :
    Lasting (HonestCopy rows now info) := by
  intro H H' hpre h
  exact ⟨lasting_honest info H H' hpre h.honest,
    fun hchanged => lasting_sampledThrough now info H H' hpre (h.through hchanged)⟩

/-- The ticker of an order is one quoted after the clock was read. -/
theorem noted_getTicker {now : ℕ} (symbol : String) (hP : LastingWithout IsCopied P)
    (hnow : ∀ H, P H → StatFact.reading now ∈ H) :
    NotedTriple rows (.polling : StatUser W) P (Prog.call (StatOp.getTicker symbol))
      fun answer H => P H ∧ ∀ ticker : TickerLite, answer = some ticker →
        ∃ newest, Quoted H now symbol newest ∧ ticker = newest.copySelf {} := by
  refine noted_quiet hP (fun _ => rfl) fun s H hs hp => ⟨hs, hp, fun ticker hticker => ?_⟩
  have hmap : (s.tickerMap symbol).map (fun original => original.copySelf {}) = some ticker :=
    hticker
  obtain ⟨newest, hnewest, rfl⟩ := Option.map_eq_some_iff.mp hmap
  rw [hs.tickers] at hnewest
  exact ⟨newest, ⟨H, List.prefix_refl H, hnow H hp, hnewest⟩, rfl⟩

/-- **One order of a round**: an honest copy becomes an honest sample. -/
theorem sampleOrder_honest (now : ℕ) (hP : LastingWithout IsCopied P)
    (hnow : ∀ H, P H → StatFact.reading now ∈ H) (hinfo : ∀ H, P H → Honest rows H info) :
    NotedTriple rows (.polling : StatUser W) P (sampleOrder now info) fun info' H =>
      P H ∧ HonestCopy rows now info' H := by
  have hcleared : ∀ H, P H → Honest rows H { info with propertyChanged := false } := fun H hp =>
    (hinfo H hp).congr rfl rfl fun _ => rfl
  refine HistoryTriple.ite (fun _ => HistoryTriple.ret fun H hp => ?_) fun _ => ?_
  · exact ⟨hp, hcleared H hp, fun hchanged => by cases hchanged⟩
  refine HistoryTriple.bind (noted_getTicker info.symbol hP hnow) fun answer => ?_
  cases answer with
  | none =>
    refine HistoryTriple.ret fun H h => ?_
    exact ⟨h.1, hcleared H h.1, fun hchanged => by cases hchanged⟩
  | some ticker =>
    let info' := calculateOrderPnl now ticker { info with propertyChanged := false }
    have hsample : ∀ H, (P H ∧ ∀ quoted : TickerLite, some ticker = some quoted →
        ∃ newest, Quoted H now info.symbol newest ∧ quoted = newest.copySelf {}) →
          P H ∧ HonestCopy rows now info' H := by
      rintro H ⟨hp, hquoted⟩
      obtain ⟨newest, hnewest, rfl⟩ := hquoted ticker rfl
      -- the copy lacks the time, which is not looked at
      have hsame : info' =
          calculateOrderPnl now newest { info with propertyChanged := false } := rfl
      rw [hsame]
      exact ⟨hp, (hcleared H hp).calculateOrderPnl hnewest,
        fun _ => sampledThrough_calculateOrderPnl (hcleared H hp) hnewest⟩
    refine HistoryTriple.weaken (P := fun H => P H ∧ HonestCopy rows now info' H) ?_ hsample
      fun _ _ h => h
    refine HistoryTriple.ite (fun _ => ?_) fun _ => HistoryTriple.ret fun _ h => h
    refine HistoryTriple.bind ?_ fun _ => HistoryTriple.ret fun _ h => h
    exact writeBack_honest (hP.and ((lasting_honestCopy now info').without _)) fun H h => h.2.honest

/-- What the thread knows in a round with copies of orders: the reading it began with, and that the
copies are honest. -/
theorem lasting_round (now : ℕ) {Q : StatOrderFullInfo → List StatFact → Prop}
    (hQ : ∀ info, Lasting (Q info)) (infos : List StatOrderFullInfo) :
    LastingWithout IsCopied fun H => RoundBegan now H ∧ ∀ info ∈ infos, Q info H :=
  (lastingWithout_since _ _ _).and
    ((Lasting.forall fun info => .forall fun _ => hQ info).without _)

/-- **The saves of a round** are of honest samples. -/
theorem saveOrders_honest (now : ℕ) (infos : List StatOrderFullInfo) :
    NotedTriple rows (.polling : StatUser W)
      (fun H => RoundBegan now H ∧ ∀ info ∈ infos, HonestCopy rows now info H)
      (saveOrders now infos) fun _ _ => True := by
  have hlasting := lasting_round (Q := HonestCopy rows now) now (lasting_honestCopy now) infos
  refine HistoryTriple.bind (R := fun _ H => RoundBegan now H ∧
    ∀ info ∈ infos, HonestCopy rows now info H) ?_ fun connected => ?_
  · exact noted_quiet (o := .getConnection) hlasting (fun _ => rfl) fun _ _ hs hp => ⟨hs, hp⟩
  refine HistoryTriple.weaken (HistoryTriple.forM fun info hmem => ?_) (fun _ h => h)
    fun _ _ _ => trivial
  refine HistoryTriple.ite (fun _ => HistoryTriple.ret fun _ h => h) fun hyoung => ?_
  refine HistoryTriple.ite (fun _ => HistoryTriple.ret fun _ h => h) fun hchanged => ?_
  refine HistoryTriple.ite (fun _ => ?_) fun _ => HistoryTriple.ret fun _ h => h
  refine HistoryTriple.bind (R := fun _ H => RoundBegan now H ∧
    ∀ info ∈ infos, HonestCopy rows now info H) ?_ fun _ => HistoryTriple.ret fun _ h => h
  refine noted_call (o := .saveOrderStat info) (lastingWithout_statOwn hlasting)
    fun s H hs hp => ?_
  show StatHonest rows s (H ++ if s.databaseUp then [StatFact.saved info] else []) ∧
    (fun H => RoundBegan now H ∧ ∀ info ∈ infos, HonestCopy rows now info H)
      (H ++ if s.databaseUp then [StatFact.saved info] else [])
  cases s.databaseUp with
  | false =>
    rw [if_neg Bool.false_ne_true, List.append_nil]
    exact ⟨hs, hp⟩
  | true =>
    rw [if_pos rfl]
    refine ⟨hs.note rfl (fun _ heq => by cases heq) (hs.memory_snoc _) fun info' heq => ?_,
      hlasting H _ ⟨_, rfl, fun e he => ?_⟩ hp⟩
    · obtain rfl := StatFact.saved.inj heq
      have hcopy := hp.2 info hmem
      have hthrough := hcopy.through (by simpa using hchanged)
      exact ⟨hcopy.honest, now, hp.1, Nat.lt_of_not_le hyoung, hthrough⟩
    · rw [List.mem_singleton.mp he]
      rintro ⟨⟩

/-- The eviction after a round. -/
theorem removeExpiredStatOrder_honest :
    NotedTriple rows (.polling : StatUser W) (fun _ => True) removeExpiredStatOrder
      fun _ _ => True := by
  have hlasting : LastingWithout IsCopied fun _ => True := (Lasting.const True).without _
  refine HistoryTriple.bind (noted_now hlasting) fun now => ?_
  refine HistoryTriple.bind (R := fun _ _ => True) ?_ fun found => ?_
  · exact noted_quiet (o := .findRemovable now) hlasting (fun _ => rfl) fun s H hs _ =>
      ⟨hs, trivial⟩
  · refine HistoryTriple.bind (R := fun _ _ => True) ?_ fun _ => HistoryTriple.ret fun _ h => h
    exact noted_quiet (o := .eraseKeys found.1) hlasting (fun _ => rfl) fun s H hs _ =>
      ⟨hs.eraseKeys _, trivial⟩

/-- **A round begins** with a reading of the clock and the copies of honest records. -/
theorem copyAll_honest (now : ℕ) :
    NotedTriple rows (.polling : StatUser W) (Since IsReading (.reading now) fun _ => True)
      (Prog.call StatOp.getAllStatOrders) fun (infos : List StatOrderFullInfo) H =>
        RoundBegan now H ∧ ∀ info ∈ infos, Honest rows H info := by
  have hlasting : LastingWithout (statOwn (.polling : StatUser W))
      (Since IsReading (.reading now) fun _ => True) :=
    (lastingWithout_since _ _ _).mono fun _ he => Or.inl he
  refine noted_call hlasting fun s H hs hp => ⟨hs.copied, .snoc hp _, fun info hinfo => ?_⟩
  have hkeyed : s.statOrderMap.Keyed := fun id info h => (hs.memory id info h).1
  have hhonest := (hs.memory _ info (hkeyed.lookup_of_mem hinfo)).2
  exact lasting_honest info H _ (List.prefix_append _ _) hhonest

/-- **A round.** -/
theorem pollingCalculateOrderPnl_honest :
    NotedTriple rows (.polling : StatUser W) (fun _ => True) pollingCalculateOrderPnl
      fun _ _ => True := by
  refine HistoryTriple.bind
    (R := fun (now : ℕ) => Since IsReading (.reading now) fun _ => True) ?_ fun now => ?_
  · refine noted_call (o := .now) ((Lasting.const True).without _) fun s H hs _ =>
      ⟨hs.reading _, .snoc trivial _⟩
  refine HistoryTriple.bind (copyAll_honest now) fun infos => ?_
  refine HistoryTriple.bind (R := fun samples H => RoundBegan now H ∧
    ∀ info ∈ samples, HonestCopy rows now info H) ?_ fun samples => ?_
  · refine HistoryTriple.weaken (HistoryTriple.foldlM (A := fun samples H =>
      (RoundBegan now H ∧ ∀ info ∈ infos, Honest rows H info) ∧
        ∀ info ∈ samples, HonestCopy rows now info H) fun samples info hmem => ?_)
      (fun _ h => ⟨h, fun _ hnone => by cases hnone⟩) fun _ _ h => ⟨h.1.1, h.2⟩
    have hlasting : LastingWithout IsCopied fun H =>
        (RoundBegan now H ∧ ∀ info ∈ infos, Honest rows H info) ∧
          ∀ info ∈ samples, HonestCopy rows now info H :=
      (lasting_round now lasting_honest infos).and
        ((Lasting.forall fun info => .forall fun _ => lasting_honestCopy now info).without _)
    refine HistoryTriple.bind (sampleOrder_honest now hlasting (fun _ h => h.1.1.mem)
      fun _ h => h.1.2 info hmem) fun sample => HistoryTriple.ret fun H h => ?_
    refine ⟨h.1.1, fun other hother => ?_⟩
    rcases List.mem_append.mp hother with hbefore | hnew
    · exact h.1.2 other hbefore
    · rw [List.mem_singleton.mp hnew]
      exact h.2
  refine HistoryTriple.bind (saveOrders_honest now samples) fun _ => ?_
  exact HistoryTriple.bind removeExpiredStatOrder_honest fun _ => HistoryTriple.ret fun _ h => h

/-- Every call of the evaluator. -/
theorem evaluator_body_honest (t : StatUser W) (l : Unit) (x : StatCall t) :
    NotedTriple rows t (fun _ => True) ((evaluator W).body t l x) fun _ _ => True := by
  have hlasting : LastingWithout (statOwn t) fun _ => True := (Lasting.const True).without _
  cases t with
  | polling => exact pollingCalculateOrderPnl_honest
  | zmq w =>
    refine HistoryTriple.bind (R := fun _ _ => True) ?_ fun _ => HistoryTriple.ret fun _ h => h
    exact noted_call (o := .updateWithLite x) hlasting fun s H hs _ =>
      ⟨hs.updateWithLite x, trivial⟩
  | world => exact noted_call (o := .world x) hlasting fun s H hs _ => ⟨hs.world x, trivial⟩

end Specs

/-- **The statistics are honest.** In every interleaving of rounds with fills, tickers, clock and
database, each record in memory goes back to the rows and the history so far, and each record saved
to those before its save, with no horizon left out that its order was old enough for at the reading
with which the round began. -/
theorem statistics_honest {W : Type} [DecidableEq W] {rows : List (StatOrderFullInfo × ℕ)} {now : ℕ}
    {c} (hc : (notedEvaluator W).Reachable System.Unrestricted (evaluatorStart rows now, [])
      (fun _ => ()) c) :
    (∀ id info, c.shared.1.statOrderMap.lookup id = some info → Honest rows c.shared.2 info) ∧
      ∀ H₁ info H₂, c.shared.2 = H₁ ++ StatFact.saved info :: H₂ → SavedHonestly rows H₁ info := by
  have hinv : StatHonest rows c.shared.1 c.shared.2 :=
    System.history_invariant (statHonest_start rows now) evaluator_body_honest hc
  refine ⟨fun id info hinfo => (hinv.memory id info hinfo).2, fun H₁ info H₂ heq => ?_⟩
  exact hinv.saves H₁ _ H₂ heq info rfl

/-- An order six seconds old has two horizons sampled, and is saved so. -/
theorem statistics_honest_six_seconds :
    ∃ c, (notedEvaluator Unit).Reachable System.Unrestricted (evaluatorStart [] 1000, [])
        (fun _ => ()) c ∧
      (c.shared.1.statOrderMap.lookup "1").map (fun info => Horizon.all.take 3 |>.map info.entry) =
        some [(101, 1 / 100), (101, 1 / 100), (0, 0)] ∧
      (∀ id info, c.shared.1.statOrderMap.lookup id = some info → Honest [] c.shared.2 info) ∧
      ∀ H₁ info H₂, c.shared.2 = H₁ ++ StatFact.saved info :: H₂ → SavedHonestly [] H₁ info := by
  let lite : StatOrderLite :=
    { accountFlag := "a", symbol := "BTCUSDC", orderSide := "BUY", clientOrderId := "1",
      averagePrice := 100, filledSize := 1, commissionRate := 0, systemTimestamp := 1000 }
  let moves : List (System.Move (StatUser Unit) StatCall) := List.flatten
    [wholeCall (.zmq ()) lite 1, wholeCall .world (.tick 6) 1,
      wholeCall .world (.updateTicker ⟨"BTCUSDC", 101, 99, 7, 5⟩) 1, wholeCall .polling () 10]
  obtain ⟨c, hc, hentries⟩ :
      ∃ c, (notedEvaluator Unit).Reachable System.Unrestricted (evaluatorStart [] 1000, [])
          (fun _ => ()) c ∧
        (c.shared.1.statOrderMap.lookup "1").map
            (fun info => Horizon.all.take 3 |>.map info.entry) =
          some [(101, 1 / 100), (101, 1 / 100), (0, 0)] :=
    System.exists_of_schedule moves (by decide +kernel)
  exact ⟨c, hc, hentries, statistics_honest hc⟩

end UmTaker.Evaluator
