import UmTaker.Concurrency.Ghost
import UmTaker.Concurrency.Triple
import UmTaker.Evaluator.OrderStatManager
import Mathlib.Data.Finset.Insert
import Mathlib.Data.Finset.Erase

/-!
# Fills and prices of the evaluator

A round works on copies and writes whole records back. The ledger of the evaluator records the last
fill of each order, the copies of the round, the records saved, the orders whose write-back was
refused, and whether anything came between that the round does not look at again.

## Main definitions

* `StatLedger`, `ledgerEvaluator`: the evaluator with its ledger
* `LastFills`: every order in memory has its last fill
* `PricesOnce`: a record saved later keeps the prices of one saved before

## Main results

* `fills_held_iff_writesCurrent`: no fill is lost exactly while none came between a copy and its
  write-back
* `prices_once_of_roundsFresh`: prices are saved once while no round starts with an order whose
  write-back was refused, and no fill brings back an order that was saved and evicted
* `fill_lost`, `price_saved_twice`: runs in which something came between
-/

namespace UmTaker.Evaluator

open Concurrency Concurrency.System.Move

/-! ## The ledger -/

/-- The fill of an order that was received. -/
def StatOrderLite.fill (lite : StatOrderLite) : ℚ × ℚ := (lite.filledSize, lite.averagePrice)

/-- Every order in memory for which a fill was received has the last one. -/
def LastFills (m : StatOrderMap) (lastLite : StringMap StatOrderLite) : Prop :=
  ∀ id info lite, m.lookup id = some info → lastLite id = some lite → info.fill = lite.fill

/-- A record saved later has the prices of one saved before, if it is one of the same order. -/
def PricesOnce (r r' : StatOrderFullInfo) : Prop :=
  r.clientOrderId = r'.clientOrderId → Extends r r'

/-- The ledger of the evaluator: the last fill of each order, the copies of the round, the orders
whose latest write-back was refused, the records saved, and the orders saved although their
write-back was refused.

Every write-back so far was current if it found the fill its copy was taken with; every round so far
was fresh if it started without an order that was saved but not written back, and no fill brought
back an order saved before. -/
structure StatLedger where
  lastLite : StringMap StatOrderLite
  snapshot : StatOrderMap
  refused : Finset String
  saved : List StatOrderFullInfo
  stale : Finset String
  writesCurrent : Bool
  roundsFresh : Bool
  heldSoFar : Prop

namespace StatLedger

/-- Nothing happened yet. -/
def empty : StatLedger where
  lastLite := .empty
  snapshot := ∅
  refused := ∅
  saved := []
  stale := ∅
  writesCurrent := true
  roundsFresh := true
  heldSoFar := True

/-- The order has the fill that its copy was taken with, or none was received for it. -/
def current (info : StatOrderFullInfo) (m : StatOrderMap) (g : StatLedger) : Bool :=
  (g.lastLite info.clientOrderId).isNone ||
    decide ((m.lookup info.clientOrderId).map (·.fill) =
      (g.snapshot.lookup info.clientOrderId).map (·.fill))

/-- The fill is one of an order in memory, or of one that was not saved yet. -/
def known (lite : StatOrderLite) (m : StatOrderMap) (g : StatLedger) : Bool :=
  (m.lookup lite.clientOrderId).isSome ||
    decide (∀ r ∈ g.saved, r.clientOrderId ≠ lite.clientOrderId)

/-- No order is in memory that was saved although its write-back was refused. -/
def fresh (m : StatOrderMap) (g : StatLedger) : Bool := decide (∀ id ∈ g.stale, m.lookup id = none)

/-- What an operation leaves in the ledger. -/
def recordOp : (o : StatOp) → EvaluatorState → StatAns o → StatLedger → StatLedger
  | .updateWithLite lite, s, _, g =>
    { g with
      lastLite := g.lastLite.set lite.clientOrderId lite
      roundsFresh := g.roundsFresh && g.known lite s.statOrderMap }
  | .getAllStatOrders, s, _, g =>
    { g with
      snapshot := s.statOrderMap
      roundsFresh := g.roundsFresh && g.fresh s.statOrderMap }
  | .setFullInfo info, s, _, g =>
    { g with
      refused := g.refused.erase info.clientOrderId
      writesCurrent := g.writesCurrent && g.current info s.statOrderMap }
  | .warnNotUpdated clientOrderId, _, _, g => { g with refused := insert clientOrderId g.refused }
  | .saveOrderStat info, _, saved, g =>
    if saved then
      { g with
        saved := g.saved ++ [info]
        stale := if info.clientOrderId ∈ g.refused then insert info.clientOrderId g.stale
          else g.stale }
    else g
  | _, _, _, g => g

/-- Record an operation, and whether the fills were right until then. -/
def record (o : StatOp) (s : EvaluatorState) (a : StatAns o) (g : StatLedger) : StatLedger :=
  { recordOp o s a g with heldSoFar := g.heldSoFar ∧ LastFills s.statOrderMap g.lastLite }

end StatLedger

/-- The evaluator with its ledger. -/
abbrev ledgerEvaluator (W : Type) := (evaluator W).withGhost fun _ o s a =>
  StatLedger.record o s a

/-! ## The invariant -/

/-- The fills are right as long as every write-back was current; as long as every round was fresh,
the prices were saved once, and the records in memory have the prices saved for them. -/
structure StatInv (s : EvaluatorState) (g : StatLedger) : Prop where
  keyed : s.statOrderMap.Keyed
  fills : g.writesCurrent = true ↔ g.heldSoFar ∧ LastFills s.statOrderMap g.lastLite
  once : g.roundsFresh = true → g.saved.Pairwise PricesOnce
  inMemory : g.roundsFresh = true → ∀ r ∈ g.saved, r.clientOrderId ∉ g.stale →
    ∀ info, s.statOrderMap.lookup r.clientOrderId = some info → Extends r info

/-- One more write-back. -/
theorem fills_step {held last last' : Prop} {writesCurrent current : Bool}
    (h : writesCurrent = true ↔ held ∧ last) (hstep : last → (current = true ↔ last')) :
    (writesCurrent && current) = true ↔ (held ∧ last) ∧ last' := by
  rw [Bool.and_eq_true, h]
  exact and_congr_right fun hand => hstep hand.2

/-- An operation that is no write-back. -/
theorem fills_keep {held last last' : Prop} {writesCurrent : Bool}
    (h : writesCurrent = true ↔ held ∧ last) (hstep : last → last') :
    writesCurrent = true ↔ (held ∧ last) ∧ last' := by
  rw [h]
  exact ⟨fun hand => ⟨hand, hstep hand.2⟩, And.left⟩

namespace StatInv

variable {s : EvaluatorState} {g : StatLedger}

theorem init (rows : List (StatOrderFullInfo × ℕ)) (now : ℕ) :
    StatInv (evaluatorStart rows now) .empty where
  keyed := StatOrderMap.keyed_loadStatOrders rows
  fills := by simp [StatLedger.empty, LastFills]
  once _ := List.Pairwise.nil
  inMemory _ r hr := by simp [StatLedger.empty] at hr

/-- An operation that leaves memory alone, and nothing in the ledger but the judgement so far. -/
theorem keep (h : StatInv s g) {s' : EvaluatorState} (hmap : s'.statOrderMap = s.statOrderMap) :
    StatInv s' { g with heldSoFar := g.heldSoFar ∧ LastFills s.statOrderMap g.lastLite } where
  keyed := hmap ▸ h.keyed
  fills := fills_keep h.fills fun hlast => hmap ▸ hlast
  once := h.once
  inMemory := by
    rw [hmap]
    exact h.inMemory

/-- A fill is received: it replaces the one of its order, and loses no price. -/
theorem updateWithLite (h : StatInv s g) (lite : StatOrderLite) :
    StatInv { s with statOrderMap := s.statOrderMap.updateWithLite lite }
      (StatLedger.record (.updateWithLite lite) s true g) := by
  refine ⟨h.keyed.updateWithLite lite, fills_keep h.fills fun hlast id info lite' hid hlite => ?_,
    fun hfresh => ?_, fun hfresh r hr hstale info hinfo => ?_⟩
  · rw [StatOrderMap.lookup_updateWithLite] at hid
    change g.lastLite.set lite.clientOrderId lite id = some lite' at hlite
    rw [StringMap.set_apply] at hlite
    split_ifs at hid hlite with hsame
    · rw [← Option.some.inj hid, ← Option.some.inj hlite]
      rfl
    · exact hlast id info lite' hid hlite
  · exact h.once (Bool.and_eq_true_iff.mp hfresh).1
  · obtain ⟨hall, hknown⟩ := Bool.and_eq_true_iff.mp hfresh
    simp only [StatOrderMap.lookup_updateWithLite] at hinfo
    split_ifs at hinfo with hsame
    · -- an order saved before is still in memory, where the fill leaves its prices alone
      rw [StatLedger.known, Bool.or_eq_true, decide_eq_true_eq, ← hsame] at hknown
      obtain ⟨original, horiginal⟩ : ∃ original,
          s.statOrderMap.lookup r.clientOrderId = some original :=
        Option.isSome_iff_exists.mp (hknown.resolve_right fun hne => hne r hr rfl)
      rw [horiginal] at hinfo
      rw [← Option.some.inj hinfo]
      exact h.inMemory hall r hr hstale original horiginal
    · exact h.inMemory hall r hr hstale info hinfo

/-- The copies of a round are taken. -/
theorem getAllStatOrders (h : StatInv s g) :
    StatInv s (StatLedger.record .getAllStatOrders s s.statOrderMap.getAllStatOrders g) :=
  ⟨h.keyed, fills_keep h.fills id, fun hfresh => h.once (Bool.and_eq_true_iff.mp hfresh).1,
    fun hfresh => h.inMemory (Bool.and_eq_true_iff.mp hfresh).1⟩

/-- A record with all prices saved for its order, and the fill its copy was taken with, is written
back. -/
theorem setFullInfo (h : StatInv s g) {info : StatOrderFullInfo}
    (horigin : (g.snapshot.lookup info.clientOrderId).map (·.fill) = some info.fill)
    (hpresent : (s.statOrderMap.lookup info.clientOrderId).isSome)
    (hsaved : g.roundsFresh = true → ∀ r ∈ g.saved, PricesOnce r info) :
    StatInv { s with statOrderMap := s.statOrderMap.setFullInfo info }
      (StatLedger.record (.setFullInfo info) s () g) := by
  obtain ⟨old, hold⟩ := Option.isSome_iff_exists.mp hpresent
  refine ⟨h.keyed.setFullInfo info, fills_step h.fills fun hlast => ?_, h.once,
    fun hfresh r hr hstale info' hinfo' => ?_⟩
  · rw [StatLedger.current, horigin, hold, Bool.or_eq_true, decide_eq_true_eq]
    constructor
    · intro hcurrent id info' lite hid hlite
      rw [StatOrderMap.lookup_setFullInfo] at hid
      change g.lastLite id = some lite at hlite
      split_ifs at hid with hsame
      · subst hsame
        obtain rfl := Option.some.inj hid
        have hfill : old.fill = info.fill := by simpa [hlite] using hcurrent
        rw [← hfill]
        exact hlast _ old lite hold hlite
      · exact hlast id info' lite hid hlite
    · intro hlast'
      cases hlite : g.lastLite info.clientOrderId with
      | none => exact Or.inl rfl
      | some lite =>
        have hnew := hlast' info.clientOrderId info lite (by simp [StatOrderMap.lookup_setFullInfo])
          hlite
        right
        rw [hnew, ← hlast _ old lite hold hlite]
        rfl
  · rw [StatOrderMap.lookup_setFullInfo] at hinfo'
    split_ifs at hinfo' with hsame
    · rw [← Option.some.inj hinfo']
      exact hsaved hfresh r hr hsame
    · exact h.inMemory hfresh r hr hstale info' hinfo'

/-- A record is saved that has all prices saved for its order before, and is in memory with its
prices unless its write-back was refused. -/
theorem saveOrderStat (h : StatInv s g) {info : StatOrderFullInfo} {saved : Bool}
    (hsaved : g.roundsFresh = true → ∀ r ∈ g.saved, PricesOnce r info)
    (hwritten : info.clientOrderId ∈ g.refused ∨
      ∀ info', s.statOrderMap.lookup info.clientOrderId = some info' → Extends info info') :
    StatInv s (StatLedger.record (.saveOrderStat info) s saved g) := by
  cases saved with
  | false => exact h.keep rfl
  | true =>
    refine ⟨h.keyed, fills_keep h.fills id, fun hfresh => ?_,
      fun hfresh r hr hstale info' hinfo' => ?_⟩
    · refine List.pairwise_append.mpr ⟨h.once hfresh, List.pairwise_singleton _ _, ?_⟩
      intro r hr r' hr'
      rw [List.mem_singleton.mp hr']
      exact hsaved hfresh r hr
    · have hstale' : r.clientOrderId ∉ g.stale := by
        intro hmem
        apply hstale
        show r.clientOrderId ∈ if info.clientOrderId ∈ g.refused then _ else g.stale
        split_ifs
        · exact Finset.mem_insert_of_mem hmem
        · exact hmem
      rcases List.mem_append.mp hr with hbefore | hnew
      · exact h.inMemory hfresh r hbefore hstale' info' hinfo'
      · obtain rfl := List.mem_singleton.mp hnew
        refine hwritten.resolve_left (fun hrefused => hstale ?_) info' hinfo'
        show r.clientOrderId ∈ if r.clientOrderId ∈ g.refused then _ else g.stale
        rw [if_pos hrefused]
        exact Finset.mem_insert_self _ _

/-- Old orders are evicted. -/
theorem eraseKeys (h : StatInv s g) (keys : List String) :
    StatInv { s with statOrderMap := s.statOrderMap.eraseKeys keys }
      { g with heldSoFar := g.heldSoFar ∧ LastFills s.statOrderMap g.lastLite } where
  keyed := h.keyed.eraseKeys keys
  fills := fills_keep h.fills fun hlast id info lite hid hlite =>
    hlast id info lite (StatOrderMap.lookup_of_eraseKeys hid) hlite
  once := h.once
  inMemory hfresh r hr hstale info hinfo :=
    h.inMemory hfresh r hr hstale info (StatOrderMap.lookup_of_eraseKeys hinfo)

end StatInv

/-! ## What a round relies on -/

/-- While the others step, the orders stay in memory with their prices, and the round's own part of
the ledger stays what it is. -/
structure PollingRely (s s' : EvaluatorState × StatLedger) : Prop where
  snapshot : s'.2.snapshot = s.2.snapshot
  refused : s'.2.refused = s.2.refused
  saved : s'.2.saved = s.2.saved
  roundsFresh : s'.2.roundsFresh = true → s.2.roundsFresh = true
  kept : ∀ id info, s.1.statOrderMap.lookup id = some info →
    ∃ info', s'.1.statOrderMap.lookup id = some info' ∧ info'.priceAfter = info.priceAfter

theorem PollingRely.refl (s : EvaluatorState × StatLedger) : PollingRely s s :=
  ⟨rfl, rfl, rfl, id, fun _ info hid => ⟨info, hid, rfl⟩⟩

theorem PollingRely.trans {s₁ s₂ s₃ : EvaluatorState × StatLedger} (h₁ : PollingRely s₁ s₂)
    (h₂ : PollingRely s₂ s₃) : PollingRely s₁ s₃ where
  snapshot := h₂.snapshot.trans h₁.snapshot
  refused := h₂.refused.trans h₁.refused
  saved := h₂.saved.trans h₁.saved
  roundsFresh := h₁.roundsFresh ∘ h₂.roundsFresh
  kept id info hid := by
    obtain ⟨info', hid', hprice⟩ := h₁.kept id info hid
    obtain ⟨info'', hid'', hprice'⟩ := h₂.kept id info' hid'
    exact ⟨info'', hid'', hprice'.trans hprice⟩

/-- The polling thread relies on its round; the other threads rely on nothing. -/
def statInterference (W : Type) : Interference (StatUser W) (EvaluatorState × StatLedger) where
  inv s := StatInv s.1 s.2
  rely t s s' := t = .polling → PollingRely s s'
  refl _ s _ := .refl s
  trans _ _ _ _ h₁ h₂ ht := (h₁ ht).trans (h₂ ht)

/-- The copy of an order: it has the fill of the snapshot and all prices saved for the order, which
is in memory. -/
structure Copied (info : StatOrderFullInfo) (s : EvaluatorState × StatLedger) : Prop where
  origin : (s.2.snapshot.lookup info.clientOrderId).map (·.fill) = some info.fill
  present : (s.1.statOrderMap.lookup info.clientOrderId).isSome
  saved : s.2.roundsFresh = true → ∀ r ∈ s.2.saved, PricesOnce r info

/-- A copy that is sampled: if it changed it was written back, or its write-back was refused. -/
structure Sampled (info : StatOrderFullInfo) (s : EvaluatorState × StatLedger) : Prop
    extends Copied info s where
  written : info.propertyChanged = true → info.clientOrderId ∈ s.2.refused ∨
    ∃ info', s.1.statOrderMap.lookup info.clientOrderId = some info' ∧
      info'.priceAfter = info.priceAfter

/-- Sampling a copy leaves one of the same order. -/
theorem Copied.sampledFrom {info info' : StatOrderFullInfo} {s : EvaluatorState × StatLedger}
    (h : Copied info s) (hfrom : SampledFrom info info') : Copied info' s where
  origin := by
    rw [hfrom.clientOrderId, hfrom.fill]
    exact h.origin
  present := by
    rw [hfrom.clientOrderId]
    exact h.present
  saved hfresh r hr hid :=
    (h.saved hfresh r hr (hid.trans hfrom.clientOrderId)).trans hfrom.ext

theorem Copied.rely {info : StatOrderFullInfo} {s s' : EvaluatorState × StatLedger}
    (h : Copied info s) (hr : PollingRely s s') : Copied info s' where
  origin := by
    rw [hr.snapshot]
    exact h.origin
  present := by
    obtain ⟨info', hinfo'⟩ := Option.isSome_iff_exists.mp h.present
    obtain ⟨info'', hinfo'', -⟩ := hr.kept _ _ hinfo'
    rw [hinfo'']
    rfl
  saved hfresh := by
    rw [hr.saved]
    exact h.saved (hr.roundsFresh hfresh)

theorem Sampled.rely {info : StatOrderFullInfo} {s s' : EvaluatorState × StatLedger}
    (h : Sampled info s) (hr : PollingRely s s') : Sampled info s' where
  toCopied := h.toCopied.rely hr
  written hchanged := by
    rw [hr.refused]
    apply (h.written hchanged).imp_right
    rintro ⟨info', hinfo', hprice⟩
    obtain ⟨info'', hinfo'', hprice'⟩ := hr.kept _ _ hinfo'
    exact ⟨info'', hinfo'', hprice'.trans hprice⟩

/-- The first loop of a round: the copies, and the samples so far. -/
structure Sampling (copies samples : List StatOrderFullInfo) (s : EvaluatorState × StatLedger) :
    Prop where
  copies : ∀ info ∈ copies, Copied info s
  samples : ∀ info ∈ samples, Sampled info s

/-- A step of the round that is about one order. -/
structure ChangesOnly (id : String) (s s' : EvaluatorState × StatLedger) : Prop where
  snapshot : s'.2.snapshot = s.2.snapshot
  saved : s'.2.saved = s.2.saved
  roundsFresh : s'.2.roundsFresh = s.2.roundsFresh
  refused : ∀ other, other ≠ id → other ∈ s.2.refused → other ∈ s'.2.refused
  lookup : ∀ other, other ≠ id → s'.1.statOrderMap.lookup other = s.1.statOrderMap.lookup other
  present : (s.1.statOrderMap.lookup id).isSome → (s'.1.statOrderMap.lookup id).isSome

theorem Copied.changesOnly {info : StatOrderFullInfo} {id : String}
    {s s' : EvaluatorState × StatLedger} (h : Copied info s) (hs : ChangesOnly id s s') :
    Copied info s' where
  origin := by
    rw [hs.snapshot]
    exact h.origin
  present := by
    by_cases hid : info.clientOrderId = id
    · rw [hid]
      exact hs.present (hid ▸ h.present)
    · rw [hs.lookup _ hid]
      exact h.present
  saved hfresh := by
    rw [hs.saved]
    exact h.saved (hs.roundsFresh ▸ hfresh)

/-- A sample of another order stays one. -/
theorem Sampled.changesOnly {info : StatOrderFullInfo} {id : String}
    {s s' : EvaluatorState × StatLedger} (h : Sampled info s) (hs : ChangesOnly id s s')
    (hne : info.clientOrderId ≠ id) : Sampled info s' where
  toCopied := h.toCopied.changesOnly hs
  written hchanged := by
    rw [hs.lookup _ hne]
    exact (h.written hchanged).imp_left (hs.refused _ hne)

/-- The copy of an order becomes a sample. -/
theorem Sampling.snoc {copies samples : List StatOrderFullInfo} {info : StatOrderFullInfo}
    {s s' : EvaluatorState × StatLedger} (h : Sampling copies samples s) (hinfo : Copied info s)
    (hs : ChangesOnly info.clientOrderId s s')
    (hne : ∀ other ∈ samples, other.clientOrderId ≠ info.clientOrderId)
    (hwritten : info.propertyChanged = true → info.clientOrderId ∈ s'.2.refused ∨
      ∃ info', s'.1.statOrderMap.lookup info.clientOrderId = some info' ∧
        info'.priceAfter = info.priceAfter) :
    Sampling copies (samples ++ [info]) s' where
  copies other hother := (h.copies other hother).changesOnly hs
  samples other hother := by
    rcases List.mem_append.mp hother with hbefore | hnew
    · exact (h.samples other hbefore).changesOnly hs (hne other hbefore)
    · rw [List.mem_singleton.mp hnew]
      exact ⟨hinfo.changesOnly hs, hwritten⟩

theorem ChangesOnly.refl (id : String) (s : EvaluatorState × StatLedger) : ChangesOnly id s s :=
  ⟨rfl, rfl, rfl, fun _ _ h => h, fun _ _ => rfl, fun h => h⟩

section Specs

variable {W : Type} {copies samples : List StatOrderFullInfo} {info : StatOrderFullInfo}

/-- What a round knows of its copies survives the other threads. -/
theorem stable_of_rely {P : EvaluatorState × StatLedger → Prop}
    (h : ∀ s s', PollingRely s s' → P s → P s') : (statInterference W).Stable .polling P :=
  fun s s' _ _ hr hp => h s s' (hr rfl) hp

theorem Sampling.rely {s s' : EvaluatorState × StatLedger} (hr : PollingRely s s')
    (h : Sampling copies samples s) : Sampling copies samples s' where
  copies info hinfo := (h.copies info hinfo).rely hr
  samples info hinfo := (h.samples info hinfo).rely hr

/-- The triples of the evaluator. -/
abbrev StatTriple (t : StatUser W) {α : Type} (P : EvaluatorState × StatLedger → Prop)
    (p : StatProg α) (Q : α → EvaluatorState × StatLedger → Prop) : Prop :=
  Triple (ledgerEvaluator W) System.Unrestricted (statInterference W) t P p Q

/-- An operation of the polling thread, on which nobody else relies. -/
theorem polling_spec {o : StatOp} {P : EvaluatorState × StatLedger → Prop}
    {Q : StatAns o → EvaluatorState × StatLedger → Prop}
    (hP : (statInterference W).Stable .polling P)
    (h : ∀ s g, StatInv s g → P (s, g) →
      StatInv (statExec o s).1 (StatLedger.record o s (statExec o s).2 g) ∧
        Q (statExec o s).2 ((statExec o s).1, StatLedger.record o s (statExec o s).2 g)) :
    StatTriple (W := W) .polling P (Prog.call o) Q := by
  apply Triple.call_withGhost hP
  intro s g s' a hs hp _ he
  obtain ⟨rfl, rfl⟩ := Prod.ext_iff.mp (Option.some.inj he)
  obtain ⟨hinv, hq⟩ := h s g hs hp
  exact ⟨⟨hinv, fun u hu hpolling => absurd hpolling hu⟩, hq⟩

/-- An operation that the polling thread could have left to others. -/
theorem read_spec {o : StatOp} {P : EvaluatorState × StatLedger → Prop}
    (hP : ∀ s s', PollingRely s s' → P s → P s')
    (hmap : ∀ s, (statExec o s).1.statOrderMap = s.statOrderMap)
    (hrecord : ∀ s a g, StatLedger.recordOp o s a g = g) :
    StatTriple (W := W) .polling P (Prog.call o) fun _ => P := by
  refine polling_spec (stable_of_rely hP) fun s g hs hp => ?_
  have hkeep := hs.keep (hmap s)
  have hg : StatLedger.record o s (statExec o s).2 g =
      { g with heldSoFar := g.heldSoFar ∧ LastFills s.statOrderMap g.lastLite } := by
    rw [StatLedger.record, hrecord]
  rw [hg]
  refine ⟨hkeep, hP (s, g) _ ⟨rfl, rfl, rfl, id, fun id info hid => ?_⟩ hp⟩
  exact ⟨info, (hmap s).symm ▸ hid, rfl⟩

theorem now_spec {P : EvaluatorState × StatLedger → Prop}
    (hP : ∀ s s', PollingRely s s' → P s → P s') :
    StatTriple (W := W) .polling P (Prog.call StatOp.now) fun _ => P :=
  read_spec hP (fun _ => rfl) fun _ _ _ => rfl

/-- The copies of a round are taken. -/
theorem getAllStatOrders_spec :
    StatTriple (W := W) .polling (fun _ => True) (Prog.call StatOp.getAllStatOrders)
      fun copies s => Sampling copies [] s ∧ (copies.map (·.clientOrderId)).Nodup := by
  refine polling_spec (Interference.Stable.const _ True) fun s g hs _ => ?_
  refine ⟨hs.getAllStatOrders, ⟨fun info hinfo => ?_, fun info hinfo => ?_⟩, hs.keyed.nodup⟩
  · have hlookup := hs.keyed.lookup_of_mem hinfo
    refine ⟨?_, ?_, fun hfresh r hr hid => ?_⟩
    · exact congrArg (Option.map StatOrderFullInfo.fill) hlookup
    · exact Option.isSome_iff_exists.mpr ⟨info, hlookup⟩
    · -- an order in memory is not stale, so that it has the prices saved for it
      obtain ⟨hall, hnone⟩ := Bool.and_eq_true_iff.mp hfresh
      rw [StatLedger.fresh, decide_eq_true_eq] at hnone
      refine hs.inMemory hall r hr (fun hstale => ?_) info (hid ▸ hlookup)
      have habsent := hnone r.clientOrderId hstale
      rw [hid, hlookup] at habsent
      cases habsent
  · simp at hinfo

theorem stable_sampling_copied :
    (statInterference W).Stable .polling fun s => Sampling copies samples s ∧ Copied info s :=
  stable_of_rely fun _ _ hr h => ⟨h.1.rely hr, h.2.rely hr⟩

/-- A sampled copy is written back. -/
theorem setFullInfo_spec (hne : ∀ other ∈ samples, other.clientOrderId ≠ info.clientOrderId) :
    StatTriple (W := W) .polling (fun s => Sampling copies samples s ∧ Copied info s)
      (Prog.call (StatOp.setFullInfo info)) fun _ => Sampling copies (samples ++ [info]) := by
  refine polling_spec stable_sampling_copied fun s g hs ⟨hsampling, hinfo⟩ => ?_
  refine ⟨hs.setFullInfo hinfo.origin hinfo.present hinfo.saved, hsampling.snoc hinfo ?_ hne ?_⟩
  · refine ⟨rfl, rfl, rfl, fun other hother hmem => ?_, fun other hother => ?_, fun _ => ?_⟩
    · exact Finset.mem_erase.mpr ⟨hother, hmem⟩
    · exact AList.lookup_insert_ne hother
    · exact Option.isSome_iff_exists.mpr ⟨info, AList.lookup_insert _⟩
  · exact fun _ => Or.inr ⟨info, AList.lookup_insert _, rfl⟩

/-- A write-back is refused. -/
theorem warnNotUpdated_spec (hne : ∀ other ∈ samples, other.clientOrderId ≠ info.clientOrderId) :
    StatTriple (W := W) .polling (fun s => Sampling copies samples s ∧ Copied info s)
      (Prog.call (StatOp.warnNotUpdated info.clientOrderId))
      fun _ => Sampling copies (samples ++ [info]) := by
  refine polling_spec stable_sampling_copied fun s g hs ⟨hsampling, hinfo⟩ => ?_
  refine ⟨⟨hs.keyed, fills_keep hs.fills id, hs.once, hs.inMemory⟩,
    hsampling.snoc hinfo ?_ hne fun _ => Or.inl ?_⟩
  · exact ⟨rfl, rfl, rfl, fun other _ hmem => Finset.mem_insert_of_mem hmem, fun _ _ => rfl,
      fun h => h⟩
  · exact Finset.mem_insert_self _ _

/-- A changed record is written back, or refused and noted. -/
theorem writeBack_spec (hne : ∀ other ∈ samples, other.clientOrderId ≠ info.clientOrderId) :
    StatTriple (W := W) .polling (fun s => Sampling copies samples s ∧ Copied info s)
      (writeBack info) fun _ => Sampling copies (samples ++ [info]) := by
  refine Triple.bind (R := fun updated s => if updated = true then
    Sampling copies (samples ++ [info]) s else Sampling copies samples s ∧ Copied info s) ?_ ?_
  · -- the clock is read before the lock is taken
    refine Triple.bind (now_spec fun s s' hr h => ⟨h.1.rely hr, h.2.rely hr⟩) fun now => ?_
    refine Triple.ite (fun _ => Triple.ret fun _ _ h => h) fun _ => ?_
    exact Triple.bind (setFullInfo_spec hne) fun _ => Triple.ret fun _ _ h => h
  · intro updated
    cases updated with
    | false => exact warnNotUpdated_spec hne
    | true => exact Triple.ret fun _ _ h => h

theorem getTicker_spec (symbol : String) :
    StatTriple (W := W) .polling (Sampling copies samples) (Prog.call (StatOp.getTicker symbol))
      fun _ => Sampling copies samples :=
  read_spec (fun _ _ hr h => h.rely hr) (fun _ => rfl) fun _ _ _ => rfl

/-- **One order of a round**: its copy becomes a sample of the same order. -/
theorem sampleOrder_spec (now : ℕ) (hmem : info ∈ copies)
    (hne : ∀ other ∈ samples, other.clientOrderId ≠ info.clientOrderId) :
    StatTriple (W := W) .polling (Sampling copies samples) (sampleOrder now info)
      fun info' s => Sampling copies (samples ++ [info']) s ∧
        info'.clientOrderId = info.clientOrderId := by
  have hunchanged : ∀ info', SampledFrom info info' → ¬ info'.propertyChanged = true →
      StatTriple (W := W) .polling (Sampling copies samples) (pure info')
        fun info' s => Sampling copies (samples ++ [info']) s ∧
          info'.clientOrderId = info.clientOrderId := by
    intro info' hfrom hsame
    refine Triple.ret fun s _ h => ⟨?_, hfrom.clientOrderId⟩
    have hcopied := (h.copies info hmem).sampledFrom hfrom
    refine h.snoc hcopied (.refl _ s) ?_ fun hchanged => absurd hchanged hsame
    exact fun other hother => hfrom.clientOrderId ▸ hne other hother
  have hreset : SampledFrom info { info with propertyChanged := false } :=
    ⟨rfl, rfl, fun _ _ => rfl⟩
  refine Triple.ite (fun _ => hunchanged _ hreset Bool.false_ne_true) fun _ => ?_
  refine Triple.bind (getTicker_spec _) fun ticker => ?_
  cases ticker with
  | none => exact hunchanged _ hreset Bool.false_ne_true
  | some ticker =>
    have hfrom := hreset.trans (calculateOrderPnl_spec now ticker _)
    refine Triple.ite (fun _ => ?_) fun hsame => hunchanged _ hfrom hsame
    refine Triple.bind (R := fun _ => Sampling copies (samples ++ [_])) ?_ fun _ =>
      Triple.ret fun _ _ h => ⟨h, hfrom.clientOrderId⟩
    refine Triple.weaken (writeBack_spec ?_) (fun s _ h => ⟨h, ?_⟩) fun _ _ _ h => h
    · intro other hother
      rw [hfrom.clientOrderId]
      exact hne other hother
    · exact (h.copies info hmem).sampledFrom hfrom

/-- The orders of a list without repetition before one of them are other ones. -/
theorem notMem_ids_of_nodup {done rest : List StatOrderFullInfo}
    (h : ((done ++ info :: rest).map (·.clientOrderId)).Nodup) :
    info.clientOrderId ∉ done.map (·.clientOrderId) := by
  rw [List.map_append, List.map_cons] at h
  have hdisjoint := List.disjoint_of_nodup_append h
  exact fun hmem => hdisjoint hmem List.mem_cons_self

/-- The first loop of a round samples every copy. -/
theorem sampleOrders_spec (now : ℕ) (hnodup : (copies.map (·.clientOrderId)).Nodup) :
    StatTriple (W := W) .polling (Sampling copies [])
      (copies.foldlM (fun done info => do
        let info ← sampleOrder now info
        pure (done ++ [info])) [])
      fun samples s => Sampling copies samples s ∧
        samples.map (·.clientOrderId) = copies.map (·.clientOrderId) := by
  refine Triple.weaken (Triple.foldlM (A := fun done samples s => Sampling copies samples s ∧
    samples.map (·.clientOrderId) = done.map (·.clientOrderId)) ?_) (fun _ _ h => ⟨h, rfl⟩)
    fun _ _ _ h => h
  intro done info rest samples hcopies
  refine Triple.of_pre fun hids => ?_
  have hmem : info ∈ copies := by simp [hcopies]
  have hne : ∀ other ∈ samples, other.clientOrderId ≠ info.clientOrderId := by
    intro other hother heq
    apply notMem_ids_of_nodup (hcopies ▸ hnodup)
    rw [← hids, ← heq]
    exact List.mem_map_of_mem hother
  refine Triple.bind (sampleOrder_spec now hmem hne) fun info' => ?_
  refine Triple.ret fun s _ h => ⟨h.1, ?_⟩
  rw [List.map_append, List.map_append, hids]
  simp [h.2]

/-- The samples that are not saved yet. -/
def Unsaved (samples done : List StatOrderFullInfo) (s : EvaluatorState × StatLedger) : Prop :=
  ∀ info ∈ samples, info ∉ done → Sampled info s

theorem Unsaved.rely {done : List StatOrderFullInfo} {s s' : EvaluatorState × StatLedger}
    (hr : PollingRely s s') (h : Unsaved samples done s) : Unsaved samples done s' :=
  fun info hinfo hdone => (h info hinfo hdone).rely hr

/-- A changed sample is saved, or the database does not take it. -/
theorem saveOrderStat_spec {done : List StatOrderFullInfo}
    (hnodup : (samples.map (·.clientOrderId)).Nodup) (hmem : info ∈ samples) (hdone : info ∉ done)
    (hchanged : info.propertyChanged = true) :
    StatTriple (W := W) .polling (Unsaved samples done) (Prog.call (StatOp.saveOrderStat info))
      fun _ => Unsaved samples (done ++ [info]) := by
  refine polling_spec (stable_of_rely fun _ _ hr h => h.rely hr) fun s g hs h => ?_
  have hinfo := h info hmem hdone
  refine ⟨hs.saveOrderStat hinfo.saved ?_, fun other hother hnot => ?_⟩
  · apply (hinfo.written hchanged).imp_right
    rintro ⟨info', hinfo', hprice⟩ info'' hinfo''
    obtain rfl : info' = info'' := Option.some.inj (hinfo'.symm.trans hinfo'')
    intro horizon _
    rw [hprice]
  · have hne : other ≠ info := fun heq => hnot (by simp [heq])
    have hids : other.clientOrderId ≠ info.clientOrderId := fun hid =>
      hne (List.inj_on_of_nodup_map hnodup hother hmem hid)
    have hold := h other hother fun hbefore => hnot (List.mem_append_left _ hbefore)
    show Sampled other (s, StatLedger.record (.saveOrderStat info) s s.databaseUp g)
    cases s.databaseUp with
    | false => exact ⟨⟨hold.origin, hold.present, hold.saved⟩, hold.written⟩
    | true =>
      refine ⟨⟨hold.origin, hold.present, fun hfresh r hr => ?_⟩, hold.written⟩
      rcases List.mem_append.mp hr with hbefore | hnew
      · exact hold.saved hfresh r hbefore
      · rw [List.mem_singleton.mp hnew]
        exact fun hid => absurd hid.symm hids

/-- The second loop of a round. -/
theorem saveOrders_spec (now : ℕ) (hnodup : (samples.map (·.clientOrderId)).Nodup) :
    StatTriple (W := W) .polling (Sampling copies samples) (saveOrders now samples)
      fun _ _ => True := by
  refine Triple.bind (R := fun _ => Unsaved samples []) ?_ fun connected => ?_
  · refine Triple.weaken (P := Unsaved samples []) (Q := fun _ => Unsaved samples []) ?_
      (fun _ _ h info hinfo _ => h.samples info hinfo) fun _ _ _ h => h
    exact read_spec (fun _ _ hr h => h.rely hr) (fun _ => rfl) fun _ _ _ => rfl
  refine Triple.weaken (Triple.forM (A := Unsaved samples) ?_) (fun _ _ h => h)
    fun _ _ _ _ => trivial
  intro done info rest hsamples
  have hmem : info ∈ samples := by simp [hsamples]
  -- a sample that is not saved is one the rest of the loop says nothing about
  have hskip : StatTriple (W := W) .polling (Unsaved samples done) (pure ())
      fun _ => Unsaved samples (done ++ [info]) :=
    Triple.ret fun _ _ h other hother hnot =>
      h other hother fun hbefore => hnot (List.mem_append_left _ hbefore)
  refine Triple.ite (fun _ => hskip) fun _ => Triple.ite (fun _ => hskip) fun hchanged => ?_
  refine Triple.ite (fun _ => ?_) fun _ => hskip
  have hdone : info ∉ done := by
    intro hbefore
    apply notMem_ids_of_nodup (hsamples ▸ hnodup)
    exact List.mem_map_of_mem hbefore
  refine Triple.bind (saveOrderStat_spec hnodup hmem hdone (by simpa using hchanged)) fun _ => ?_
  exact Triple.ret fun _ _ h => h

/-- The eviction of old orders. -/
theorem removeExpiredStatOrder_spec :
    StatTriple (W := W) .polling (fun _ => True) removeExpiredStatOrder fun _ _ => True := by
  refine Triple.bind (now_spec fun _ _ _ h => h) fun now => ?_
  refine Triple.bind (R := fun _ _ => True)
    (read_spec (fun _ _ _ h => h) (fun _ => rfl) fun _ _ _ => rfl) fun found => ?_
  refine Triple.bind (R := fun _ _ => True) ?_ fun _ => Triple.ret fun _ _ _ => trivial
  apply polling_spec (Interference.Stable.const _ True)
  intro s g hs _
  exact ⟨hs.eraseKeys found.1, trivial⟩

/-- **A round.** -/
theorem pollingCalculateOrderPnl_spec :
    StatTriple (W := W) .polling (fun _ => True) pollingCalculateOrderPnl fun _ _ => True := by
  refine Triple.bind (now_spec fun _ _ _ h => h) fun now => ?_
  refine Triple.bind getAllStatOrders_spec fun copies => Triple.of_pre fun hnodup => ?_
  refine Triple.bind (sampleOrders_spec now hnodup) fun samples => Triple.of_pre fun hids => ?_
  refine Triple.bind (saveOrders_spec now (hids ▸ hnodup)) fun _ => ?_
  exact Triple.bind removeExpiredStatOrder_spec fun _ => Triple.ret fun _ _ _ => trivial

/-! ## The other threads -/

/-- An operation of another thread, which a round relies on. -/
theorem other_spec {t : StatUser W} {o : StatOp}
    (h : ∀ s g, StatInv s g → StatInv (statExec o s).1 (StatLedger.record o s (statExec o s).2 g) ∧
      PollingRely (s, g) ((statExec o s).1, StatLedger.record o s (statExec o s).2 g)) :
    StatTriple t (fun _ => True) (Prog.call o) fun _ _ => True := by
  apply Triple.call_withGhost (Interference.Stable.const _ True)
  intro s g s' a hs _ _ he
  obtain ⟨rfl, rfl⟩ := Prod.ext_iff.mp (Option.some.inj he)
  obtain ⟨hinv, hrely⟩ := h s g hs
  exact ⟨⟨hinv, fun _ _ _ => hrely⟩, trivial⟩

/-- A fill leaves the prices of every order in memory. -/
theorem updateWithLite_spec (w : W) (lite : StatOrderLite) :
    StatTriple (.zmq w) (fun _ => True) (Prog.call (StatOp.updateWithLite lite))
      fun _ _ => True := by
  refine other_spec fun s g hs => ⟨hs.updateWithLite lite, rfl, rfl, rfl, ?_, ?_⟩
  · exact fun hfresh => (Bool.and_eq_true_iff.mp hfresh).1
  · intro id info hid
    show ∃ info', (s.statOrderMap.updateWithLite lite).lookup id = some info' ∧ _
    rw [StatOrderMap.lookup_updateWithLite, hid]
    split_ifs
    · exact ⟨_, rfl, rfl⟩
    · exact ⟨info, rfl, rfl⟩

theorem world_spec (event : WorldEvent) :
    StatTriple (W := W) .world (fun _ => True) (Prog.call (StatOp.world event))
      fun _ _ => True := by
  refine other_spec fun s g hs => ?_
  have hmap : (event.apply s).statOrderMap = s.statOrderMap := by
    cases event <;> rfl
  refine ⟨hs.keep hmap, rfl, rfl, rfl, id, fun id info hid => ⟨info, ?_, rfl⟩⟩
  exact hmap.symm ▸ hid

end Specs

/-! ## Fills and prices -/

/-- The proof outline of the evaluator. -/
def statOutline (W : Type) : Outline (ledgerEvaluator W) System.Unrestricted where
  I := statInterference W
  atRest _ _ _ := True
  stable _ _ := Interference.Stable.const _ True
  body
    | .polling, _, _ => pollingCalculateOrderPnl_spec
    | .zmq w, _, lite =>
      Triple.bind (updateWithLite_spec w lite) fun _ => Triple.ret fun _ _ _ => trivial
    | .world, _, event => world_spec event

variable {W : Type} [DecidableEq W] {rows : List (StatOrderFullInfo × ℕ)} {now : ℕ}

/-- The ledger of a run from the rows of the database. -/
abbrev EvaluatorLedger (rows : List (StatOrderFullInfo × ℕ)) (now : ℕ)
    (c : Config (StatUser W) EvaluatorState (fun _ => Unit) StatOp StatAns) (g : StatLedger) :
    Prop :=
  (ledgerEvaluator W).Reachable System.Unrestricted (evaluatorStart rows now, .empty)
    (fun _ => ()) (c.withRecord g)

/-- Every configuration reached keeps the invariant. -/
theorem statInv_reachable {c}
    (hc : (ledgerEvaluator W).Reachable System.Unrestricted (evaluatorStart rows now, .empty)
      (fun _ => ()) c) : StatInv c.shared.1 c.shared.2 := by
  have hinit : (statOutline W).I.inv (evaluatorStart rows now, StatLedger.empty) :=
    StatInv.init rows now
  exact (statOutline W).inv hinit (fun _ => trivial) hc

/-- **No fill is lost exactly while every write-back is current.** Whatever fills arrive between the
steps of the rounds, every run of the evaluator has a ledger, and by it every order in memory has
had the last fill received for it in every state so far if and only if every write-back so far found
the fill that its copy was taken with. -/
theorem fills_held_iff_writesCurrent {c}
    (hc : (evaluator W).Reachable System.Unrestricted (evaluatorStart rows now) (fun _ => ()) c) :
    (∃ g, EvaluatorLedger rows now c g) ∧
      ∀ g, EvaluatorLedger rows now c g →
        (g.heldSoFar ∧ LastFills c.shared.statOrderMap g.lastLite ↔ g.writesCurrent = true) :=
  ⟨System.exists_ghost StatLedger.empty hc, fun _ hg => (statInv_reachable hg).fills.symm⟩

/-- A fill of an order that was placed at time zero. -/
def partialFill (filledSize : ℚ) : StatOrderLite where
  accountFlag := "main"
  symbol := "BTCUSDC"
  orderSide := "BUY"
  clientOrderId := "b_n_1"
  averagePrice := 100
  filledSize := filledSize
  commissionRate := 0
  systemTimestamp := 0

/-- A fill, a round that samples its order, and a later fill. -/
theorem fills_held_iff_writesCurrent_partial :
    ∃ c, (ledgerEvaluator Unit).Reachable System.Unrestricted (evaluatorStart [] 0, .empty)
        (fun _ => ()) c ∧
      (c.shared.1.statOrderMap.lookup "b_n_1").map (·.filledSize) = some 2 ∧
      LastFills c.shared.1.statOrderMap c.shared.2.lastLite := by
  let moves : List (System.Move (StatUser Unit) StatCall) := List.flatten
    [wholeCall (.zmq ()) (partialFill 1) 1, wholeCall .world (.tick 1) 1,
      wholeCall .world (.updateTicker ⟨"BTCUSDC", 100, 99, 0, 0⟩) 1,
      beginCall .polling () 10, wholeCall (.zmq ()) (partialFill 2) 1]
  obtain ⟨c, hc, hfilled, hcurrent⟩ :
      ∃ c, (ledgerEvaluator Unit).Reachable System.Unrestricted (evaluatorStart [] 0, .empty)
          (fun _ => ()) c ∧
        (c.shared.1.statOrderMap.lookup "b_n_1").map (·.filledSize) = some 2 ∧
        c.shared.2.writesCurrent = true :=
    System.exists_of_schedule moves (by decide +kernel)
  have h := (fills_held_iff_writesCurrent (System.reachable_forget hc)).2 c.shared.2 hc
  exact ⟨c, hc, hfilled, (h.mpr hcurrent).2⟩

/-- A fill arrives between the copy of its order and the write-back: the round writes the fill
before it. -/
theorem fill_lost :
    ∃ c, (ledgerEvaluator Unit).Reachable System.Unrestricted (evaluatorStart [] 0, .empty)
        (fun _ => ()) c ∧
      (c.shared.1.statOrderMap.lookup "b_n_1").map (·.filledSize) = some 1 ∧
      (c.shared.2.lastLite "b_n_1").map (·.filledSize) = some 2 ∧
      ¬ LastFills c.shared.1.statOrderMap c.shared.2.lastLite := by
  let moves : List (System.Move (StatUser Unit) StatCall) := List.flatten
    [wholeCall (.zmq ()) (partialFill 1) 1, wholeCall .world (.tick 1) 1,
      wholeCall .world (.updateTicker ⟨"BTCUSDC", 100, 99, 0, 0⟩) 1,
      beginCall .polling () 3, wholeCall (.zmq ()) (partialFill 2) 1, goOn .polling 2]
  obtain ⟨c, hc, hfilled, hlast⟩ :
      ∃ c, (ledgerEvaluator Unit).Reachable System.Unrestricted (evaluatorStart [] 0, .empty)
          (fun _ => ()) c ∧
        (c.shared.1.statOrderMap.lookup "b_n_1").map (·.filledSize) = some 1 ∧
        (c.shared.2.lastLite "b_n_1").map (·.filledSize) = some 2 :=
    System.exists_of_schedule moves (by decide +kernel)
  refine ⟨c, hc, hfilled, hlast, fun h => ?_⟩
  obtain ⟨info, hinfo, hone⟩ := Option.map_eq_some_iff.mp hfilled
  obtain ⟨lite, hlite, htwo⟩ := Option.map_eq_some_iff.mp hlast
  have hfill := congrArg Prod.fst (h "b_n_1" info lite hinfo hlite)
  change info.filledSize = lite.filledSize at hfill
  rw [hone, htwo] at hfill
  exact absurd hfill (by decide)

/-- **Prices are saved once while every round is fresh.** Whatever fills arrive and however late the
rounds are, every run of the evaluator has a ledger, and by it no record saved has another price at
a horizon than one saved for the same order before, as long as no round started with an order in
memory that was saved although its write-back was refused, and no fill brought back an order that
was saved and evicted. -/
theorem prices_once_of_roundsFresh {c}
    (hc : (evaluator W).Reachable System.Unrestricted (evaluatorStart rows now) (fun _ => ()) c) :
    (∃ g, EvaluatorLedger rows now c g) ∧
      ∀ g, EvaluatorLedger rows now c g → g.roundsFresh = true → g.saved.Pairwise PricesOnce :=
  ⟨System.exists_ghost StatLedger.empty hc, fun _ hg hfresh => (statInv_reachable hg).once hfresh⟩

/-- Two rounds that both save the order of a fill, at one second and at five. -/
theorem prices_once_of_roundsFresh_two :
    ∃ c, (ledgerEvaluator Unit).Reachable System.Unrestricted (evaluatorStart [] 0, .empty)
        (fun _ => ()) c ∧
      c.shared.2.saved.map (fun r => (r.priceAfter .after1s, r.priceAfter .after5s)) =
        [(100, 0), (100, 101)] ∧
      c.shared.2.saved.Pairwise PricesOnce := by
  let moves : List (System.Move (StatUser Unit) StatCall) := List.flatten
    [wholeCall (.zmq ()) (partialFill 1) 1, wholeCall .world (.tick 1) 1,
      wholeCall .world (.updateTicker ⟨"BTCUSDC", 100, 99, 0, 0⟩) 1,
      wholeCall .polling () 10, wholeCall .world (.tick 4) 1,
      wholeCall .world (.updateTicker ⟨"BTCUSDC", 101, 99, 1, 0⟩) 1,
      beginCall .polling () 10]
  obtain ⟨c, hc, hprices, hfresh⟩ :
      ∃ c, (ledgerEvaluator Unit).Reachable System.Unrestricted (evaluatorStart [] 0, .empty)
          (fun _ => ()) c ∧
        c.shared.2.saved.map (fun r => (r.priceAfter .after1s, r.priceAfter .after5s)) =
          [(100, 0), (100, 101)] ∧
        c.shared.2.roundsFresh = true :=
    System.exists_of_schedule moves (by decide +kernel)
  have h := (prices_once_of_roundsFresh (System.reachable_forget hc)).2 c.shared.2 hc
  exact ⟨c, hc, hprices, h hfresh⟩

/-- A round starts one hour after its order and writes back a second later: refused, the record is
saved all the same, and the next round samples the order again. -/
theorem price_saved_twice :
    ∃ c, (ledgerEvaluator Unit).Reachable System.Unrestricted (evaluatorStart [] 0, .empty)
        (fun _ => ()) c ∧
      c.shared.2.saved.map (fun r => (r.clientOrderId, r.priceAfter .after1hour)) =
        [("b_n_1", 100), ("b_n_1", 101)] ∧
      ¬ c.shared.2.saved.Pairwise PricesOnce := by
  let moves : List (System.Move (StatUser Unit) StatCall) := List.flatten
    [wholeCall (.zmq ()) (partialFill 1) 1, wholeCall .world (.tick 3600) 1,
      wholeCall .world (.updateTicker ⟨"BTCUSDC", 100, 99, 0, 0⟩) 1,
      beginCall .polling () 3, wholeCall .world (.tick 1) 1, endCall .polling 7,
      wholeCall .world (.updateTicker ⟨"BTCUSDC", 101, 99, 1, 0⟩) 1,
      beginCall .polling () 7]
  obtain ⟨c, hc, hsaved⟩ :
      ∃ c, (ledgerEvaluator Unit).Reachable System.Unrestricted (evaluatorStart [] 0, .empty)
          (fun _ => ()) c ∧
        c.shared.2.saved.map (fun r => (r.clientOrderId, r.priceAfter .after1hour)) =
          [("b_n_1", 100), ("b_n_1", 101)] :=
    System.exists_of_schedule moves (by decide +kernel)
  refine ⟨c, hc, hsaved, fun h => ?_⟩
  have honce : (c.shared.2.saved.map fun r => (r.clientOrderId, r.priceAfter .after1hour)).Pairwise
      fun a b => a.1 = b.1 → a.2 ≠ 0 → b.2 = a.2 :=
    List.pairwise_map.mpr (h.imp fun hpair hid => hpair hid .after1hour)
  rw [hsaved] at honce
  have hboth := List.rel_of_pairwise_cons honce List.mem_cons_self rfl (by decide)
  exact absurd hboth (by decide)

end UmTaker.Evaluator
