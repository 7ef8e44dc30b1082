import UmTaker.Evaluator.OrderStatFeed

/-!
# Records on their way

A record in the queue, along the path or received says what the table held of its order when it was
made. The records of events keep the order of their saves, and a save that was announced is reported
on its way or noted as lost.

## Main definitions

* `Tells`: a record says what the table held of its order
* `OrderStats.path`, `OrderStats.liveReports`: the records taken from the queue and not lost, and
  the reports of events
* `FeedInv`: what every step keeps

## Main results

* `tells_orderLite`, `tells_rowLite`: the records made of an event and of a row
* `FeedInv.onward`, `FeedInv.announce`, `FeedInv.dequeue`: the steps
-/

namespace UmTaker.Evaluator

open Actuary KeyedTable LogReports

/-! ## What records tell -/

/-- A number as the evaluator reads it: from the text of an event, or from that of a column. -/
def readNumber (texts : TextLibrary) (live : Bool) (x : ℚ) : ℚ :=
  texts.strToDouble (if live then texts.toString x else texts.column x)

/-- The fill that the evaluator reads of a save. -/
def readFill (texts : TextLibrary) (live : Bool) (save : OrderRow) : ℚ × ℚ :=
  (readNumber texts live save.filledSize, readNumber texts live save.averagePrice)

/-- A record says what was in the table when it was made: account, symbol and side of a save of its
order, and the fill of the last one. A live record was made of its own save. -/
structure Tells (texts : TextLibrary) (saves : List OrderRow) (r : Report String)
    (lite : StatOrderLite) : Prop where
  stamp_le : r.stamp ≤ saves.length
  key : lite.clientOrderId = r.key
  order : ∃ save ∈ saves.take r.stamp, save.clientOrderId = r.key ∧
    lite.accountFlag = save.accountFlag ∧ lite.symbol = save.symbol ∧
      lite.orderSide = save.orderSide
  fill : ∃ last, lastSave OrderRow.clientOrderId r.key (saves.take r.stamp) = some last ∧
    (lite.filledSize, lite.averagePrice) = readFill texts r.live last
  entry : r.live = true →
    ∃ i save, r.stamp = i + 1 ∧ saves[i]? = some save ∧ save.clientOrderId = r.key

/-- A row that an event about an order of the strategy was saved as. -/
def Recorded (config : OrderStatConfig) (row : OrderRow) : Prop :=
  ∃ event commissionRate now, IsStrategyOrder config event ∧
    row = orderRow config event commissionRate now

section Tells

variable {texts : TextLibrary} {saves : List OrderRow} {r : Report String} {lite : StatOrderLite}

/-- Later saves do not change what the table held. -/
theorem Tells.mono (h : Tells texts saves r lite) (row : OrderRow) :
    Tells texts (saves ++ [row]) r lite := by
  have htake : (saves ++ [row]).take r.stamp = saves.take r.stamp :=
    List.take_append_of_le_length h.stamp_le
  refine ⟨?_, h.key, ?_, ?_, fun hlive => ?_⟩
  · rw [List.length_append]
    exact h.stamp_le.trans (Nat.le_add_right _ _)
  · rw [htake]
    exact h.order
  · rw [htake]
    exact h.fill
  · obtain ⟨i, save, hstamp, hsave, hkey⟩ := h.entry hlive
    have hi : i < saves.length := (List.getElem?_eq_some_iff.mp hsave).1
    exact ⟨i, save, hstamp, (List.getElem?_append_left hi).trans hsave, hkey⟩

/-- **The record of an event** tells of the save it was made of. -/
theorem tells_orderLite (config : OrderStatConfig) (event : FuturesOrderTradeUpdateEvent)
    (commissionRate : ℚ) (now now' millis : ℕ) :
    Tells texts (saves ++ [orderRow config event commissionRate now])
      ⟨event.clientOrderId, saves.length + 1, true⟩
      (.ofMessage texts ((orderLite texts config event commissionRate now').message millis)) := by
  have htake : (saves ++ [orderRow config event commissionRate now]).take (saves.length + 1) =
      saves ++ [orderRow config event commissionRate now] :=
    List.take_of_length_le (by simp)
  refine ⟨by simp, rfl, ?_, ?_, fun _ => ⟨saves.length, _, rfl, List.getElem?_concat_length, rfl⟩⟩
  · refine ⟨orderRow config event commissionRate now, ?_, rfl, rfl, rfl, rfl⟩
    rw [htake]
    exact List.mem_append_right _ (List.mem_singleton_self _)
  · refine ⟨orderRow config event commissionRate now, ?_, rfl⟩
    simp only
    rw [htake, lastSave_snoc]
    exact if_pos rfl

/-- **The record of a row** tells of the saves that the select saw. -/
theorem tells_rowLite {n : ℕ} (hn : n ≤ saves.length) {row : OrderRow}
    (hrow : row ∈ orderTable (saves.take n)) (millis : ℕ) :
    Tells texts saves ⟨row.clientOrderId, n, false⟩
      (.ofMessage texts ((rowLite texts row).message millis)) := by
  obtain ⟨first, hfirst, last, hlast, hupdate⟩ := mem_orderTable_iff.mp hrow
  refine ⟨hn, rfl, ?_, ⟨last, hlast, ?_⟩, fun hlive => absurd hlive Bool.false_ne_true⟩
  · refine ⟨first, List.mem_of_find?_eq_some hfirst, key_of_firstSave hfirst, ?_⟩
    rw [hupdate]
    exact ⟨rfl, rfl, rfl⟩
  · rw [hupdate]
    rfl

end Tells

/-! ## What every step keeps -/

/-- A value on its way, read. -/
def Posted.map {α β : Type} (f : α → β) (posted : Posted α) : Posted β :=
  ⟨posted.report, f posted.value⟩

/-- A record as the evaluator will read it; the time of its message is not read. -/
def ofRecord (texts : TextLibrary) (lite : Actuary.StatOrderLite) : StatOrderLite :=
  .ofMessage texts (lite.message 0)

/-- The records taken from the queue and not lost, in their order. -/
def OrderStats.path (texts : TextLibrary) (s : OrderStats) : List (Posted StatOrderLite) :=
  s.received ++ (s.parsing.toList ++ s.inFlight).map (Posted.map (.ofMessage texts)) ++
    s.sending.toList.map (Posted.map (ofRecord texts))

/-- The reports of events, along the path and behind it in the queue. -/
def OrderStats.liveReports (texts : TextLibrary) (s : OrderStats) : List (Report String) :=
  ((s.path texts).map (·.report)).filter (·.live) ++
    (s.queue .processBalancePosition).map (·.report)

/-- What every step keeps. -/
structure FeedInv (config : OrderStatConfig) (texts : TextLibrary) (s : OrderStats) : Prop where
  recorded : ∀ save ∈ s.saves, Recorded config save
  announced_le : s.announced ≤ s.saves.length
  selected_le : s.selected ≤ s.saves.length
  told : ∀ posted ∈ s.path texts, Tells texts s.saves posted.report posted.value
  queued : ∀ producer, ∀ posted ∈ s.queue producer,
    Tells texts s.saves posted.report (ofRecord texts posted.value)
  live_iff : ∀ producer, ∀ posted ∈ s.queue producer,
    (posted.report.live = true ↔ producer = .processBalancePosition)
  inOrder : (s.liveReports texts).Pairwise fun r r' => r.stamp < r'.stamp
  stamp_le : ∀ r ∈ s.liveReports texts, r.stamp ≤ s.announced
  ordered : ∀ id, id ∉ s.overtaken → OrderedFor id ((s.path texts).map (·.report))
  complete : ∀ id, CompleteFor OrderRow.clientOrderId id 0 (s.saves.take s.announced)
    (s.liveReports texts ++ s.lost)

/-- An entry behind a new one was there before. -/
theorem entry_of_snoc {α : Type} {log : List α} {new e : α} {i : ℕ}
    (h : (log ++ [new])[i]? = some e) : log[i]? = some e ∨ i = log.length ∧ e = new := by
  rw [List.getElem?_append] at h
  split_ifs at h with hi
  · exact Or.inl h
  · rw [List.getElem?_singleton] at h
    split_ifs at h with hzero
    exact Or.inr ⟨by omega, (Option.some.inj h).symm⟩

/-- What one thread has in the queue after it enqueued a record. -/
theorem mem_enqueue {queue : Producer → List (Posted Actuary.StatOrderLite)}
    {producer other : Producer} {new posted : Posted Actuary.StatOrderLite}
    (h : posted ∈ Function.update queue producer (queue producer ++ [new]) other) :
    posted ∈ queue other ∨ other = producer ∧ posted = new := by
  by_cases hother : other = producer
  · subst hother
    rw [Function.update_self] at h
    rcases List.mem_append.mp h with hold | hnew
    · exact Or.inl hold
    · exact Or.inr ⟨rfl, List.mem_singleton.mp hnew⟩
  · rw [Function.update_of_ne hother] at h
    exact Or.inl h

section Steps

variable {config : OrderStatConfig} {texts : TextLibrary} {s s' : OrderStats}

/-- A step that moves records along their path, or loses some, and notes what it loses. -/
theorem FeedInv.onward (h : FeedInv config texts s) (hsaves : s'.saves = s.saves)
    (hannounced : s'.announced = s.announced) (hselected : s'.selected = s.selected)
    (hqueue : s'.queue = s.queue) (hovertaken : s'.overtaken = s.overtaken)
    (hpath : (s'.path texts).Sublist (s.path texts)) (hlost : s.lost ⊆ s'.lost)
    (hmissing : ∀ r ∈ (s.path texts).map (·.report), r.live = true →
      r ∈ (s'.path texts).map (·.report) ∨ r ∈ s'.lost) : FeedInv config texts s' := by
  have hreports : ((s'.path texts).map (·.report)).Sublist ((s.path texts).map (·.report)) :=
    hpath.map _
  have hlive : (s'.liveReports texts).Sublist (s.liveReports texts) := by
    unfold OrderStats.liveReports
    rw [hqueue]
    exact (hreports.filter _).append_right _
  refine ⟨?_, ?_, ?_, ?_, ?_, ?_, ?_, ?_, ?_, ?_⟩
  · rw [hsaves]
    exact h.recorded
  · rw [hsaves, hannounced]
    exact h.announced_le
  · rw [hsaves, hselected]
    exact h.selected_le
  · rw [hsaves]
    exact fun posted hposted => h.told posted (hpath.subset hposted)
  · rw [hsaves, hqueue]
    exact h.queued
  · rw [hqueue]
    exact h.live_iff
  · exact h.inOrder.sublist hlive
  · rw [hannounced]
    exact fun r hr => h.stamp_le r (hlive.subset hr)
  · rw [hovertaken]
    exact fun id hid => (h.ordered id hid).sublist hreports
  · intro id i save _ hsave hkey
    rw [hsaves, hannounced] at hsave
    -- the report was along the path, in the queue, or lost; if it left the path, it is lost now
    rcases List.mem_append.mp (h.complete id i save (Nat.zero_le i) hsave hkey) with hmem | hmem
    · rcases List.mem_append.mp hmem with hmem | hmem
      · obtain ⟨hmem, hself⟩ := List.mem_filter.mp hmem
        rcases hmissing _ hmem hself with hstill | hgone
        · exact List.mem_append_left _
            (List.mem_append_left _ (List.mem_filter.mpr ⟨hstill, hself⟩))
        · exact List.mem_append_right _ hgone
      · refine List.mem_append_left _ (List.mem_append_right _ ?_)
        rwa [hqueue]
    · exact List.mem_append_right _ (hlost hmem)

/-- A save is written. -/
theorem FeedInv.saveOrder (h : FeedInv config texts s) {row : OrderRow}
    (hrow : Recorded config row) : FeedInv config texts { s with saves := s.saves ++ [row] } where
  recorded save hsave := by
    rcases List.mem_append.mp hsave with hold | hnew
    · exact h.recorded save hold
    · rwa [List.mem_singleton.mp hnew]
  announced_le := by
    rw [List.length_append]
    exact h.announced_le.trans (Nat.le_add_right _ _)
  selected_le := by
    rw [List.length_append]
    exact h.selected_le.trans (Nat.le_add_right _ _)
  told posted hposted := (h.told posted hposted).mono row
  queued producer posted hposted := (h.queued producer posted hposted).mono row
  live_iff := h.live_iff
  inOrder := h.inOrder
  stamp_le := h.stamp_le
  ordered := h.ordered
  complete id := by
    rw [List.take_append_of_le_length h.announced_le]
    exact h.complete id

/-- A record of the last save is enqueued, or lost. -/
theorem FeedInv.announce (h : FeedInv config texts s) {before : List OrderRow} {row : OrderRow}
    {lite : Actuary.StatOrderLite} (hsaves : s.saves = before ++ [row])
    (hannounced : s.announced = before.length) (hid : lite.clientOrderId = row.clientOrderId)
    (htells : Tells texts s.saves ⟨lite.clientOrderId, s.saves.length, true⟩
      (ofRecord texts lite)) : FeedInv config texts (s.announce lite).1 := by
  have hlength : s.saves.length = before.length + 1 := by
    rw [hsaves, List.length_append, List.length_singleton]
  have hbefore : ∀ id, CompleteFor OrderRow.clientOrderId id 0 before
      (s.liveReports texts ++ s.lost) := by
    intro id
    have hcomplete := h.complete id
    rwa [hsaves, hannounced, List.take_left] at hcomplete
  unfold OrderStats.announce
  simp only
  split_ifs with hfull
  · exact {
      recorded := h.recorded
      announced_le := le_rfl
      selected_le := h.selected_le
      told := h.told
      queued := h.queued
      live_iff := h.live_iff
      inOrder := h.inOrder
      stamp_le := fun r hr => (h.stamp_le r hr).trans h.announced_le
      ordered := h.ordered
      complete := by
        intro id i save _ hsave hkey
        have hsave : (before ++ [row])[i]? = some save := by
          rw [← hsaves]
          simpa [OrderStats.lose] using hsave
        simp only [OrderStats.lose, if_pos]
        rcases entry_of_snoc hsave with hold | ⟨rfl, rfl⟩
        · rcases List.mem_append.mp (hbefore id i save (Nat.zero_le i) hold hkey) with hmem | hmem
          · exact List.mem_append_left _ hmem
          · exact List.mem_append_right _ (List.mem_cons_of_mem _ hmem)
        · refine List.mem_append_right _ ?_
          rw [hlength, hid, hkey]
          exact List.mem_cons_self }
  · have hlive : OrderStats.liveReports texts
        { s with
          announced := s.saves.length
          queue := Function.update s.queue .processBalancePosition
            (s.queue .processBalancePosition ++
              [⟨⟨lite.clientOrderId, s.saves.length, true⟩, lite⟩]) } =
        s.liveReports texts ++ [⟨lite.clientOrderId, s.saves.length, true⟩] := by
      simp [OrderStats.liveReports, OrderStats.path]
    exact {
      recorded := h.recorded
      announced_le := le_rfl
      selected_le := h.selected_le
      told := h.told
      queued := by
        intro producer posted hposted
        rcases mem_enqueue hposted with hold | ⟨-, rfl⟩
        · exact h.queued producer posted hold
        · exact htells
      live_iff := by
        intro producer posted hposted
        rcases mem_enqueue hposted with hold | ⟨rfl, rfl⟩
        · exact h.live_iff producer posted hold
        · exact iff_of_true rfl rfl
      inOrder := by
        rw [hlive]
        refine List.pairwise_append.mpr ⟨h.inOrder, List.pairwise_singleton _ _, ?_⟩
        intro r hr r' hr'
        obtain rfl := List.mem_singleton.mp hr'
        have hle := h.stamp_le r hr
        show r.stamp < s.saves.length
        omega
      stamp_le := by
        rw [hlive]
        intro r hr
        rcases List.mem_append.mp hr with hold | hnew
        · exact (h.stamp_le r hold).trans h.announced_le
        · rw [List.mem_singleton.mp hnew]
      ordered := h.ordered
      complete := by
        intro id i save _ hsave hkey
        rw [hlive]
        have hsave : (before ++ [row])[i]? = some save := by
          rw [← hsaves]
          simpa using hsave
        rcases entry_of_snoc hsave with hold | ⟨rfl, rfl⟩
        · rcases List.mem_append.mp (hbefore id i save (Nat.zero_le i) hold hkey) with hmem | hmem
          · exact List.mem_append_left _ (List.mem_append_left _ hmem)
          · exact List.mem_append_right _ hmem
        · refine List.mem_append_left _ (List.mem_append_right _ (List.mem_singleton.mpr ?_))
          rw [hlength, hid, hkey] }

/-- A record of a row is enqueued, or not. -/
theorem FeedInv.enqueueRow (h : FeedInv config texts s) {lite : Actuary.StatOrderLite}
    (htells : Tells texts s.saves ⟨lite.clientOrderId, s.selected, false⟩ (ofRecord texts lite)) :
    FeedInv config texts (s.enqueueRow lite).1 := by
  unfold OrderStats.enqueueRow
  split_ifs with hfull
  · exact h
  · have hlive : OrderStats.liveReports texts
        { s with
          queue := Function.update s.queue .loadRecentOrders
            (s.queue .loadRecentOrders ++
              [⟨⟨lite.clientOrderId, s.selected, false⟩, lite⟩]) } = s.liveReports texts := by
      simp [OrderStats.liveReports, OrderStats.path]
    exact {
      recorded := h.recorded
      announced_le := h.announced_le
      selected_le := h.selected_le
      told := h.told
      queued := by
        intro producer posted hposted
        rcases mem_enqueue hposted with hold | ⟨-, rfl⟩
        · exact h.queued producer posted hold
        · exact htells
      live_iff := by
        intro producer posted hposted
        rcases mem_enqueue hposted with hold | ⟨rfl, rfl⟩
        · exact h.live_iff producer posted hold
        · exact iff_of_false Bool.false_ne_true (by rintro ⟨⟩)
      inOrder := by
        rw [hlive]
        exact h.inOrder
      stamp_le := by
        rw [hlive]
        exact h.stamp_le
      ordered := h.ordered
      complete := by
        rw [hlive]
        exact h.complete }

/-- A select is seen. -/
theorem FeedInv.select (h : FeedInv config texts s) :
    FeedInv config texts { s with selected := s.saves.length } where
  recorded := h.recorded
  announced_le := h.announced_le
  selected_le := le_rfl
  told := h.told
  queued := h.queued
  live_iff := h.live_iff
  inOrder := h.inOrder
  stamp_le := h.stamp_le
  ordered := h.ordered
  complete := h.complete

/-- A record that is not outdated follows the live ones of its order along the path. -/
theorem FeedInv.follows (h : FeedInv config texts s) {producer : Producer}
    {posted : Posted Actuary.StatOrderLite} (hposted : posted ∈ s.queue producer)
    (hfresh : posted.report.live = false → ¬ s.Outdated posted.report) {r : Report String}
    (hr : r ∈ (s.path texts).map (·.report)) (hkey : r.key = posted.report.key) :
    Follows r posted.report := by
  intro hlive
  constructor
  · intro hself
    obtain rfl := (h.live_iff producer posted hposted).mp hself
    have hboth := (List.pairwise_append.mp h.inOrder).2.2
    exact hboth r (List.mem_filter.mpr ⟨hr, hlive⟩) _ (List.mem_map_of_mem hposted)
  · intro hrow
    obtain ⟨earlier, hearlier, rfl⟩ := List.mem_map.mp hr
    obtain ⟨i, save, hstamp, hsave, hid⟩ := (h.told earlier hearlier).entry hlive
    -- a later save of the order would make the record outdated
    by_contra hlt
    refine hfresh hrow ⟨save, ?_, hid.trans hkey⟩
    apply List.mem_iff_getElem?.mpr
    refine ⟨i - posted.report.stamp, ?_⟩
    rw [List.getElem?_drop]
    have hi : posted.report.stamp + (i - posted.report.stamp) = i := by omega
    rwa [hi]

/-- **A record is taken from the queue.** -/
theorem FeedInv.dequeue (h : FeedInv config texts s) (hsending : s.sending = none)
    (producer : Producer) : FeedInv config texts (s.dequeue producer).1 := by
  unfold OrderStats.dequeue
  cases hqueue : s.queue producer with
  | nil => exact h
  | cons posted rest =>
    have hposted : posted ∈ s.queue producer := by
      rw [hqueue]
      exact List.mem_cons_self
    have hrest : ∀ other, ∀ p ∈ Function.update s.queue producer rest other,
        p ∈ s.queue other := by
      intro other p hp
      by_cases hother : other = producer
      · subst hother
        rw [Function.update_self] at hp
        rw [hqueue]
        exact List.mem_cons_of_mem _ hp
      · rwa [Function.update_of_ne hother] at hp
    simp only
    generalize hovertaken : (if posted.report.live = false ∧ s.Outdated posted.report then
      posted.report.key :: s.overtaken else s.overtaken) = overtaken
    have hpath : OrderStats.path texts
        { s with
          queue := Function.update s.queue producer rest
          sending := some posted
          overtaken := overtaken } = s.path texts ++ [posted.map (ofRecord texts)] := by
      simp [OrderStats.path, hsending]
    have hlive : OrderStats.liveReports texts
        { s with
          queue := Function.update s.queue producer rest
          sending := some posted
          overtaken := overtaken } = s.liveReports texts := by
      unfold OrderStats.liveReports
      rw [hpath, List.map_append, List.filter_append]
      cases producer with
      | processBalancePosition =>
        have hself : posted.report.live = true :=
          (h.live_iff .processBalancePosition posted hposted).mpr rfl
        simp [Posted.map, hself, hqueue]
      | loadRecentOrders =>
        have hnot : ¬ posted.report.live = true := fun hself =>
          Producer.noConfusion ((h.live_iff .loadRecentOrders posted hposted).mp hself)
        simp [Posted.map, hnot]
    exact {
      recorded := h.recorded
      announced_le := h.announced_le
      selected_le := h.selected_le
      told := by
        rw [hpath]
        intro p hp
        rcases List.mem_append.mp hp with hold | hnew
        · exact h.told p hold
        · rw [List.mem_singleton.mp hnew]
          exact h.queued producer posted hposted
      queued := fun other p hp => h.queued other p (hrest other p hp)
      live_iff := fun other p hp => h.live_iff other p (hrest other p hp)
      inOrder := by
        rw [hlive]
        exact h.inOrder
      stamp_le := by
        rw [hlive]
        exact h.stamp_le
      ordered := by
        intro id hid
        have hold : id ∉ s.overtaken := by
          intro hmem
          apply hid
          simp only [← hovertaken]
          split_ifs
          · exact List.mem_cons_of_mem _ hmem
          · exact hmem
        rw [hpath, List.map_append]
        refine List.pairwise_append.mpr ⟨h.ordered id hold, List.pairwise_singleton _ _, ?_⟩
        intro r hr r' hr' hkey hkey'
        obtain rfl := List.mem_singleton.mp hr'
        have hkey' : posted.report.key = id := hkey'
        refine h.follows hposted (fun hrow houtdated => hid ?_) hr (hkey.trans hkey'.symm)
        simp only [← hovertaken, if_pos (And.intro hrow houtdated), ← hkey']
        exact List.mem_cons_self
      complete := by
        rw [hlive]
        exact h.complete }

/-- **The record taken** is sent, or lost. -/
theorem FeedInv.send (h : FeedInv config texts s) {lite : Actuary.StatOrderLite}
    (hsending : ∀ posted, s.sending = some posted → posted.value = lite) (now : ℕ) :
    FeedInv config texts (s.send (lite.message now)).1 := by
  unfold OrderStats.send
  cases hs : s.sending with
  | none => exact h
  | some posted =>
    obtain rfl := hsending posted hs
    simp only
    split_ifs with hfail
    · refine h.onward rfl rfl rfl rfl rfl ?_ ?_ ?_
      · simp [OrderStats.path, OrderStats.lose, hs]
      · intro id hid
        simp only [OrderStats.lose]
        split_ifs
        · exact List.mem_cons_of_mem _ hid
        · exact hid
      · intro r hr hlive
        simp only [OrderStats.path, hs, Option.toList_some, List.map_append, List.map_cons,
          List.map_nil, List.mem_append, List.mem_singleton] at hr
        rcases hr with hr | rfl
        · refine Or.inl ?_
          simpa [OrderStats.path, OrderStats.lose, hs] using hr
        · refine Or.inr ?_
          have hself : posted.report.live = true := hlive
          simp [OrderStats.lose, hself, Posted.map]
    · have hpath : OrderStats.path texts
          { s with
            sending := none
            inFlight := s.inFlight ++ [⟨posted.report, posted.value.message now⟩] } =
          s.path texts := by
        simp [OrderStats.path, hs, Posted.map]
        rfl
      refine h.onward rfl rfl rfl rfl rfl ?_ (List.Subset.refl _) ?_
      · rw [hpath]
      · rw [hpath]
        exact fun r hr _ => Or.inl hr

/-- A message arrives. -/
theorem FeedInv.receive (h : FeedInv config texts s) (hparsing : s.parsing = none) :
    FeedInv config texts s.receive.1 := by
  unfold OrderStats.receive
  cases hflight : s.inFlight with
  | nil => exact h
  | cons posted rest =>
    have hpath : OrderStats.path texts { s with inFlight := rest, parsing := some posted } =
        s.path texts := by
      simp [OrderStats.path, hparsing, hflight]
    refine h.onward rfl rfl rfl rfl rfl ?_ (List.Subset.refl _) ?_
    · rw [hpath]
    · rw [hpath]
      exact fun r hr _ => Or.inl hr

/-- **The fill of the message** that arrived is handed over. -/
theorem FeedInv.handOver (h : FeedInv config texts s) {message : StatOrderMessage}
    (hparsing : ∀ posted, s.parsing = some posted → posted.value = message) :
    FeedInv config texts (s.handOver (.ofMessage texts message)) := by
  unfold OrderStats.handOver
  cases hs : s.parsing with
  | none => exact h
  | some posted =>
    obtain rfl := hparsing posted hs
    have hpath : OrderStats.path texts
        { s with
          parsing := none
          received := s.received ++ [⟨posted.report, .ofMessage texts posted.value⟩] } =
        s.path texts := by
      simp [OrderStats.path, hs, Posted.map]
    refine h.onward rfl rfl rfl rfl rfl ?_ (List.Subset.refl _) ?_
    · rw [hpath]
    · rw [hpath]
      exact fun r hr _ => Or.inl hr

/-- What happens around the threads: at most a message is dropped. -/
theorem FeedInv.world (h : FeedInv config texts s) (event : FeedEvent) :
    FeedInv config texts (event.apply s) := by
  have hsame : ∀ {s' : OrderStats}, s'.saves = s.saves → s'.announced = s.announced →
      s'.selected = s.selected → s'.queue = s.queue → s'.overtaken = s.overtaken →
      s'.path texts = s.path texts → s'.lost = s.lost → FeedInv config texts s' := by
    intro s' h₁ h₂ h₃ h₄ h₅ hpath hlost
    refine h.onward h₁ h₂ h₃ h₄ h₅ (hpath ▸ List.Sublist.refl _) (hlost ▸ List.Subset.refl _) ?_
    rw [hpath]
    exact fun r hr _ => Or.inl hr
  cases event with
  | tick millis => exact hsame rfl rfl rfl rfl rfl rfl rfl
  | updateCommissionRate rate => exact hsame rfl rfl rfl rfl rfl rfl rfl
  | setDatabase up queriesFail => exact hsame rfl rfl rfl rfl rfl rfl rfl
  | setQueueFull full => exact hsame rfl rfl rfl rfl rfl rfl rfl
  | setSendsFail fail => exact hsame rfl rfl rfl rfl rfl rfl rfl
  | dropMessage i =>
    simp only [FeedEvent.apply]
    cases hi : s.inFlight[i]? with
    | none => exact h
    | some posted =>
      refine h.onward rfl rfl rfl rfl rfl ?_ ?_ ?_
      · have hflight := List.eraseIdx_sublist s.inFlight i
        exact (((List.Sublist.append_left hflight _).map _).append_left _).append_right _
      · intro id hid
        simp only [OrderStats.lose]
        split_ifs
        · exact List.mem_cons_of_mem _ hid
        · exact hid
      · intro r hr hlive
        obtain ⟨p, hp, rfl⟩ := List.mem_map.mp hr
        simp only [OrderStats.path, List.map_append, List.mem_append] at hp
        rcases hp with (hreceived | hparsing | hflight) | hsending
        · exact Or.inl (List.mem_map_of_mem (by simp [OrderStats.path, OrderStats.lose, hreceived]))
        · refine Or.inl (List.mem_map_of_mem ?_)
          simp only [OrderStats.path, OrderStats.lose, List.map_append, List.mem_append]
          exact Or.inl (Or.inr (Or.inl hparsing))
        · obtain ⟨message, hmessage, rfl⟩ := List.mem_map.mp hflight
          obtain ⟨j, hj⟩ := List.mem_iff_getElem?.mp hmessage
          by_cases hij : j = i
          · rw [hij, hi] at hj
            obtain rfl := Option.some.inj hj
            have hself : posted.report.live = true := hlive
            refine Or.inr ?_
            simp [OrderStats.lose, hself, Posted.map]
          · have hstill : message ∈ s.inFlight.eraseIdx i :=
              List.mem_eraseIdx_iff_getElem?.mpr ⟨j, hij, hj⟩
            refine Or.inl (List.mem_map_of_mem ?_)
            simp only [OrderStats.path, OrderStats.lose, List.map_append, List.mem_append]
            exact Or.inl (Or.inr (Or.inr (List.mem_map_of_mem hstill)))
        · refine Or.inl (List.mem_map_of_mem ?_)
          simp only [OrderStats.path, OrderStats.lose, List.map_append, List.mem_append]
          exact Or.inr hsending

end Steps

end UmTaker.Evaluator
