import UmTaker.Concurrency.Triple
import UmTaker.Evaluator.OrderStatPath

/-!
# What the evaluator is told

Whatever is lost on the way, each record that the evaluator receives says what the table held when
the record was made, and the records of events come in the order of their saves. Once nothing is on
the way, the last fill handed over agrees with the table on every order of which the last record
received is as late as each one lost, and no record of a row was taken from the queue behind a later
save.

## Main definitions

* `AgreesOn`: the last fill handed over is that of the table
* `OrderStatsTold`: what holds of the table and the records received

## Main results

* `order_stats_told`: it holds in every interleaving
* `stale_fill`: a record of a row that was overtaken hands over an old fill last
-/

namespace UmTaker.Evaluator

open Actuary Concurrency Concurrency.System.Move KeyedTable LogReports

/-! ## Table and fills -/

/-- The last fill of an order that was handed over, if any was. -/
def OrderStats.lastFill (s : OrderStats) (id : String) : Option (ℚ × ℚ) :=
  (lastSave (fun posted : Posted StatOrderLite => posted.value.clientOrderId) id s.received).map
    fun posted => (posted.value.filledSize, posted.value.averagePrice)

/-- The last fill of an order that was handed over is that of the table, or the table has no such
order and no fill of it was handed over. -/
def AgreesOn (texts : TextLibrary) (s : OrderStats) (id : String) : Prop :=
  ∃ live, s.lastFill id =
    ((orderTable s.saves).find? fun row => decide (row.clientOrderId = id)).map
      (readFill texts live)

/-- Every save was announced, and nothing is on the way. -/
structure OrderStats.Settled (s : OrderStats) : Prop where
  announced : s.announced = s.saves.length
  queue : ∀ producer, s.queue producer = []
  sending : s.sending = none
  inFlight : s.inFlight = []
  parsing : s.parsing = none

/-- The last record received of an order was made when each lost one was, or later. -/
def OrderStats.UpToDate (s : OrderStats) (id : String) : Prop :=
  ∀ r ∈ s.lost, r.key = id →
    ∃ last, lastSave Report.key id (s.received.map (·.report)) = some last ∧ r.stamp ≤ last.stamp

/-- What holds of the table and the records received. -/
structure OrderStatsTold (config : OrderStatConfig) (texts : TextLibrary) (s : OrderStats) : Prop
    where
  recorded : ∀ save ∈ s.saves, Recorded config save
  told : ∀ posted ∈ s.received, Tells texts s.saves posted.report posted.value
  inOrder : ((s.received.map (·.report)).filter (·.live)).Pairwise fun r r' => r.stamp < r'.stamp
  agrees : s.Settled → ∀ id, s.UpToDate id → id ∉ s.overtaken → AgreesOn texts s id

/-! ## Every interleaving -/

/-- The thread of the events is the only one that saves, that of the rows the only one that selects;
publisher and subscriber have their record in hand to themselves. -/
def feedInterference (config : OrderStatConfig) (texts : TextLibrary) :
    Interference FeedThread OrderStats where
  inv := FeedInv config texts
  rely
    | .processBalancePosition, s, s' => s'.saves = s.saves ∧ s'.announced = s.announced
    | .loadRecentOrders, s, s' => s.saves <+: s'.saves ∧ s'.selected = s.selected
    | .statZmqServer, s, s' => s'.sending = s.sending
    | .subscriber, s, s' => s'.parsing = s.parsing
    | .world, _, _ => True
  refl
    | .processBalancePosition, _ => ⟨rfl, rfl⟩
    | .loadRecentOrders, _ => ⟨List.prefix_rfl, rfl⟩
    | .statZmqServer, _ => rfl
    | .subscriber, _ => rfl
    | .world, _ => trivial
  trans
    | .processBalancePosition, _, _, _ => fun h₁ h₂ => ⟨h₂.1.trans h₁.1, h₂.2.trans h₁.2⟩
    | .loadRecentOrders, _, _, _ => fun h₁ h₂ => ⟨h₁.1.trans h₂.1, h₂.2.trans h₁.2⟩
    | .statZmqServer, _, _, _ => fun h₁ h₂ => h₂.trans h₁
    | .subscriber, _, _, _ => fun h₁ h₂ => h₂.trans h₁
    | .world, _, _, _ => fun _ _ => trivial

/-- What an idle thread knows. -/
def FeedAtRest : FeedThread → OrderStats → Prop
  | .processBalancePosition, s => s.announced = s.saves.length
  | .loadRecentOrders, _ => True
  | .statZmqServer, s => s.sending = none
  | .subscriber, s => s.parsing = none
  | .world, _ => True

section Specs

variable {config : OrderStatConfig} {texts : TextLibrary}

/-! What each operation leaves alone. -/

theorem announce_fields (s : OrderStats) (lite : Actuary.StatOrderLite) :
    (s.announce lite).1.saves = s.saves ∧ (s.announce lite).1.announced = s.saves.length ∧
      (s.announce lite).1.selected = s.selected ∧ (s.announce lite).1.sending = s.sending ∧
      (s.announce lite).1.parsing = s.parsing := by
  unfold OrderStats.announce
  simp only
  split_ifs
  all_goals exact ⟨rfl, rfl, rfl, rfl, rfl⟩

theorem enqueueRow_fields (s : OrderStats) (lite : Actuary.StatOrderLite) :
    (s.enqueueRow lite).1.saves = s.saves ∧ (s.enqueueRow lite).1.announced = s.announced ∧
      (s.enqueueRow lite).1.selected = s.selected ∧ (s.enqueueRow lite).1.sending = s.sending ∧
      (s.enqueueRow lite).1.parsing = s.parsing := by
  unfold OrderStats.enqueueRow
  split_ifs
  all_goals exact ⟨rfl, rfl, rfl, rfl, rfl⟩

theorem dequeue_fields {s : OrderStats} (h : s.sending = none) (producer : Producer) :
    (s.dequeue producer).1.saves = s.saves ∧ (s.dequeue producer).1.announced = s.announced ∧
      (s.dequeue producer).1.selected = s.selected ∧
      (s.dequeue producer).1.parsing = s.parsing ∧
      (s.dequeue producer).1.sending.map (·.value) = (s.dequeue producer).2 := by
  unfold OrderStats.dequeue
  cases s.queue producer with
  | nil => exact ⟨rfl, rfl, rfl, rfl, by simp [h]⟩
  | cons posted rest => exact ⟨rfl, rfl, rfl, rfl, rfl⟩

theorem send_fields (s : OrderStats) (message : StatOrderMessage) :
    (s.send message).1.saves = s.saves ∧ (s.send message).1.announced = s.announced ∧
      (s.send message).1.selected = s.selected ∧ (s.send message).1.parsing = s.parsing ∧
      (s.send message).1.sending = none := by
  unfold OrderStats.send
  cases hs : s.sending with
  | none => exact ⟨rfl, rfl, rfl, rfl, hs⟩
  | some posted =>
    simp only
    split_ifs
    all_goals exact ⟨rfl, rfl, rfl, rfl, rfl⟩

theorem receive_fields {s : OrderStats} (h : s.parsing = none) :
    s.receive.1.saves = s.saves ∧ s.receive.1.announced = s.announced ∧
      s.receive.1.selected = s.selected ∧ s.receive.1.sending = s.sending ∧
      s.receive.1.parsing.map (·.value) = s.receive.2 := by
  unfold OrderStats.receive
  cases s.inFlight with
  | nil => exact ⟨rfl, rfl, rfl, rfl, by simp [h]⟩
  | cons posted rest => exact ⟨rfl, rfl, rfl, rfl, rfl⟩

theorem handOver_fields (s : OrderStats) (lite : StatOrderLite) :
    (s.handOver lite).saves = s.saves ∧ (s.handOver lite).announced = s.announced ∧
      (s.handOver lite).selected = s.selected ∧ (s.handOver lite).sending = s.sending ∧
      (s.handOver lite).parsing = none := by
  unfold OrderStats.handOver
  cases hs : s.parsing with
  | none => exact ⟨rfl, rfl, rfl, rfl, hs⟩
  | some posted => exact ⟨rfl, rfl, rfl, rfl, rfl⟩

theorem world_fields (s : OrderStats) (event : FeedEvent) :
    (event.apply s).saves = s.saves ∧ (event.apply s).announced = s.announced ∧
      (event.apply s).selected = s.selected ∧ (event.apply s).sending = s.sending ∧
      (event.apply s).parsing = s.parsing := by
  cases event with
  | dropMessage i =>
    simp only [FeedEvent.apply]
    cases s.inFlight[i]? with
    | none => exact ⟨rfl, rfl, rfl, rfl, rfl⟩
    | some posted => exact ⟨rfl, rfl, rfl, rfl, rfl⟩
  | _ => exact ⟨rfl, rfl, rfl, rfl, rfl⟩

abbrev FeedTriple (config : OrderStatConfig) (texts : TextLibrary) (t : FeedThread) {α : Type}
    (P : OrderStats → Prop) (p : FeedProg α) (Q : α → OrderStats → Prop) : Prop :=
  Triple (orderStatFeed config texts) System.Unrestricted (feedInterference config texts) t P p Q

/-- What a step of a thread owes the others. -/
theorem feed_respects {t : FeedThread} {s s' : OrderStats} (hinv : FeedInv config texts s')
    (hsaves : s.saves <+: s'.saves)
    (hsame : t ≠ .processBalancePosition → s'.saves = s.saves ∧ s'.announced = s.announced)
    (hselected : t ≠ .loadRecentOrders → s'.selected = s.selected)
    (hsending : t ≠ .statZmqServer → s'.sending = s.sending)
    (hparsing : t ≠ .subscriber → s'.parsing = s.parsing) :
    (feedInterference config texts).Respects t s s' := by
  refine ⟨hinv, fun u hu => ?_⟩
  cases u with
  | processBalancePosition => exact hsame hu.symm
  | loadRecentOrders => exact ⟨hsaves, hselected hu.symm⟩
  | statZmqServer => exact hsending hu.symm
  | subscriber => exact hparsing hu.symm
  | world => trivial

/-- A reading leaves the state alone. -/
theorem feed_read {t : FeedThread} {o : FeedOp} {P : OrderStats → Prop}
    (hP : (feedInterference config texts).Stable t P) (hread : ∀ s, (feedExec o s).1 = s) :
    FeedTriple config texts t P (Prog.call o) fun _ => P := by
  refine Triple.call hP fun s hs hp _ s' a he => ?_
  have hs' : s' = s := by
    rw [← hread s]
    exact (Prod.ext_iff.mp (Option.some.inj he)).1.symm
  subst hs'
  exact ⟨⟨hs, fun u _ => (feedInterference config texts).refl u s'⟩, hp⟩

theorem stable_feedAtRest (t : FeedThread) :
    (feedInterference config texts).Stable t (FeedAtRest t) := by
  intro s s' _ _ hrely h
  cases t with
  | processBalancePosition =>
    obtain ⟨hsaves, hannounced⟩ := hrely
    show s'.announced = s'.saves.length
    rw [hsaves, hannounced]
    exact h
  | loadRecentOrders => trivial
  | statZmqServer => exact (show s'.sending = s.sending from hrely).trans h
  | subscriber => exact (show s'.parsing = s.parsing from hrely).trans h
  | world => trivial

/-- The last save is one of a row, and was not announced. -/
def JustSaved (row : OrderRow) (s : OrderStats) : Prop :=
  ∃ before, s.saves = before ++ [row] ∧ s.announced = before.length

theorem stable_justSaved (row : OrderRow) :
    (feedInterference config texts).Stable .processBalancePosition (JustSaved row) := by
  rintro s s' _ _ ⟨hsaves, hannounced⟩ ⟨before, hbefore, hlength⟩
  exact ⟨before, hsaves.trans hbefore, hannounced.trans hlength⟩

/-- The record of the last save is enqueued. -/
theorem announce_spec (event : FuturesOrderTradeUpdateEvent) (commissionRate : ℚ) (now now' : ℕ) :
    FeedTriple config texts .processBalancePosition
      (JustSaved (orderRow config event commissionRate now))
      (Prog.call (FeedOp.announce (orderLite texts config event commissionRate now')))
      fun _ => FeedAtRest .processBalancePosition := by
  refine Triple.call (stable_justSaved _) fun s hs h _ s' a he => ?_
  obtain ⟨before, hsaves, hannounced⟩ := h
  generalize hlite : orderLite texts config event commissionRate now' = lite at he
  have hs' : s' = (s.announce lite).1 := (Prod.ext_iff.mp (Option.some.inj he)).1.symm
  have htells : Tells texts s.saves ⟨lite.clientOrderId, s.saves.length, true⟩
      (ofRecord texts lite) := by
    rw [← hlite, hsaves, List.length_append]
    exact tells_orderLite config event commissionRate now now' 0
  have hid : lite.clientOrderId = (orderRow config event commissionRate now).clientOrderId := by
    rw [← hlite]
    rfl
  obtain ⟨hsame, hlength, hselected, hsending, hparsing⟩ := announce_fields s lite
  rw [hs']
  refine ⟨feed_respects (hs.announce hsaves hannounced hid htells) (by rw [hsame])
    (fun h => absurd rfl h) (fun _ => hselected) (fun _ => hsending) fun _ => hparsing, ?_⟩
  show (s.announce lite).1.announced = (s.announce lite).1.saves.length
  rw [hlength, hsame]

/-- **An event** is saved, and announced if the save succeeded. -/
theorem processOrderTradeUpdate_spec (htexts : texts.Documented)
    (event : FuturesOrderTradeUpdateEvent) :
    FeedTriple config texts .processBalancePosition (FeedAtRest .processBalancePosition)
      (processOrderTradeUpdate config texts event)
      fun _ => FeedAtRest .processBalancePosition := by
  have hrest : (feedInterference config texts).Stable .processBalancePosition
      (FeedAtRest .processBalancePosition) := stable_feedAtRest .processBalancePosition
  refine Triple.ite (fun hrecords => ?_) fun _ => Triple.ret fun _ _ h => h
  refine Triple.bind (feed_read hrest fun _ => rfl) fun commission => ?_
  refine Triple.bind (feed_read hrest fun _ => rfl) fun now => ?_
  refine Triple.bind (feed_read hrest fun _ => rfl) fun connected => ?_
  refine Triple.ite (fun _ => ?_) fun _ => Triple.ret fun _ _ h => h
  generalize (commission.map (·.takerRate)).getD 0 = commissionRate
  refine Triple.step (R := fun saved s => if saved = true then
    JustSaved (orderRow config event commissionRate now) s
    else FeedAtRest .processBalancePosition s) hrest ?_ fun saved => ?_
  · intro s hs hp _ s' saved he
    simp only [orderStatFeed, feedExec, Option.some.injEq] at he
    split_ifs at he with hfail
    · obtain ⟨rfl, rfl⟩ := Prod.mk.inj he
      exact ⟨⟨hs, fun u _ => (feedInterference config texts).refl u s⟩, hp⟩
    · obtain ⟨rfl, rfl⟩ := Prod.mk.inj he
      have hrow : Recorded config (orderRow config event commissionRate now) :=
        ⟨event, commissionRate, now, (recordsOrder_iff htexts).mp hrecords, rfl⟩
      refine ⟨feed_respects (hs.saveOrder hrow) (List.prefix_append _ _)
        (fun h => absurd rfl h) (fun _ => rfl) (fun _ => rfl) fun _ => rfl, ?_⟩
      exact ⟨s.saves, rfl, hp⟩
  · refine Triple.ite (fun hsaved => ?_) fun hsaved => Triple.ret fun s _ h => ?_
    · refine Triple.weaken (P := JustSaved (orderRow config event commissionRate now)) ?_
        (fun s _ h => ?_) fun _ _ _ h => h
      · refine Triple.bind (feed_read (stable_justSaved _) fun _ => rfl) fun now' => ?_
        refine Triple.bind (announce_spec event commissionRate now now') fun _ => ?_
        exact Triple.ret fun _ _ h => h
      · rwa [if_pos hsaved] at h
    · rwa [if_neg hsaved] at h

/-- The rows of a select that the table had when the select saw it. -/
def Selected (rows : List OrderRow) (s : OrderStats) : Prop :=
  ∀ row ∈ rows, row ∈ orderTable (s.saves.take s.selected)

theorem stable_selected (rows : List OrderRow) :
    (feedInterference config texts).Stable .loadRecentOrders (Selected rows) := by
  rintro s s' hs _ ⟨⟨later, hsaves⟩, hselected⟩ h row hrow
  rw [hselected, ← hsaves, List.take_append_of_le_length hs.selected_le]
  exact h row hrow

/-- **The recent rows** are selected, and a record of each is enqueued. -/
theorem loadRecentOrdersToZmq_spec :
    FeedTriple config texts .loadRecentOrders (FeedAtRest .loadRecentOrders)
      (loadRecentOrdersToZmq config texts) fun _ => FeedAtRest .loadRecentOrders := by
  have hrest : (feedInterference config texts).Stable .loadRecentOrders
      (FeedAtRest .loadRecentOrders) := stable_feedAtRest .loadRecentOrders
  refine Triple.ite (fun _ => ?_) fun _ => Triple.ret fun _ _ h => h
  refine Triple.bind (feed_read hrest fun _ => rfl) fun now => ?_
  refine Triple.bind (feed_read hrest fun _ => rfl) fun connected => ?_
  refine Triple.ite (fun _ => ?_) fun _ => Triple.ret fun _ _ h => h
  refine Triple.step (R := Selected) hrest ?_ fun rows => ?_
  · intro s hs _ _ s' rows he
    simp only [orderStatFeed, feedExec, Option.some.injEq] at he
    split_ifs at he with hfail
    · obtain ⟨rfl, rfl⟩ := Prod.mk.inj he
      refine ⟨⟨hs, fun u _ => (feedInterference config texts).refl u s⟩, ?_⟩
      intro row hrow
      cases hrow
    · obtain ⟨rfl, rfl⟩ := Prod.mk.inj he
      refine ⟨feed_respects hs.select List.prefix_rfl (fun _ => ⟨rfl, rfl⟩)
        (fun h => absurd rfl h) (fun _ => rfl) fun _ => rfl, ?_⟩
      intro row hrow
      show row ∈ orderTable (s.saves.take s.saves.length)
      rw [List.take_length]
      exact (List.mem_filter.mp hrow).1
  · refine Triple.weaken (Triple.forM (A := fun _ => Selected rows) ?_) (fun _ _ h => h)
      fun _ _ _ _ => trivial
    rintro done row rest hrows
    have hrow : row ∈ rows := by
      rw [hrows]
      exact List.mem_append_right _ List.mem_cons_self
    refine Triple.bind (R := fun _ => Selected rows) ?_ fun _ => Triple.ret fun _ _ h => h
    refine Triple.call (stable_selected rows) fun s hs h _ s' a he => ?_
    have hs' : s' = (s.enqueueRow (rowLite texts row)).1 :=
      (Prod.ext_iff.mp (Option.some.inj he)).1.symm
    have htells : Tells texts s.saves ⟨row.clientOrderId, s.selected, false⟩
        (ofRecord texts (rowLite texts row)) := tells_rowLite hs.selected_le (h row hrow) 0
    obtain ⟨hsaves, hannounced, hselected, hsending, hparsing⟩ :=
      enqueueRow_fields s (rowLite texts row)
    rw [hs']
    refine ⟨feed_respects (hs.enqueueRow htells) (by rw [hsaves])
      (fun _ => ⟨hsaves, hannounced⟩) (fun _ => hselected) (fun _ => hsending)
      fun _ => hparsing, ?_⟩
    intro other hother
    rw [hsaves, hselected]
    exact h other hother

/-- **A record** is taken and sent. -/
theorem statZmqServerListen_spec (producer : Producer) :
    FeedTriple config texts .statZmqServer (FeedAtRest .statZmqServer)
      (statZmqServerListen producer) fun _ => FeedAtRest .statZmqServer := by
  refine Triple.step (R := fun lite s => s.sending.map (·.value) = lite)
    (stable_feedAtRest .statZmqServer) ?_ fun lite => ?_
  · intro s hs h _ s' lite he
    have hs' := Prod.ext_iff.mp (Option.some.inj he)
    simp only [feedExec] at hs'
    obtain ⟨rfl, rfl⟩ := hs'
    obtain ⟨hsaves, hannounced, hselected, hparsing, hsending⟩ := dequeue_fields h producer
    exact ⟨feed_respects (hs.dequeue h producer) (by rw [hsaves])
      (fun _ => ⟨hsaves, hannounced⟩) (fun _ => hselected) (fun h => absurd rfl h)
      fun _ => hparsing, hsending⟩
  cases lite with
  | none =>
    refine Triple.ret fun s _ h => ?_
    exact Option.map_eq_none_iff.mp h
  | some lite =>
    have hstable : (feedInterference config texts).Stable .statZmqServer
        fun s => s.sending.map (·.value) = some lite := by
      intro s s' _ _ hrely h
      have hrely : s'.sending = s.sending := hrely
      rw [hrely]
      exact h
    refine Triple.bind (feed_read hstable fun _ => rfl) fun now => ?_
    refine Triple.bind (R := fun _ => FeedAtRest .statZmqServer) ?_ fun _ =>
      Triple.ret fun _ _ h => h
    refine Triple.call hstable fun s hs h _ s' a he => ?_
    have hs' : s' = (s.send (lite.message now)).1 :=
      (Prod.ext_iff.mp (Option.some.inj he)).1.symm
    obtain ⟨posted, hposted, hvalue⟩ := Option.map_eq_some_iff.mp h
    have hsending : ∀ p, s.sending = some p → p.value = lite := by
      intro p hp
      rw [hposted] at hp
      rw [← Option.some.inj hp]
      exact hvalue
    obtain ⟨hsaves, hannounced, hselected, hparsing, hnone⟩ := send_fields s (lite.message now)
    rw [hs']
    exact ⟨feed_respects (hs.send hsending now) (by rw [hsaves])
      (fun _ => ⟨hsaves, hannounced⟩) (fun _ => hselected) (fun h => absurd rfl h)
      fun _ => hparsing, hnone⟩

/-- **A message** arrives, and its fill is handed over. -/
theorem subscribeProcessOrderStatZmq_spec :
    FeedTriple config texts .subscriber (FeedAtRest .subscriber)
      (subscribeProcessOrderStatZmq texts) fun _ => FeedAtRest .subscriber := by
  refine Triple.step (R := fun message s => s.parsing.map (·.value) = message)
    (stable_feedAtRest .subscriber) ?_ fun message => ?_
  · intro s hs h _ s' message he
    have hs' := Prod.ext_iff.mp (Option.some.inj he)
    simp only [feedExec] at hs'
    obtain ⟨rfl, rfl⟩ := hs'
    obtain ⟨hsaves, hannounced, hselected, hsending, hparsing⟩ := receive_fields h
    exact ⟨feed_respects (hs.receive h) (by rw [hsaves])
      (fun _ => ⟨hsaves, hannounced⟩) (fun _ => hselected) (fun _ => hsending)
      fun h => absurd rfl h, hparsing⟩
  cases message with
  | none =>
    refine Triple.ret fun s _ h => ?_
    exact Option.map_eq_none_iff.mp h
  | some message =>
    refine Triple.call ?_ fun s hs h _ s' a he => ?_
    · intro s s' _ _ hrely h
      have hrely : s'.parsing = s.parsing := hrely
      rw [hrely]
      exact h
    have hs' : s' = s.handOver (.ofMessage texts message) :=
      (Prod.ext_iff.mp (Option.some.inj he)).1.symm
    obtain ⟨posted, hposted, hvalue⟩ := Option.map_eq_some_iff.mp h
    have hparsing : ∀ p, s.parsing = some p → p.value = message := by
      intro p hp
      rw [hposted] at hp
      rw [← Option.some.inj hp]
      exact hvalue
    obtain ⟨hsaves, hannounced, hselected, hsending, hnone⟩ :=
      handOver_fields s (.ofMessage texts message)
    rw [hs']
    exact ⟨feed_respects (hs.handOver hparsing) (by rw [hsaves])
      (fun _ => ⟨hsaves, hannounced⟩) (fun _ => hselected) (fun _ => hsending)
      fun h => absurd rfl h, hnone⟩

theorem feedWorld_spec (event : FeedEvent) :
    FeedTriple config texts .world (FeedAtRest .world) (Prog.call (FeedOp.world event))
      fun _ => FeedAtRest .world := by
  refine Triple.call (stable_feedAtRest .world) fun s hs _ _ s' a he => ?_
  have hs' : s' = event.apply s := (Prod.ext_iff.mp (Option.some.inj he)).1.symm
  obtain ⟨hsaves, hannounced, hselected, hsending, hparsing⟩ := world_fields s event
  rw [hs']
  exact ⟨feed_respects (hs.world event) (by rw [hsaves]) (fun _ => ⟨hsaves, hannounced⟩)
    (fun _ => hselected) (fun _ => hsending) fun _ => hparsing, trivial⟩

end Specs

/-- The proof outline of actuary and evaluator. -/
def feedOutline (config : OrderStatConfig) {texts : TextLibrary} (htexts : texts.Documented) :
    Outline (orderStatFeed config texts) System.Unrestricted where
  I := feedInterference config texts
  atRest t _ := FeedAtRest t
  stable t _ := stable_feedAtRest t
  body
    | .processBalancePosition, _, event => processOrderTradeUpdate_spec htexts event
    | .loadRecentOrders, _, _ => loadRecentOrdersToZmq_spec
    | .statZmqServer, _, producer => statZmqServerListen_spec producer
    | .subscriber, _, _ => subscribeProcessOrderStatZmq_spec
    | .world, _, event => feedWorld_spec event

/-- The actuary starts with the saves of earlier runs, of which the evaluator was not told. -/
def feedStart (earlier : List OrderRow) : OrderStats where
  saves := earlier
  announced := earlier.length
  lost := earlier.zipIdx.map fun e => ⟨e.1.clientOrderId, e.2 + 1, true⟩

theorem feedInv_start {config : OrderStatConfig} (texts : TextLibrary) {earlier : List OrderRow}
    (hearlier : ∀ save ∈ earlier, Recorded config save) :
    FeedInv config texts (feedStart earlier) where
  recorded := hearlier
  announced_le := le_rfl
  selected_le := Nat.zero_le _
  told _ hposted := by cases hposted
  queued _ _ hposted := by cases hposted
  live_iff _ _ hposted := by cases hposted
  inOrder := List.Pairwise.nil
  stamp_le _ hr := by cases hr
  ordered _ _ := List.Pairwise.nil
  complete id i save _ hsave hkey := by
    have hsave : earlier[i]? = some save := by simpa [feedStart] using hsave
    refine List.mem_append_right _ (List.mem_map.mpr ⟨(save, i), ?_, by rw [hkey]⟩)
    exact List.mk_mem_zipIdx_iff_getElem?.mpr hsave

/-- **Settled**, the last fill handed over of an order that is up to date and was not overtaken is
that of the table. -/
theorem FeedInv.agreesOn {config : OrderStatConfig} {texts : TextLibrary} {s : OrderStats}
    (h : FeedInv config texts s) (hsettled : s.Settled) {id : String} (hupToDate : s.UpToDate id)
    (hovertaken : id ∉ s.overtaken) : AgreesOn texts s id := by
  have hpath : s.path texts = s.received := by
    simp [OrderStats.path, hsettled.parsing, hsettled.inFlight, hsettled.sending]
  have hordered := h.ordered id hovertaken
  have hcomplete := h.complete id
  have htold := h.told
  rw [OrderStats.liveReports, hsettled.queue, hsettled.announced, List.take_length, hpath]
    at hcomplete
  rw [hpath] at hordered htold
  have hmem : ∀ i save, s.saves[i]? = some save → save.clientOrderId = id →
      (⟨id, i + 1, true⟩ : Report String) ∈ s.received.map (·.report) ∨
        ⟨id, i + 1, true⟩ ∈ s.lost := by
    intro i save hsave hkey
    simpa [List.mem_filter] using hcomplete i save (Nat.zero_le i) hsave hkey
  have hkeys : lastSave (fun posted : Posted StatOrderLite => posted.value.clientOrderId) id
      s.received = lastSave (fun posted => posted.report.key) id s.received :=
    lastSave_congr fun posted hposted => (htold posted hposted).key
  have hreports := lastSave_map (k := Report.key) (x := id) (·.report) s.received
  unfold AgreesOn OrderStats.lastFill
  rw [hkeys, find_orderTable]
  cases hlast : lastSave (fun posted : Posted StatOrderLite => posted.report.key) id s.received with
  | none =>
    rw [hlast] at hreports
    have hnone : lastSave OrderRow.clientOrderId id s.saves = none := by
      refine (lastReport_eq_none_iff ?_ ?_).mp hreports
      · intro i save _ hsave hkey
        rcases hmem i save hsave hkey with hreceived | hlost
        · exact hreceived
        · obtain ⟨last, hsome, -⟩ := hupToDate _ hlost rfl
          rw [hreports] at hsome
          cases hsome
      · intro r hr hkey
        obtain ⟨posted, hposted, rfl⟩ := List.mem_map.mp hr
        obtain ⟨save, hsave, hid, -⟩ := (htold posted hposted).order
        exact ⟨save, List.mem_of_mem_take hsave, hid.trans hkey⟩
    rw [lastSave_eq_none_iff.mp hnone]
    exact ⟨true, rfl⟩
  | some posted =>
    rw [hlast] at hreports
    have hposted : posted ∈ s.received :=
      List.mem_reverse.mp (List.mem_of_find?_eq_some hlast)
    have hkey : posted.report.key = id := key_of_lastSave hreports
    have hsame : lastSave OrderRow.clientOrderId id (s.saves.take posted.report.stamp) =
        lastSave OrderRow.clientOrderId id s.saves := by
      refine lastSave_of_lastReport hordered ?_ hreports
      intro i save hi hsave hid
      rcases hmem i save hsave hid with hreceived | hlost
      · exact hreceived
      · -- what was lost is no later than the last record received
        obtain ⟨last, hsome, hle⟩ := hupToDate _ hlost rfl
        rw [hreports] at hsome
        obtain rfl := Option.some.inj hsome
        exact absurd hle (Nat.not_le_of_lt (Nat.lt_succ_of_le hi))
    obtain ⟨last, hfill, hread⟩ := (htold posted hposted).fill
    rw [hkey, hsame] at hfill
    refine ⟨posted.report.live, ?_⟩
    rw [hfill]
    cases hfirst : firstSave OrderRow.clientOrderId id s.saves with
    | none => simp [lastSave_eq_none_iff.mpr hfirst] at hfill
    | some first =>
      simp only [Option.map_some, Option.getD_some]
      rw [hread]
      rfl

/-- **What the evaluator is told.** In every interleaving, whatever is lost: each row saved is of an
order of the strategy, each record received says what the table held of its order when it was made,
and those of events come in the order of their saves. Once nothing is on the way, the last fill
handed over agrees with the table on every order of which the last record received is as late as
each one lost, and no record of a row was overtaken by a later save. -/
theorem order_stats_told {config : OrderStatConfig} {texts : TextLibrary}
    (htexts : texts.Documented) {earlier : List OrderRow}
    (hearlier : ∀ save ∈ earlier, Recorded config save) {c}
    (hc : (orderStatFeed config texts).Reachable System.Unrestricted (feedStart earlier)
      (fun _ => ()) c) : OrderStatsTold config texts c.shared := by
  have hrest : ∀ t, (feedOutline config htexts).atRest t () (feedStart earlier) := by
    intro t
    cases t <;> first | rfl | trivial
  have hinv : FeedInv config texts c.shared :=
    (feedOutline config htexts).inv (feedInv_start texts hearlier) hrest hc
  refine ⟨hinv.recorded, fun posted hposted => hinv.told posted ?_, ?_, ?_⟩
  · exact List.mem_append_left _ (List.mem_append_left _ hposted)
  · refine hinv.inOrder.sublist ?_
    unfold OrderStats.liveReports OrderStats.path
    rw [List.append_assoc, List.map_append, List.filter_append, List.append_assoc]
    exact List.sublist_append_left _ _
  · exact fun hsettled id hupToDate hovertaken => hinv.agreesOn hsettled hupToDate hovertaken

/-- The main node of an account. -/
def sampleStatConfig : OrderStatConfig where
  accountFlag := "um-1"
  followerQuoteAsset := "USDC"
  enableSaveNoVolumeOrder := false
  dtGroupMainNode := true
  enableLoadOrderToZmq := true

/-- The texts of whole numbers. -/
def wholeTexts : TextLibrary where
  startsWith str start := decide (start.toList <+: str.toList)
  endsWith str suffix := decide (suffix.toList <:+ str.toList)
  toString x := Nat.repr x.num.toNat
  column x := Nat.repr x.num.toNat ++ ".00000000"
  strToDouble str :=
    ((str.toList.takeWhile (· ≠ '.')).foldl (fun n c => 10 * n + (c.toNat - 48)) 0 : ℕ)

theorem wholeTexts_documented : wholeTexts.Documented where
  startsWith_iff _ _ := decide_eq_true_iff
  endsWith_iff _ _ := decide_eq_true_iff

/-- A fill of an order of two. -/
def sampleFill (clientOrderId : String) (filledVolume : ℚ) : FuturesOrderTradeUpdateEvent where
  symbol := "BTCUSDC"
  clientOrderId := clientOrderId
  id := "7"
  side := "BUY"
  originalOrderType := "LIMIT"
  orderStatus := if filledVolume = 2 then "FILLED" else "PARTIALLY_FILLED"
  volume := 2
  filledVolume := filledVolume
  price := 6
  averagePrice := 5

/-- An order of an earlier run is told of by its row, a new one by its event. -/
theorem order_stats_told_row :
    ∃ c, (c.shared.received.map fun posted => (posted.report.key, posted.value.filledSize)) =
        [("b_n_2_n_0_3", 2), ("s_n_1_n_0_3", 1), ("b_n_2_n_0_3", 2)] ∧
      OrderStatsTold sampleStatConfig wholeTexts c.shared ∧
      (orderStatFeed sampleStatConfig wholeTexts).Reachable System.Unrestricted
        (feedStart [orderRow sampleStatConfig (sampleFill "s_n_1_n_0_3" 1) 0 9000])
        (fun _ => ()) c := by
  let moves : List (System.Move FeedThread FeedCall) := List.flatten
    [wholeCall .world (.tick 10000000) 1,
      wholeCall .processBalancePosition (sampleFill "b_n_2_n_0_3" 2) 6,
      wholeCall .loadRecentOrders () 5, wholeCall .statZmqServer .processBalancePosition 3,
      wholeCall .statZmqServer .loadRecentOrders 3, wholeCall .statZmqServer .loadRecentOrders 3,
      wholeCall .subscriber () 2, wholeCall .subscriber () 2, wholeCall .subscriber () 2]
  obtain ⟨c, hc, hreceived⟩ :
      ∃ c, (orderStatFeed sampleStatConfig wholeTexts).Reachable System.Unrestricted
          (feedStart [orderRow sampleStatConfig (sampleFill "s_n_1_n_0_3" 1) 0 9000])
          (fun _ => ()) c ∧
        (c.shared.received.map fun posted => (posted.report.key, posted.value.filledSize)) =
          [("b_n_2_n_0_3", 2), ("s_n_1_n_0_3", 1), ("b_n_2_n_0_3", 2)] :=
    System.exists_of_schedule moves (by decide +kernel)
  refine ⟨c, hreceived, order_stats_told wholeTexts_documented (fun save hsave => ?_) hc, hc⟩
  rw [List.mem_singleton.mp hsave]
  exact ⟨sampleFill "s_n_1_n_0_3" 1, 0, 9000,
    (recordsOrder_iff wholeTexts_documented).mp (by decide +kernel), rfl⟩

/-- A row is selected before the order is filled, and taken from the queue behind the fill: the old
fill is handed over last. -/
theorem stale_fill :
    ∃ c, (orderStatFeed sampleStatConfig wholeTexts).Reachable System.Unrestricted (feedStart [])
        (fun _ => ()) c ∧ c.shared.inFlight.isEmpty = true ∧ c.shared.lost.isEmpty = true ∧
      (orderTable c.shared.saves).map (·.filledSize) = [2] ∧
      c.shared.lastFill "b_n_2_n_0_3" = some (1, 5) := by
  let moves : List (System.Move FeedThread FeedCall) := List.flatten
    [wholeCall .world (.tick 10000000) 1,
      wholeCall .processBalancePosition (sampleFill "b_n_2_n_0_3" 1) 6,
      beginCall .loadRecentOrders () 3,
      wholeCall .processBalancePosition (sampleFill "b_n_2_n_0_3" 2) 6,
      endCall .loadRecentOrders 1, wholeCall .statZmqServer .processBalancePosition 3,
      wholeCall .statZmqServer .processBalancePosition 3,
      wholeCall .statZmqServer .loadRecentOrders 3, wholeCall .subscriber () 2,
      wholeCall .subscriber () 2, wholeCall .subscriber () 2]
  exact System.exists_of_schedule moves (by decide +kernel)

end UmTaker.Evaluator
