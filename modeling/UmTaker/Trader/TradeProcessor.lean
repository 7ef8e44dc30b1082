import UmTaker.Shm.OrderSlot

/-!
# The trader's scan

`scan_and_send_order`: the trader copies the order slot of an instrument again and again, takes a
record whose version it has not seen, and builds an exchange order from it unless it is expired.
The strategies of any number of processes write the slot meanwhile.

## Main definitions

* `ScanState`, `scanOrder`: what the scan keeps, and one pass of it
* `buildOrder`: the exchange order of a record
* `orderHandoff`: the scan and the writers over one slot

## Main results

* `order_handoff`: the trader gets complete records, takes each at most once, and builds no
  expired order
-/

namespace UmTaker.Trader

open Concurrency Concurrency.System.Move Shm

/-- The settings of the trader process. -/
structure TraderConfig where
  orderValidityMicros : ℤ

/-- An order for the exchange. -/
structure FuturesNewOrder where
  symbol : String
  side : OrderSide
  positionSide : PositionSide
  quantity : ℚ
  price : ℚ
  type : Shm.OrderType
  timeInForce : TimeInForce
  newClientOrderId : String
  reduceOnly : Bool
  deriving DecidableEq

/-- An order built by the scan: its record, the clock reading, and the order itself. -/
structure BuiltOrder where
  record : OrderShm
  now : ℕ
  order : FuturesNewOrder

/-- What the scan keeps: the version it saw last, and the records it was returned, took, and built
an order from. -/
structure ScanState where
  orderVersion : ℤ := 0
  returned : List OrderShm := []
  taken : List OrderShm := []
  built : List BuiltOrder := []

/-- The stamp of the record and its validity lie before now. -/
def orderExpired (config : TraderConfig) (shmOrder : OrderShm) (now : ℕ) : Bool :=
  decide (u64 (shmOrder.updateTime + config.orderValidityMicros) < now)

/-- The delay of the record, or zero for one stamped later than now. -/
def orderDelayMicros (shmOrder : OrderShm) (now : ℕ) : ℤ :=
  if u64 shmOrder.updateTime < now then int32 (now - u64 shmOrder.updateTime) else 0

/-- The exchange order of a record; its delay is added to the client id. -/
def buildOrder (followerInstId : String) (shmOrder : OrderShm) (now : ℕ) : FuturesNewOrder where
  symbol := followerInstId
  side := shmOrder.side
  positionSide := shmOrder.posSide
  quantity := shmOrder.volume
  price := shmOrder.price
  type := shmOrder.type
  timeInForce := shmOrder.timeInForce
  newClientOrderId := shmOrder.clientOrderId ++ "_" ++ toString (orderDelayMicros shmOrder now)
  reduceOnly := decide (shmOrder.reduceOnly = 1)

/-- What the scan does with a record it was returned. -/
def takeOrder (config : TraderConfig) (followerInstId : String) (l : ScanState)
    (shmOrder : OrderShm) (now : ℕ) : ScanState :=
  if shmOrder.versionNumber ≤ l.orderVersion then
    { l with returned := l.returned ++ [shmOrder] }
  -- the version is seen before the stamp is looked at, so an expired record is not taken again
  else if orderExpired config shmOrder now then
    { l with
      orderVersion := shmOrder.versionNumber
      returned := l.returned ++ [shmOrder]
      taken := l.taken ++ [shmOrder] }
  else
    { orderVersion := shmOrder.versionNumber
      returned := l.returned ++ [shmOrder]
      taken := l.taken ++ [shmOrder]
      built := l.built ++ [⟨shmOrder, now, buildOrder followerInstId shmOrder now⟩] }

/-- One pass of the scan, up to the order it builds. -/
def scanOrder (config : TraderConfig) (followerInstId : String) (l : ScanState) (now : ℕ) :
    OrderProg ScanState := do
  let shmOrder ← orderShmReaderGet
  pure (takeOrder config followerInstId l shmOrder now)

/-! ## The hand-off -/

/-- The threads at a slot: the trader, and any writers. -/
abbrev SlotUser (W : Type) : Type := Option W

/-- What a thread keeps: the trader its scan. -/
abbrev UserState {W : Type} : SlotUser W → Type
  | none => ScanState
  | some _ => Unit

/-- What a call is given: a pass of the scan its clock reading, a writer an order. -/
abbrev UserCall {W : Type} : SlotUser W → Type
  | none => ℕ
  | some _ => OrderShm

/-- The trader's scan and the writers over one slot. -/
def orderHandoff (W : Type) (config : TraderConfig) (followerInstId : String) :
    System (SlotUser W) (Locked (SlotUser W) SlotData) UserState UserCall OrderOp OrderAns where
  exec := orderExec
  body
    | none, l, now => scanOrder config followerInstId l now
    | some _, _, order => do
      let _ ← orderShmWriterUpdate order
      pure ()

/-- The threads before their first calls. -/
def noCalls {W : Type} : (t : SlotUser W) → UserState t
  | none => {}
  | some _ => ()

variable {config : TraderConfig} {followerInstId : String} {first : OrderShm}

/-- What the trader knows of its scan: the records it was returned are published, it takes ever
larger versions from one on, and builds orders only from records it took and found valid. -/
structure ScanKnows (config : TraderConfig) (followerInstId : String) (first : OrderShm)
    (l : ScanState) (d : SlotData) : Prop where
  returned : ∀ r ∈ l.returned, Published first r d
  taken : ∀ r ∈ l.taken, r ∈ l.returned
  increasing : (l.taken.map (·.versionNumber)).Pairwise (· < ·)
  seen : ∀ r ∈ l.taken, r.versionNumber ≤ l.orderVersion
  started : 0 ≤ l.orderVersion
  numbered : ∀ r ∈ l.taken, 1 ≤ r.versionNumber
  valid : ∀ b ∈ l.built, b.record ∈ l.taken ∧
    b.now ≤ u64 (b.record.updateTime + config.orderValidityMicros)
  order : ∀ b ∈ l.built, b.order = buildOrder followerInstId b.record b.now

theorem ScanKnows.grows {l : ScanState} {d d' : SlotData} (hg : Grows d d')
    (h : ScanKnows config followerInstId first l d) :
    ScanKnows config followerInstId first l d' :=
  { h with returned := fun r hr => (h.returned r hr).grows hg }

/-- **One pass** of the scan keeps what the trader knows. -/
theorem ScanKnows.takeOrder {l : ScanState} {d : SlotData} {shmOrder : OrderShm} {now : ℕ}
    (h : ScanKnows config followerInstId first l d) (hr : Published first shmOrder d) :
    ScanKnows config followerInstId first (takeOrder config followerInstId l shmOrder now) d := by
  have hreturned : ∀ r ∈ l.returned ++ [shmOrder], Published first r d := by
    intro r hmem
    rcases List.mem_append.mp hmem with hmem | hmem
    · exact h.returned r hmem
    · rwa [List.mem_singleton.mp hmem]
  unfold Trader.takeOrder
  split_ifs with hold hexpired
  · exact { h with
      returned := hreturned, taken := fun r hmem => List.mem_append_left _ (h.taken r hmem) }
  all_goals
    have htaken : ∀ r ∈ l.taken ++ [shmOrder], r ∈ l.returned ++ [shmOrder] := by
      intro r hmem
      rcases List.mem_append.mp hmem with hmem | hmem
      · exact List.mem_append_left _ (h.taken r hmem)
      · exact List.mem_append_right _ hmem
    -- the record is new: its version exceeds those of all records taken before
    have hincreasing : ((l.taken ++ [shmOrder]).map (·.versionNumber)).Pairwise (· < ·) := by
      rw [List.map_append, List.pairwise_append]
      refine ⟨h.increasing, by simp, fun v hv w hw => ?_⟩
      obtain ⟨r, hmem, rfl⟩ := List.mem_map.mp hv
      simp only [List.map_cons, List.map_nil, List.mem_singleton] at hw
      have := h.seen r hmem
      omega
    have hseen : ∀ r ∈ l.taken ++ [shmOrder], r.versionNumber ≤ shmOrder.versionNumber := by
      intro r hmem
      rcases List.mem_append.mp hmem with hmem | hmem
      · have := h.seen r hmem
        omega
      · rw [List.mem_singleton.mp hmem]
    have hstarted : 0 ≤ shmOrder.versionNumber := h.started.trans (not_le.mp hold).le
    have hnumbered : ∀ r ∈ l.taken ++ [shmOrder], 1 ≤ r.versionNumber := by
      intro r hmem
      rcases List.mem_append.mp hmem with hmem | hmem
      · exact h.numbered r hmem
      · rw [List.mem_singleton.mp hmem]
        have := h.started
        omega
    have hvalid : ∀ b ∈ l.built, b.record ∈ l.taken ++ [shmOrder] ∧
        b.now ≤ u64 (b.record.updateTime + config.orderValidityMicros) :=
      fun b hb => ⟨List.mem_append_left _ (h.valid b hb).1, (h.valid b hb).2⟩
  · exact ⟨hreturned, htaken, hincreasing, hseen, hstarted, hnumbered, hvalid, h.order⟩
  · refine ⟨hreturned, htaken, hincreasing, hseen, hstarted, hnumbered, fun b hb => ?_,
      fun b hb => ?_⟩
    · rcases List.mem_append.mp hb with hb | hb
      · exact hvalid b hb
      · obtain rfl := List.mem_singleton.mp hb
        refine ⟨by simp, ?_⟩
        simpa [orderExpired] using hexpired
    · rcases List.mem_append.mp hb with hb | hb
      · exact h.order b hb
      · obtain rfl := List.mem_singleton.mp hb
        rfl

/-- A scan that was never made. -/
theorem ScanKnows.init (d : SlotData) : ScanKnows config followerInstId first {} d := by
  constructor <;> simp

/-- An order is built of the accepted record that has its version. -/
theorem ScanKnows.accepted {l : ScanState} {d : SlotData}
    (h : ScanKnows config followerInstId first l d) (hfirst : Blank first) (hd : Chained d)
    {b : BuiltOrder} (hb : b ∈ l.built) :
    d.accepted[(b.record.versionNumber - 1).toNat]? = some b.record :=
  have htaken := (h.valid b hb).1
  (h.returned _ (h.taken _ htaken)).accepted hfirst hd (h.numbered _ htaken)

/-- The scan over a slot, whoever writes it. -/
theorem scanOrder_spec {T : Type} {L C : T → Type}
    {S : System T (Locked T SlotData) L C OrderOp OrderAns}
    (hS : ∀ t o s, S.exec t o s = orderExec t o s) {t : T} (l : ScanState) (now : ℕ) :
    SlotTriple S first t (fun s => ScanKnows config followerInstId first l s.data)
      (scanOrder config followerInstId l now)
      fun l' s => ScanKnows config followerInstId first l' s.data :=
  Triple.bind (orderShmReaderGet_spec hS fun _ _ hg h => ScanKnows.grows hg h) fun _ =>
    Triple.ret fun _ _ h => h.2.takeOrder h.1

/-- The proof outline of the hand-off. -/
def handoffOutline (W : Type) (config : TraderConfig) (followerInstId : String)
    (first : OrderShm) (hfirst : Blank first) :
    Outline (orderHandoff W config followerInstId) System.Unrestricted where
  I := slotInterference (SlotUser W) first
  atRest
    | none, l, s => ScanKnows config followerInstId first l s.data
    | some _, _, _ => True
  stable
    | none, _ => stable_grows fun _ _ hg h => h.grows hg
    | some _, _ => Interference.Stable.const _ _
  body
    | none, l, now => scanOrder_spec (fun _ _ _ => rfl) l now
    | some _, _, order =>
      Triple.bind (orderShmWriterUpdate_spec (fun _ _ _ => rfl) hfirst order) fun _ =>
        Triple.ret fun _ _ _ => trivial

/-- The slot and its users before their first calls. -/
abbrev handoffStart (W : Type) (memory : OrderShm) (instId : String) :
    Locked (SlotUser W) SlotData where
  data := orderShmWriterInit memory instId
  holder := none

variable {W : Type} [DecidableEq W] {memory : OrderShm} {instId : String}

/-- **The hand-off of orders.** Whatever the writers and the trader do in whatever order, the log
of accepted records has increasing update times and is numbered from one, and the slot holds its
last record while the lock is free; and a trader between two passes was returned complete records
of the log, took them in increasing versions, and built orders only from records that its clock
reading found valid. -/
theorem order_handoff {c}
    (hc : (orderHandoff W config followerInstId).Reachable System.Unrestricted
      (handoffStart W memory instId) noCalls c) :
    (((0 : ℤ) :: c.shared.data.accepted.map (·.updateTime)).Pairwise (· < ·) ∧
      (∀ (i : ℕ) r, c.shared.data.accepted[i]? = some r → r.versionNumber = i + 1) ∧
      (c.shared.holder = none → c.shared.data.record =
        c.shared.data.accepted.getLast?.getD (orderShmWriterInit memory instId).record)) ∧
    ∀ l, c.thread none = .idle l →
      (∀ r ∈ l.returned, 1 ≤ r.versionNumber →
        c.shared.data.accepted[(r.versionNumber - 1).toNat]? = some r) ∧
      ((∀ r ∈ l.taken, r ∈ l.returned) ∧ (l.taken.map (·.versionNumber)).Pairwise (· < ·)) ∧
      ∀ b ∈ l.built, b.record ∈ l.taken ∧
        b.now ≤ u64 (b.record.updateTime + config.orderValidityMicros) ∧
        (0 ≤ b.record.updateTime + config.orderValidityMicros →
          (b.now : ℤ) ≤ b.record.updateTime + config.orderValidityMicros) := by
  have hfirst := blank_init memory instId
  let O := handoffOutline W config followerInstId _ hfirst
  have hinv : O.I.inv (handoffStart W memory instId) :=
    ⟨⟨by simp [orderShmWriterInit], by simp [orderShmWriterInit]⟩, fun _ => rfl⟩
  have hinit : ∀ t : SlotUser W, O.atRest t (noCalls t) (handoffStart W memory instId) := by
    rintro (_ | w)
    · exact .init _
    · trivial
  obtain ⟨hchained, hsettled⟩ := O.inv hinv hinit hc
  refine ⟨⟨hchained.increasing, hchained.numbered, hsettled⟩, fun l hl => ?_⟩
  have hknows : ScanKnows config followerInstId _ l c.shared.data := O.idle hinv hinit hc hl
  refine ⟨fun r hr hv => (hknows.returned r hr).accepted hfirst hchained hv,
    ⟨hknows.taken, hknows.increasing⟩, fun b hb => ?_⟩
  obtain ⟨hmem, hle⟩ := hknows.valid b hb
  refine ⟨hmem, hle, fun hnonneg => ?_⟩
  calc (b.now : ℤ) ≤ u64 (b.record.updateTime + config.orderValidityMicros) := by exact_mod_cast hle
    _ ≤ b.record.updateTime + config.orderValidityMicros := u64_le hnonneg

/-- One writer writes an order, and the trader takes it: it was returned the record of the log. -/
theorem order_handoff_once :
    ∃ c l r, c.thread none = .idle l ∧ l.taken = [r] ∧ c.shared.data.accepted[0]? = some r ∧
      (orderHandoff Unit ⟨10⟩ "BTCUSDC").Reachable System.Unrestricted
        (handoffStart Unit {} "BTCUSDC") noCalls c := by
  let order : OrderShm :=
    { instId := "BTCUSDC", side := .buy, price := 1, volume := 1, updateTime := 1 }
  let moves : List (System.Move (SlotUser Unit) UserCall) := List.flatten
    [wholeCall (some ()) order 16, wholeCall none 5 13]
  let tookIt : Activity OrderOp OrderAns ScanState → Bool
    | .idle l => l.returned = [{ order with versionNumber := 1 }] ∧
      l.taken = [{ order with versionNumber := 1 }]
    | .running _ => false
  obtain ⟨c, hc, htook⟩ : ∃ c, (orderHandoff Unit ⟨10⟩ "BTCUSDC").Reachable System.Unrestricted
      (handoffStart Unit {} "BTCUSDC") noCalls c ∧ tookIt (c.thread none) = true :=
    System.exists_of_schedule moves (by decide +kernel)
  obtain ⟨l, hl, hreturned, htaken⟩ : ∃ l, c.thread none = .idle l ∧
      l.returned = [{ order with versionNumber := 1 }] ∧
      l.taken = [{ order with versionNumber := 1 }] := by
    cases hthread : c.thread none with
    | idle l =>
      rw [hthread] at htook
      exact ⟨l, rfl, of_decide_eq_true htook⟩
    | running p =>
      rw [hthread] at htook
      cases htook
  have h := ((order_handoff hc).2 l hl).1 { order with versionNumber := 1 } (by simp [hreturned])
    le_rfl
  exact ⟨c, l, _, hl, htaken, h, hc⟩

end UmTaker.Trader
