import UmTaker.Concurrency.Lock
import UmTaker.Shm.Records
import Mathlib.Data.List.Pairwise

/-!
# The order slot

One slot of the order segment, shared by the strategies that write it and the trader that reads
it. A writer looks at the update time without the lock, takes the lock, looks again, and stores an
order that is newer field by field; a reader copies the fields behind the lock. The memory is
sequentially consistent: every load and store is one atomic operation.

## Main definitions

* `OrderField`, `OrderOp`, `orderExec`: the atomic operations on a slot
* `orderShmWriterUpdate`, `orderShmReaderGet`: the programs of writer and reader
* `SlotData`: a slot with the log of the records it accepted
* `Chained`, `Settled`: what holds of the log, and of the slot while its lock is free

## Main results

* `orderShmWriterUpdate_spec`: a writer keeps the log chained and leaves the slot settled
* `orderShmReaderGet_spec`: a reader returns the first record of the slot or one of the log
-/

namespace UmTaker.Shm

open Concurrency

/-! ## Fields -/

/-- The fields of an order record. -/
inductive OrderField
  | instId
  | type
  | side
  | posSide
  | timeInForce
  | clientOrderId
  | price
  | volume
  | reduceOnly
  | updateTime
  | versionNumber
  deriving DecidableEq, Repr

/-- Copy one field from a record into another. -/
def OrderField.copy (f : OrderField) (src dst : OrderShm) : OrderShm :=
  match f with
  | .instId => { dst with instId := src.instId }
  | .type => { dst with type := src.type }
  | .side => { dst with side := src.side }
  | .posSide => { dst with posSide := src.posSide }
  | .timeInForce => { dst with timeInForce := src.timeInForce }
  | .clientOrderId => { dst with clientOrderId := src.clientOrderId }
  | .price => { dst with price := src.price }
  | .volume => { dst with volume := src.volume }
  | .reduceOnly => { dst with reduceOnly := src.reduceOnly }
  | .updateTime => { dst with updateTime := src.updateTime }
  | .versionNumber => { dst with versionNumber := src.versionNumber }

/-- Copy fields one after the other. -/
def copyFields (fields : List OrderField) (src dst : OrderShm) : OrderShm :=
  fields.foldl (fun dst f => f.copy src dst) dst

theorem copyFields_snoc (fields : List OrderField) (f : OrderField) (src dst : OrderShm) :
    copyFields (fields ++ [f]) src dst = f.copy src (copyFields fields src dst) := by
  simp [copyFields]

/-- What the writer copies from the order, in its order. -/
def writtenFields : List OrderField :=
  [.instId, .type, .side, .posSide, .timeInForce, .clientOrderId, .price, .volume, .reduceOnly,
    .updateTime]

/-- What the reader copies from the slot, in its order. -/
def readFields : List OrderField := writtenFields ++ [.versionNumber]

/-- The writer leaves the version to be stored last. -/
theorem copyFields_written (src dst : OrderShm) :
    copyFields writtenFields src dst = { src with versionNumber := dst.versionNumber } := by
  simp [copyFields, writtenFields, OrderField.copy]

/-- The reader leaves nothing out. -/
theorem copyFields_read (src dst : OrderShm) : copyFields readFields src dst = src := by
  rw [readFields, copyFields_snoc, copyFields_written]
  rfl

/-! ## Operations -/

/-- A slot: the record in memory, and the log of the records accepted so far. -/
structure SlotData where
  record : OrderShm
  accepted : List OrderShm

/-- `order_shm_writer_init`: the fields it clears, over what the memory holds. -/
def orderShmWriterInit (memory : OrderShm) (instId : String) : SlotData where
  record :=
    { memory with
      instId := instId, price := 0, volume := 0, updateTime := 0, versionNumber := 0
      reduceOnly := 0 }
  accepted := []

/-- Store one field. Storing the version completes a record, which enters the log. -/
def SlotData.store (d : SlotData) (f : OrderField) (src : OrderShm) : SlotData where
  record := f.copy src d.record
  accepted := if f = .versionNumber then d.accepted ++ [src] else d.accepted

/-- An atomic operation on a slot. -/
inductive OrderOp
  | load (f : OrderField)
  | store (f : OrderField) (src : OrderShm)
  | acquireLock
  | releaseLock

/-- The answer of an operation: a load answers a record that holds the loaded field only. -/
abbrev OrderAns : OrderOp → Type
  | .load _ => OrderShm
  | .store _ _ => Unit
  | .acquireLock => Unit
  | .releaseLock => Unit

variable {T : Type}

/-- An operation carried out. `common_acquire_lock` spins until the lock is free. -/
def orderExec (t : T) : (o : OrderOp) → Locked T SlotData →
    Option (Locked T SlotData × OrderAns o)
  | .load f, s => some (s, f.copy s.data.record {})
  | .store f src, s => some ({ s with data := s.data.store f src }, ())
  | .acquireLock, s =>
    match s.holder with
    | none => some ({ s with holder := some t }, ())
    | some _ => none
  | .releaseLock, s => some ({ s with holder := none }, ())

abbrev OrderProg := Prog OrderOp OrderAns

/-! ## Programs -/

/-- The part of `order_shm_writer_update` behind the lock. -/
def writeLocked (order : OrderShm) : OrderProg ℤ := do
  let hist ← Prog.call (OrderOp.load .updateTime)
  if hist.updateTime < order.updateTime then do
    writtenFields.forM fun f => Prog.call (OrderOp.store f order)
    let version ← Prog.call (OrderOp.load .versionNumber)
    Prog.call
      (OrderOp.store .versionNumber { order with versionNumber := version.versionNumber + 1 })
    -- the first record of a slot is stored, but not reported as an update
    pure (if 0 < hist.updateTime then 1 else 0)
  else
    pure 0

/-- `order_shm_writer_update`. -/
def orderShmWriterUpdate (order : OrderShm) : OrderProg ℤ := do
  let hist ← Prog.call (OrderOp.load .updateTime)
  if hist.updateTime < order.updateTime then do
    -- what was read may be old by now, so it is read again behind the lock
    Prog.call OrderOp.acquireLock
    let updateResult ← writeLocked order
    Prog.call OrderOp.releaseLock
    pure updateResult
  else
    pure 0

/-- `order_shm_reader_get`. -/
def orderShmReaderGet : OrderProg OrderShm := do
  Prog.call OrderOp.acquireLock
  let instance_ ← readFields.foldlM
    (fun copy f => do
      let field ← Prog.call (OrderOp.load f)
      pure (f.copy field copy)) {}
  Prog.call OrderOp.releaseLock
  pure instance_

/-! ## The log -/

/-- The update times of the log increase from zero, and its records are numbered from one. -/
structure Chained (d : SlotData) : Prop where
  increasing : ((0 : ℤ) :: d.accepted.map (·.updateTime)).Pairwise (· < ·)
  numbered : ∀ (i : ℕ) r, d.accepted[i]? = some r → r.versionNumber = i + 1

/-- The slot holds the last record of the log, or the one it was initialised with. -/
def Settled (first : OrderShm) (d : SlotData) : Prop :=
  d.record = d.accepted.getLast?.getD first

/-- The log only grows. -/
def Grows (d d' : SlotData) : Prop := d.accepted <+: d'.accepted

/-- The lock discipline of a slot. -/
def slotInterference (T : Type) (first : OrderShm) : Interference T (Locked T SlotData) :=
  lockInterference Chained (Settled first) Grows (fun _ => List.prefix_rfl)
    (fun _ _ _ h₁ h₂ => h₁.trans h₂)

/-- A record that no update has touched. -/
structure Blank (r : OrderShm) : Prop where
  updateTime : r.updateTime = 0
  versionNumber : r.versionNumber = 0

theorem blank_init (memory : OrderShm) (instId : String) :
    Blank (orderShmWriterInit memory instId).record := ⟨rfl, rfl⟩

section Log

variable {first : OrderShm} {d : SlotData}

/-- While the lock is free the slot is no older than any record of the log, and carries the number
of the last. -/
theorem Settled.record (hfirst : Blank first) (hs : Settled first d) (hd : Chained d) :
    (∀ u ∈ (0 : ℤ) :: d.accepted.map (·.updateTime), u ≤ d.record.updateTime) ∧
      d.record.versionNumber = d.accepted.length := by
  have hinc := hd.increasing
  have hnum := hd.numbered
  unfold Settled at hs
  rcases List.eq_nil_or_concat d.accepted with hnil | ⟨earlier, last, hlast⟩
  · rw [hnil] at hs ⊢
    change d.record = first at hs
    rw [hs]
    simp [hfirst.updateTime, hfirst.versionNumber]
  · rw [List.concat_eq_append] at hlast
    rw [hlast, List.getLast?_concat] at hs
    change d.record = last at hs
    rw [hs]
    constructor
    · intro u hu
      rw [hlast, List.map_append, ← List.cons_append] at hinc hu
      rcases List.mem_append.mp hu with hu | hu
      · exact ((List.pairwise_append.mp hinc).2.2 u hu _ (by simp)).le
      · simp only [List.map_cons, List.map_nil, List.mem_singleton] at hu
        exact hu.le
    · have hget : d.accepted[earlier.length]? = some last := by rw [hlast]; simp
      rw [hnum _ _ hget, hlast]
      simp

/-- **Accepting a newer order** keeps the log chained. -/
theorem Chained.snoc (hfirst : Blank first) (hs : Settled first d) (hd : Chained d)
    {order : OrderShm} (hnew : d.record.updateTime < order.updateTime) (r : OrderShm) :
    Chained { record := r, accepted := d.accepted ++
      [{ order with versionNumber := d.record.versionNumber + 1 }] } := by
  obtain ⟨hle, hversion⟩ := hs.record hfirst hd
  constructor
  · show List.Pairwise _ (0 :: List.map _ (_ ++ _))
    rw [List.map_append, ← List.cons_append, List.pairwise_append]
    refine ⟨hd.increasing, by simp, fun u hu v hv => ?_⟩
    simp only [List.map_cons, List.map_nil, List.mem_singleton] at hv
    rw [hv]
    exact (hle u hu).trans_lt hnew
  · intro i r' hi
    change (_ ++ _)[i]? = _ at hi
    rcases lt_or_ge i d.accepted.length with hlt | hge
    · rw [List.getElem?_append_left hlt] at hi
      exact hd.numbered i r' hi
    · rw [List.getElem?_append_right hge, List.getElem?_singleton] at hi
      split_ifs at hi with hzero
      obtain rfl := Option.some.inj hi
      show d.record.versionNumber + 1 = _
      omega

end Log

/-! ## Triples -/

section Triples

variable {L C : T → Type} {S : System T (Locked T SlotData) L C OrderOp OrderAns}
  {first : OrderShm} {t : T} {d : SlotData}

abbrev SlotTriple {α : Type} (S : System T (Locked T SlotData) L C OrderOp OrderAns)
    (first : OrderShm) (t : T) :=
  Triple (α := α) S System.Unrestricted (slotInterference T first) t

/-- The thread holds the lock of this data. -/
def Holding (t : T) (d : SlotData) (s : Locked T SlotData) : Prop :=
  s.holder = some t ∧ s.data = d

theorem Holding.stable : (slotInterference T first).Stable t (Holding t d) :=
  stable_held fun s => s.data = d

/-- The record is the first of the slot, or one of the log. -/
def Published (first r : OrderShm) (d : SlotData) : Prop := r = first ∨ r ∈ d.accepted

theorem Published.grows {r : OrderShm} {d d' : SlotData} (hg : Grows d d')
    (h : Published first r d) : Published first r d' :=
  h.imp_right fun hmem => hg.subset hmem

/-- A published record with a version is the record of the log that has this number. -/
theorem Published.accepted {r : OrderShm} (hfirst : Blank first) (hd : Chained d)
    (h : Published first r d) (hversion : 1 ≤ r.versionNumber) :
    d.accepted[(r.versionNumber - 1).toNat]? = some r := by
  rcases h with rfl | hmem
  · have := hfirst.versionNumber
    omega
  · obtain ⟨i, hi⟩ := List.getElem?_of_mem hmem
    have hnumber := hd.numbered i r hi
    have hindex : (r.versionNumber - 1).toNat = i := by omega
    rw [hindex, hi]

variable (hS : ∀ t o s, S.exec t o s = orderExec t o s)

include hS

/-- Taking the lock of a slot finds it settled, and keeps what grows with the log. -/
theorem acquireLock_spec {P : SlotData → Prop} (hP : ∀ d d', Grows d d' → P d → P d') :
    SlotTriple S first t (fun s => P s.data) (Prog.call OrderOp.acquireLock)
      fun _ s => ∃ d, Holding t d s ∧ Settled first d ∧ P d := by
  apply Triple.call (stable_grows hP)
  rintro s hs h - s' a he
  rw [hS, orderExec] at he
  split at he
  · next hfree =>
    obtain ⟨rfl, rfl⟩ := Prod.mk.inj (Option.some.inj he)
    exact ⟨respects_acquire hs hfree, s.data, ⟨rfl, rfl⟩, hs.2 hfree, h⟩
  · cases he

theorem load_spec (f : OrderField) :
    SlotTriple S first t (Holding t d) (Prog.call (OrderOp.load f))
      fun r s => Holding t d s ∧ r = f.copy d.record {} := by
  apply Triple.call Holding.stable
  rintro s hs h - s' a he
  rw [hS] at he
  obtain ⟨rfl, rfl⟩ := Prod.mk.inj (Option.some.inj he)
  refine ⟨respects_read hs, h, ?_⟩
  rw [h.2]

theorem store_spec (f : OrderField) (src : OrderShm) (hd : Chained (d.store f src)) :
    SlotTriple S first t (Holding t d) (Prog.call (OrderOp.store f src))
      fun _ => Holding t (d.store f src) := by
  apply Triple.call Holding.stable
  rintro s - ⟨hholder, rfl⟩ - s' a he
  rw [hS] at he
  obtain ⟨rfl, rfl⟩ := Prod.mk.inj (Option.some.inj he)
  -- a store of the version adds to the log, any other leaves it
  refine ⟨respects_held hholder hd ?_, hholder, rfl⟩
  unfold Grows SlotData.store
  split_ifs
  · exact List.prefix_append _ _
  · exact List.prefix_rfl

/-- Releasing the lock of a settled slot. -/
theorem releaseLock_spec (hd : Settled first d) :
    SlotTriple S first t (Holding t d) (Prog.call OrderOp.releaseLock)
      fun _ s => Grows d s.data := by
  apply Triple.call Holding.stable
  rintro s hs ⟨hholder, rfl⟩ - s' a he
  rw [hS] at he
  obtain ⟨rfl, rfl⟩ := Prod.mk.inj (Option.some.inj he)
  exact ⟨respects_release hs hholder hd, List.prefix_rfl⟩

/-- The writer's copies of the fields leave the version and the log as they are. -/
theorem storeFields_spec (order : OrderShm) (hd : Chained d) :
    SlotTriple S first t (Holding t d)
      (writtenFields.forM fun f => Prog.call (OrderOp.store f order))
      fun _ => Holding t { d with record :=
        { order with versionNumber := d.record.versionNumber } } := by
  rw [← copyFields_written order d.record]
  refine Triple.forM
    (A := fun done => Holding t { d with record := copyFields done order d.record })
    fun done f rest he => ?_
  have hf : f ≠ .versionNumber := by
    have hmem : f ∈ writtenFields := by simp [he]
    rintro rfl
    exact absurd hmem (by decide)
  have hstore : ({ d with record := copyFields done order d.record } : SlotData).store f order =
      { d with record := copyFields (done ++ [f]) order d.record } := by
    rw [copyFields_snoc, SlotData.store, if_neg hf]
  have hchained : Chained ({ d with record := copyFields (done ++ [f]) order d.record }) :=
    ⟨hd.increasing, hd.numbered⟩
  rw [← hstore] at hchained ⊢
  exact store_spec hS f order hchained

/-- **Writing behind the lock** leaves the slot settled, with an order that is newer as the next
record of the log. -/
theorem writeLocked_spec (hfirst : Blank first) (order : OrderShm) (hs : Settled first d)
    (hd : Chained d) :
    SlotTriple S first t (Holding t d) (writeLocked order)
      fun _ s => ∃ d', Holding t d' s ∧ Settled first d' := by
  refine Triple.bind (load_spec hS _) fun hist => Triple.of_pre ?_
  rintro rfl
  -- the second look, behind the lock, is the one that counts
  refine Triple.ite (fun hnew => ?_) fun _ => Triple.ret fun s _ h => ⟨d, h, hs⟩
  -- the lock is held since the second look, so the version read is that of the last record
  refine Triple.bind (storeFields_spec hS order hd) fun _ =>
    Triple.bind (load_spec hS _) fun version => Triple.of_pre ?_
  rintro rfl
  have hchained := hd.snoc hfirst hs hnew
    { order with versionNumber := d.record.versionNumber + 1 }
  refine Triple.bind (store_spec hS _ _ hchained) fun _ => Triple.ret fun s _ h => ⟨_, h, ?_⟩
  show _ = (d.accepted ++ [_]).getLast?.getD first
  rw [List.getLast?_concat]
  rfl

/-- **A writer** owes the other threads nothing. -/
theorem orderShmWriterUpdate_spec (hfirst : Blank first) (order : OrderShm) :
    SlotTriple S first t (fun _ => True) (orderShmWriterUpdate order) fun _ _ => True := by
  refine Triple.step (R := fun _ _ => True) (Interference.Stable.const _ _) ?_ fun hist =>
    Triple.ite (fun _ => ?_) fun _ => Triple.ret fun _ _ _ => trivial
  · -- the unlocked look at the update time only decides whether to take the lock
    rintro s hs - - s' a he
    rw [hS] at he
    obtain ⟨rfl, rfl⟩ := Prod.mk.inj (Option.some.inj he)
    exact ⟨respects_read hs, trivial⟩
  · refine Triple.bind (acquireLock_spec hS (P := fun _ => True) fun _ _ _ h => h) fun _ =>
      Triple.exists_pre fun d => Triple.of_pre fun ⟨hsettled, _⟩ => ?_
    have hlocked : SlotTriple S first t (Holding t d) (writeLocked order)
        fun _ s => ∃ d', Holding t d' s ∧ Settled first d' := by
      intro s hs h
      exact writeLocked_spec hS hfirst order hsettled (h.2 ▸ hs.1) s hs h
    refine Triple.bind hlocked fun _ => Triple.exists_pre fun d' => Triple.of_pre fun hd' => ?_
    exact Triple.bind (releaseLock_spec hS hd') fun _ => Triple.ret fun _ _ _ => trivial

/-- The reader's copies of the fields make a copy of the record. -/
theorem loadFields_spec :
    SlotTriple S first t (Holding t d)
      (readFields.foldlM (fun copy f => do
        let field ← Prog.call (OrderOp.load f)
        pure (f.copy field copy)) {})
      fun copy s => Holding t d s ∧ copy = d.record := by
  rw [← copyFields_read d.record {}]
  refine (Triple.foldlM (A := fun done copy s => Holding t d s ∧
    copy = copyFields done d.record {}) fun done f rest copy _ => Triple.of_pre ?_).weaken
      (fun s _ h => ⟨h, rfl⟩) fun copy s _ h => ?_
  · rintro rfl
    refine Triple.bind (load_spec hS f) fun field => Triple.ret fun s _ h => ⟨h.1, ?_⟩
    rw [h.2, copyFields_snoc]
    cases f <;> rfl
  · rwa [copyFields_read] at h ⊢

/-- **A reader** returns the first record of the slot or one of the log, and keeps what grows with
the log. -/
theorem orderShmReaderGet_spec {P : SlotData → Prop} (hP : ∀ d d', Grows d d' → P d → P d') :
    SlotTriple S first t (fun s => P s.data) orderShmReaderGet
      fun r s => Published first r s.data ∧ P s.data := by
  refine Triple.bind (acquireLock_spec hS hP) fun _ => Triple.exists_pre fun d =>
    Triple.of_pre fun ⟨hsettled, hd⟩ => ?_
  refine Triple.bind (loadFields_spec hS) fun copy => Triple.of_pre ?_
  rintro rfl
  refine Triple.bind (releaseLock_spec hS hsettled) fun _ => Triple.ret fun s _ hg => ?_
  refine ⟨Published.grows hg ?_, hP _ _ hg hd⟩
  unfold Settled at hsettled
  rcases hlast : d.accepted.getLast? with _ | r
  · rw [hlast] at hsettled
    exact Or.inl hsettled
  · rw [hlast] at hsettled
    exact Or.inr (hsettled ▸ List.mem_of_getLast? hlast)

end Triples

end UmTaker.Shm
