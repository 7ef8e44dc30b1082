import UmTaker.Actuary.Config
import UmTaker.Concurrency.Triple
import Mathlib.Data.Finset.Insert
import Mathlib.Data.Finset.Card
import Mathlib.Tactic.SplitIfs

/-!
# The dynamic configuration

Two flags say whether orders, and orders that open positions, are stopped; each flag goes with the
set of the reasons for it. A reason is added and removed under the lock, the flags are read
without it. The flag and its set agree by construction: a `StopState` carries the proof that
orders are stopped exactly while a reason is outstanding.

## Main definitions

* `StopReason`, `StopState`, `DynamicConfig`
* `StopState.stop`, `StopState.resume`: add and remove a reason
* `DynamicOp`, `dynamicExec`: the atomic operations on the shared configuration
* `isStopAsReason`, `stopUnlessStopped`, `resumeIfStopped`: the programs of the watchdogs

## Main results

* `StopState.stopped_iff`: orders are stopped exactly while a reason is outstanding
-/

namespace UmTaker.Actuary

open Concurrency

/-- Why orders are stopped. -/
inductive StopReason
  | staticConfig
  | accountMeta
  | marginLimited
  | bnb
  | bnbShortage
  deriving DecidableEq, Repr

theorem StopReason.forall_iff {p : StopReason → Prop} :
    (∀ r, p r) ↔ p .staticConfig ∧ p .accountMeta ∧ p .marginLimited ∧ p .bnb ∧ p .bnbShortage :=
  ⟨fun h => ⟨h _, h _, h _, h _, h _⟩, fun ⟨h₁, h₂, h₃, h₄, h₅⟩ r => by cases r <;> assumption⟩

/-- A stop flag with its reasons; the flag is set exactly while there is a reason. -/
structure StopState where
  stopped : Bool
  reasons : Finset StopReason
  stopped_iff : stopped = true ↔ reasons.Nonempty

namespace StopState

/-- The state a configured stop starts in. -/
def init (configured : Bool) : StopState :=
  if configured then ⟨true, {.staticConfig}, by simp⟩ else ⟨false, ∅, by simp⟩

/-- Stop for a reason: record it if it is not recorded, and set the flag. -/
def stop (s : StopState) (reason : StopReason) : StopState where
  stopped := true
  reasons := if reason ∉ s.reasons then insert reason s.reasons else s.reasons
  stopped_iff := by
    split_ifs with h
    · exact ⟨fun _ => ⟨reason, h⟩, fun _ => rfl⟩
    · simp

/-- Resume from a reason: drop it if it is recorded, and clear the flag when none is left. -/
def resume (s : StopState) (reason : StopReason) : StopState where
  stopped := if (if reason ∈ s.reasons then s.reasons.erase reason else s.reasons).card = 0
    then false else s.stopped
  reasons := if reason ∈ s.reasons then s.reasons.erase reason else s.reasons
  stopped_iff := by
    split_ifs with hm hc hc
    · simp [Finset.card_eq_zero.mp hc]
    · have hne := Finset.card_ne_zero.mp hc
      have hs : s.stopped = true := s.stopped_iff.mpr ⟨reason, hm⟩
      exact ⟨fun _ => hne, fun _ => hs⟩
    · simp [Finset.card_eq_zero.mp hc]
    · exact s.stopped_iff

@[simp] theorem mem_init (configured : Bool) (r : StopReason) :
    r ∈ (init configured).reasons ↔ configured = true ∧ r = .staticConfig := by
  cases configured <;> simp [init]

@[simp] theorem mem_stop (s : StopState) (reason r : StopReason) :
    r ∈ (s.stop reason).reasons ↔ r = reason ∨ r ∈ s.reasons := by
  simp only [stop]
  split_ifs with h
  · exact ⟨Or.inr, fun hr => hr.elim (fun he => he ▸ h) id⟩
  · exact Finset.mem_insert

@[simp] theorem mem_resume (s : StopState) (reason r : StopReason) :
    r ∈ (s.resume reason).reasons ↔ r ≠ reason ∧ r ∈ s.reasons := by
  simp only [resume]
  split_ifs with h
  · exact Finset.mem_erase
  · exact ⟨fun hr => ⟨fun he => h (he ▸ hr), hr⟩, fun hr => hr.2⟩

/-- A recorded reason keeps the flag set. -/
theorem stopped_of_mem {s : StopState} {r : StopReason} (h : r ∈ s.reasons) : s.stopped = true :=
  s.stopped_iff.mpr ⟨r, h⟩

/-- The negated flag is set exactly while there is no reason. -/
theorem not_stopped_iff (s : StopState) : (!s.stopped) = true ↔ ∀ r, r ∉ s.reasons := by
  rw [Bool.not_eq_true', ← Bool.not_eq_true, s.stopped_iff]
  simp [Finset.Nonempty]

end StopState

/-- Which flag an operation is about: `stop_order` or `stop_open_order`. -/
inductive StopKind
  | order
  | openOrder
  deriving DecidableEq, Repr

/-- The two stop flags, each with its reasons. -/
structure DynamicConfig where
  order : StopState
  openOrder : StopState

namespace DynamicConfig

/-- The constructor: what the configuration stops from the start. -/
def init (stopMakeOrder makePositionCloseOnly : Bool) : DynamicConfig where
  order := .init stopMakeOrder
  openOrder := .init (stopMakeOrder || makePositionCloseOnly)

/-- The flag of a kind, with its reasons. -/
def get (d : DynamicConfig) : StopKind → StopState
  | .order => d.order
  | .openOrder => d.openOrder

@[simp] theorem get_order (d : DynamicConfig) : d.get .order = d.order := rfl

@[simp] theorem get_openOrder (d : DynamicConfig) : d.get .openOrder = d.openOrder := rfl

/-- Replace the flag of a kind and its reasons. -/
def set (d : DynamicConfig) : StopKind → StopState → DynamicConfig
  | .order, s => { d with order := s }
  | .openOrder, s => { d with openOrder := s }

theorem get_set (d : DynamicConfig) (k k' : StopKind) (s : StopState) :
    (d.set k s).get k' = if k' = k then s else d.get k' := by
  cases k <;> cases k' <;> rfl

/-- `is_stop_make_order`. -/
def isStopMakeOrder (d : DynamicConfig) : Bool := d.order.stopped

/-- `is_stop_make_open_order`. -/
def isStopMakeOpenOrder (d : DynamicConfig) : Bool := d.openOrder.stopped

end DynamicConfig

/-- `dynamic_could_make_order`. -/
def dynamicCouldMakeOrder (d : DynamicConfig) : Bool := !d.isStopMakeOrder

/-- `dynamic_could_make_open_position_order`. -/
def dynamicCouldMakeOpenPositionOrder (d : DynamicConfig) : Bool := !d.isStopMakeOpenOrder

/-- While a reason for it is recorded, no position may be opened. -/
theorem openPosition_stopped {d : DynamicConfig} {r : StopReason}
    (h : r ∈ d.openOrder.reasons) : dynamicCouldMakeOpenPositionOrder d = false := by
  rw [dynamicCouldMakeOpenPositionOrder, DynamicConfig.isStopMakeOpenOrder,
    StopState.stopped_of_mem h]
  rfl

/-! ## Atomic operations

The flag is read without the lock; the reasons are looked up and changed under it, together with
the flag. -/

/-- An atomic operation on the shared configuration. -/
inductive DynamicOp
  | readStop (k : StopKind)
  | findReason (k : StopKind) (reason : StopReason)
  | stop (k : StopKind) (reason : StopReason)
  | resume (k : StopKind) (reason : StopReason)

/-- The answer of an operation. -/
abbrev DynamicAns : DynamicOp → Type
  | .readStop _ => Bool
  | .findReason _ _ => Bool
  | .stop _ _ => Unit
  | .resume _ _ => Bool

/-- An operation carried out. -/
def dynamicExec (d : DynamicConfig) : (o : DynamicOp) → DynamicConfig × DynamicAns o
  | .readStop k => (d, (d.get k).stopped)
  | .findReason k r => (d, decide (0 < (d.get k).reasons.card ∧ r ∈ (d.get k).reasons))
  | .stop k r => (d.set k ((d.get k).stop r), ())
  | .resume k r => (d.set k ((d.get k).resume r), !((d.get k).resume r).stopped)

abbrev DynamicProg := Prog DynamicOp DynamicAns

/-- `is_stop_make_order_as_reason`, `is_stop_make_open_order_as_reason`: the flag first, then the
reasons. -/
def isStopAsReason (k : StopKind) (reason : StopReason) : DynamicProg Bool := do
  let stopped ← Prog.call (.readStop k)
  if stopped = false then
    pure false
  else
    Prog.call (DynamicOp.findReason k reason)

/-- Stop for a reason, unless stopped for it already. -/
def stopUnlessStopped (k : StopKind) (reason : StopReason) : DynamicProg Unit := do
  let stopped ← isStopAsReason k reason
  if stopped = false then
    Prog.call (DynamicOp.stop k reason)
  else
    pure ()

/-- Resume from a reason, if stopped for it. -/
def resumeIfStopped (k : StopKind) (reason : StopReason) : DynamicProg Unit := do
  let stopped ← isStopAsReason k reason
  if stopped = true then
    discard (Prog.call (.resume k reason))
  else
    pure ()

end UmTaker.Actuary
