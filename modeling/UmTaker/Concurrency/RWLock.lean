import UmTaker.Concurrency.Triple
import Mathlib.Data.Finset.Insert
import Mathlib.Data.Finset.Erase

/-!
# Data behind a readers–writer lock

Any number of threads hold the lock shared, or a single one holds it exclusively. The shared
holders may still change the data, by operations that are atomic by themselves; the exclusive
holder is alone with it. The invariant of the data may speak of who is inside, such as that
everything handed out is in the hands of a shared holder: the exclusive holder then knows that
nothing is.

## Main definitions

* `RWLocked T σ`: data with the shared holders and the exclusive holder of its lock
* `RWLocked.lockShared`, `RWLocked.unlockShared`, `RWLocked.lockExclusive`,
  `RWLocked.unlockExclusive`: the operations on the lock
* `rwInterference`: the interference of the discipline

## Main results

* `stable_own`, `stable_exclusive`: what a thread, and the exclusive holder, know stays true
* `respects_lockShared`, `respects_shared`, `respects_unlockShared`, `respects_lockExclusive`,
  `respects_exclusive`, `respects_unlockExclusive`: what the operations owe the other threads
-/

namespace Concurrency

/-- Data behind a readers–writer lock, the threads that hold it shared, and the one that holds it
exclusively. -/
structure RWLocked (T σ : Type) where
  data : σ
  readers : Finset T
  writer : Option T

variable {T σ : Type}

namespace RWLocked

/-- Hold the lock shared, unless it is held exclusively. -/
def lockShared [DecidableEq T] (t : T) (s : RWLocked T σ) : Option (RWLocked T σ) :=
  match s.writer with
  | none => some { s with readers := insert t s.readers }
  | some _ => none

def unlockShared [DecidableEq T] (t : T) (s : RWLocked T σ) : RWLocked T σ :=
  { s with readers := s.readers.erase t }

/-- Hold the lock exclusively, unless it is held. -/
def lockExclusive [DecidableEq T] (t : T) (s : RWLocked T σ) : Option (RWLocked T σ) :=
  match s.writer with
  | none => if s.readers = ∅ then some { s with writer := some t } else none
  | some _ => none

def unlockExclusive (s : RWLocked T σ) : RWLocked T σ := { s with writer := none }

theorem lockShared_eq_some [DecidableEq T] {t : T} {s s' : RWLocked T σ}
    (h : s.lockShared t = some s') :
    s.writer = none ∧ s' = { s with readers := insert t s.readers } := by
  unfold lockShared at h
  split at h
  · next hw => exact ⟨hw, (Option.some.inj h).symm⟩
  · cases h

theorem lockExclusive_eq_some [DecidableEq T] {t : T} {s s' : RWLocked T σ}
    (h : s.lockExclusive t = some s') :
    s.writer = none ∧ s.readers = ∅ ∧ s' = { s with writer := some t } := by
  unfold lockExclusive at h
  split at h
  · next hw =>
    split_ifs at h with hr
    exact ⟨hw, hr, (Option.some.inj h).symm⟩
  · cases h

end RWLocked

/-- The discipline of a readers–writer lock: an exclusive holder excludes the shared ones, the data
satisfies an invariant that may speak of the shared holders, every thread keeps its hold on the
lock and its own part of the data while the others step, and an exclusive holder keeps all of it. -/
def rwInterference (inv : Finset T → σ → Prop) (own : T → σ → σ → Prop)
    (hrefl : ∀ t d, own t d d)
    (htrans : ∀ t d₁ d₂ d₃, own t d₁ d₂ → own t d₂ d₃ → own t d₁ d₃) :
    Interference T (RWLocked T σ) where
  inv s := (∀ t, s.writer = some t → s.readers = ∅) ∧ inv s.readers s.data
  rely t s s' := (t ∈ s'.readers ↔ t ∈ s.readers) ∧ (s'.writer = some t ↔ s.writer = some t) ∧
    (s.writer = some t → s'.data = s.data) ∧ own t s.data s'.data
  refl t s := ⟨Iff.rfl, Iff.rfl, fun _ => rfl, hrefl t s.data⟩
  trans t s₁ s₂ s₃ := by
    rintro ⟨hr₁, hw₁, hd₁, ho₁⟩ ⟨hr₂, hw₂, hd₂, ho₂⟩
    refine ⟨hr₂.trans hr₁, hw₂.trans hw₁, fun h => ?_, htrans t _ _ _ ho₁ ho₂⟩
    rw [hd₂ (hw₁.mpr h), hd₁ h]

section Rules

variable {inv : Finset T → σ → Prop} {own : T → σ → σ → Prop} {hrefl : ∀ t d, own t d d}
  {htrans : ∀ t d₁ d₂ d₃, own t d₁ d₂ → own t d₂ d₃ → own t d₁ d₃} {t : T} {s : RWLocked T σ}
  {d : σ}

/-- What a thread knows of its own part of the data stays true. -/
theorem stable_own {P : σ → Prop} (hP : ∀ d d', own t d d' → P d → P d') :
    (rwInterference inv own hrefl htrans).Stable t fun s => P s.data :=
  fun _ _ _ _ hr h => hP _ _ hr.2.2.2 h

/-- A thread that holds the lock shared keeps holding it. -/
theorem stable_shared : (rwInterference inv own hrefl htrans).Stable t fun s => t ∈ s.readers :=
  fun _ _ _ _ hr h => hr.1.mpr h

/-- What the exclusive holder knows of the data stays true. -/
theorem stable_exclusive (P : σ → Prop) :
    (rwInterference inv own hrefl htrans).Stable t fun s => s.writer = some t ∧ P s.data := by
  rintro s s' - - ⟨-, hw, hd, -⟩ ⟨ht, hP⟩
  refine ⟨hw.mpr ht, ?_⟩
  rw [hd ht]
  exact hP

/-- Holding the lock shared. -/
theorem respects_lockShared [DecidableEq T] (hs : (rwInterference inv own hrefl htrans).inv s)
    (hfree : s.writer = none) (h : inv s.readers s.data → inv (insert t s.readers) s.data) :
    (rwInterference inv own hrefl htrans).Respects t s
      { s with readers := insert t s.readers } := by
  refine ⟨⟨fun u hu => ?_, h hs.2⟩, fun u hu => ⟨?_, Iff.rfl, fun _ => rfl, hrefl u _⟩⟩
  · rw [hfree] at hu
    cases hu
  · simp [hu]

/-- A shared holder excludes an exclusive one. -/
theorem writer_eq_none (hs : (rwInterference inv own hrefl htrans).inv s) (ht : t ∈ s.readers) :
    s.writer = none := by
  cases hw : s.writer with
  | none => rfl
  | some u =>
    rw [hs.1 u hw] at ht
    simp at ht

/-- An atomic operation of a shared holder on the data. -/
theorem respects_shared (hs : (rwInterference inv own hrefl htrans).inv s) (ht : t ∈ s.readers)
    (hd : inv s.readers d) (hown : ∀ u, u ≠ t → own u s.data d) :
    (rwInterference inv own hrefl htrans).Respects t s { s with data := d } := by
  -- with a shared holder inside, no other thread relies on all of the data
  have hfree := writer_eq_none hs ht
  refine ⟨⟨hs.1, hd⟩, fun u hu => ⟨Iff.rfl, Iff.rfl, fun hw => ?_, hown u hu⟩⟩
  rw [hfree] at hw
  cases hw

/-- Giving up the shared lock, with a last operation on the data. -/
theorem respects_unlockShared [DecidableEq T] (hs : (rwInterference inv own hrefl htrans).inv s)
    (ht : t ∈ s.readers) (hd : inv (s.readers.erase t) d) (hown : ∀ u, u ≠ t → own u s.data d) :
    (rwInterference inv own hrefl htrans).Respects t s
      { s with data := d, readers := s.readers.erase t } := by
  have hfree := writer_eq_none hs ht
  refine ⟨⟨fun u hu => ?_, hd⟩, fun u hu => ⟨?_, Iff.rfl, fun hw => ?_, hown u hu⟩⟩
  · rw [hs.1 u hu] at ht
    simp at ht
  · simp [hu]
  · rw [hfree] at hw
    cases hw

/-- Holding the lock exclusively. -/
theorem respects_lockExclusive (hs : (rwInterference inv own hrefl htrans).inv s)
    (hfree : s.writer = none) (hempty : s.readers = ∅) :
    (rwInterference inv own hrefl htrans).Respects t s { s with writer := some t } := by
  refine ⟨⟨fun _ _ => hempty, hs.2⟩, fun u hu => ⟨Iff.rfl, ?_, fun _ => rfl, hrefl u _⟩⟩
  simp [hfree, hu.symm]

/-- An operation of the exclusive holder on the data, with nobody else inside. -/
theorem respects_exclusive (hs : (rwInterference inv own hrefl htrans).inv s)
    (ht : s.writer = some t) (hd : inv ∅ d) (hown : ∀ u, u ≠ t → own u s.data d) :
    (rwInterference inv own hrefl htrans).Respects t s { s with data := d } := by
  have hempty := hs.1 t ht
  refine ⟨⟨hs.1, by rwa [hempty]⟩, fun u hu => ⟨Iff.rfl, Iff.rfl, fun hw => ?_, hown u hu⟩⟩
  rw [ht] at hw
  exact absurd (Option.some.inj hw).symm hu

/-- Giving up the exclusive lock. -/
theorem respects_unlockExclusive (hs : (rwInterference inv own hrefl htrans).inv s)
    (ht : s.writer = some t) :
    (rwInterference inv own hrefl htrans).Respects t s { s with writer := none } := by
  refine ⟨⟨fun u hu => ?_, hs.2⟩, fun u hu => ⟨Iff.rfl, ?_, fun _ => rfl, hrefl u _⟩⟩
  · cases hu
  · simp [ht, hu.symm]

end Rules

end Concurrency
