import UmTaker.Concurrency.Triple

/-!
# Data behind a lock

Threads change shared data only while they hold its lock. While the lock is free the data is
settled; while a thread holds it, no other thread changes anything. What every change of the data
keeps true for good, such as that a log only grows, other threads may rely on at any time.

## Main definitions

* `Locked T σ`: data with the thread that holds its lock
* `lockInterference`: the interference of the lock discipline

## Main results

* `stable_held`: what the holder knows stays true
* `respects_acquire`, `respects_held`, `respects_release`: what taking the lock, working behind it
  and releasing it owe the other threads
-/

namespace Concurrency

/-- Data behind a lock, and the thread that holds it. -/
structure Locked (T σ : Type) where
  data : σ
  holder : Option T

variable {T σ : Type}

/-- The lock discipline: the data is `always` well formed and `settled` while the lock is free;
each change of it is one that `grows`, and only the holder makes it. -/
def lockInterference (always settled : σ → Prop) (grows : σ → σ → Prop)
    (hrefl : ∀ d, grows d d) (htrans : ∀ d₁ d₂ d₃, grows d₁ d₂ → grows d₂ d₃ → grows d₁ d₃) :
    Interference T (Locked T σ) where
  inv s := always s.data ∧ (s.holder = none → settled s.data)
  rely t s s' := (s.holder = some t ∨ s'.holder = some t → s' = s) ∧ grows s.data s'.data
  refl _ s := ⟨fun _ => rfl, hrefl s.data⟩
  trans t s₁ s₂ s₃ h₁ h₂ := by
    refine ⟨fun h => ?_, htrans _ _ _ h₁.2 h₂.2⟩
    rcases h with h | h
    · obtain rfl := h₁.1 (Or.inl h)
      exact h₂.1 (Or.inl h)
    · obtain rfl := h₂.1 (Or.inr h)
      exact h₁.1 (Or.inr h)

variable {always settled : σ → Prop} {grows : σ → σ → Prop} {hrefl : ∀ d, grows d d}
  {htrans : ∀ d₁ d₂ d₃, grows d₁ d₂ → grows d₂ d₃ → grows d₁ d₃} {t : T} {s : Locked T σ} {d : σ}

/-- What the holder knows of the data stays true. -/
theorem stable_held (P : Locked T σ → Prop) :
    (lockInterference always settled grows hrefl htrans).Stable t
      fun s => s.holder = some t ∧ P s := by
  rintro s s' - - ⟨hkeep, -⟩ ⟨ht, hP⟩
  obtain rfl := hkeep (Or.inl ht)
  exact ⟨ht, hP⟩

/-- What grows with the data stays true. -/
theorem stable_grows {P : σ → Prop} (hP : ∀ d d', grows d d' → P d → P d') :
    (lockInterference always settled grows hrefl htrans).Stable t fun s => P s.data :=
  fun _ _ _ _ hr h => hP _ _ hr.2 h

/-- Taking the free lock. -/
theorem respects_acquire (hs : (lockInterference always settled grows hrefl htrans).inv s)
    (hfree : s.holder = none) :
    (lockInterference always settled grows hrefl htrans).Respects t s
      { s with holder := some t } := by
  refine ⟨⟨hs.1, fun h => by cases h⟩, fun u hu => ⟨fun h => ?_, hrefl _⟩⟩
  rcases h with h | h
  · rw [hfree] at h
    cases h
  · exact absurd (Option.some.inj h).symm hu

/-- Changing the data behind the lock. -/
theorem respects_held (ht : s.holder = some t) (ha : always d) (hg : grows s.data d) :
    (lockInterference always settled grows hrefl htrans).Respects t s { s with data := d } := by
  refine ⟨⟨ha, fun h => ?_⟩, fun u hu => ⟨fun h => ?_, hg⟩⟩
  · rw [ht] at h
    cases h
  · rw [ht, or_self] at h
    exact absurd (Option.some.inj h).symm hu

/-- A step that changes nothing. -/
theorem respects_read (hs : (lockInterference always settled grows hrefl htrans).inv s) :
    (lockInterference always settled grows hrefl htrans).Respects t s s :=
  ⟨hs, fun _ _ => ⟨fun _ => rfl, hrefl _⟩⟩

/-- Releasing the lock of settled data. -/
theorem respects_release (hs : (lockInterference always settled grows hrefl htrans).inv s)
    (ht : s.holder = some t) (hd : settled s.data) :
    (lockInterference always settled grows hrefl htrans).Respects t s
      { s with holder := none } := by
  refine ⟨⟨hs.1, fun _ => hd⟩, fun u hu => ⟨fun h => ?_, hrefl _⟩⟩
  rcases h with h | h
  · rw [ht] at h
    exact absurd (Option.some.inj h).symm hu
  · cases h

end Concurrency
