import Mathlib.Logic.Basic
import Mathlib.Order.Basic
import Mathlib.Tactic.SplitIfs

/-!
# Loop bodies

One iteration of an endless loop reads and changes the variables that live across iterations. It
runs to its end and yields a value, or leaves early by `continue`; the variables keep what it
changed either way.

## Main definitions

* `Body σ α`: a loop body over the variables `σ`, as a monad
* `Body.skip`, `Body.skipWhen`, `Body.require`: the ways to `continue`
* `Body.Grows`: a measure of the variables that no way through the body lowers

## Main results

* `Body.bind_ends`, `Body.skipWhen_ends`, `Body.require_ends`, `Body.read_ends`,
  `Body.modify_ends`: when a body runs to its end, and with what
* `Body.Grows.bind`: a sequence of bodies lowers what none of them lowers
-/

namespace LoopBody

/-- A loop body: it yields a value unless it leaves by `continue`, and the variables after it. -/
def Body (σ α : Type) : Type := σ → Option α × σ

namespace Body

variable {σ α β : Type}

instance : Monad (Body σ) where
  pure a := fun s => (some a, s)
  bind x f := fun s =>
    match x s with
    | (some a, s') => f a s'
    | (none, s') => (none, s')

/-- `continue`. -/
def skip : Body σ α := fun s => (none, s)

/-- `continue` when the condition holds. -/
def skipWhen (c : Prop) [Decidable c] : Body σ Unit := if c then skip else pure ()

/-- `continue` unless there is a value. -/
def require (o : Option α) : Body σ α := fun s => (o, s)

/-- The variables. -/
def read : Body σ σ := fun s => (some s, s)

/-- Change the variables. -/
def modify (f : σ → σ) : Body σ Unit := fun s => (some (), f s)

/-- The body runs to its end from `s`, yielding `a` and leaving the variables as `s'`. -/
def Ends (x : Body σ α) (s : σ) (a : α) (s' : σ) : Prop := x s = (some a, s')

variable {x : Body σ α} {f : α → Body σ β} {s s' : σ}

@[simp] theorem pure_ends {a a' : α} : Ends (pure a : Body σ α) s a' s' ↔ a' = a ∧ s' = s := by
  simp [Ends, pure, eq_comm]

/-- A sequence ends exactly when its parts end in turn. -/
@[simp] theorem bind_ends {b : β} :
    Ends (x >>= f) s b s' ↔ ∃ a s₁, Ends x s a s₁ ∧ Ends (f a) s₁ b s' := by
  simp only [Ends, Bind.bind]
  rcases x s with ⟨_ | a, s₁⟩
  · simp
  · constructor
    · exact fun h => ⟨a, s₁, rfl, h⟩
    · rintro ⟨a', s₁', h, h'⟩
      obtain ⟨rfl, rfl⟩ : a = a' ∧ s₁ = s₁' := by simpa using h
      exact h'

@[simp] theorem skip_ends {a : α} : ¬ Ends (skip : Body σ α) s a s' := by simp [Ends, skip]

@[simp] theorem skipWhen_ends {c : Prop} [Decidable c] {u : Unit} :
    Ends (skipWhen c) s u s' ↔ ¬ c ∧ s' = s := by
  unfold skipWhen
  split_ifs with hc
  · simp [hc]
  · simp [hc]

@[simp] theorem require_ends {o : Option α} {a : α} :
    Ends (require o) s a s' ↔ o = some a ∧ s' = s := by simp [Ends, require, eq_comm]

@[simp] theorem read_ends {a : σ} : Ends read s a s' ↔ a = s ∧ s' = s := by
  simp [Ends, read, eq_comm]

@[simp] theorem modify_ends {g : σ → σ} {u : Unit} : Ends (modify g) s u s' ↔ s' = g s := by
  simp [Ends, modify, eq_comm]

/-- The value of a body, when it runs to its end. -/
theorem fst_eq_some {a : α} : (x s).1 = some a ↔ ∃ s', Ends x s a s' := by
  constructor
  · exact fun h => ⟨(x s).2, Prod.ext h rfl⟩
  · rintro ⟨s', h⟩
    rw [h]

/-! ### Measures that grow -/

section Grows

variable {P : Type*} [Preorder P] {m : σ → P}

/-- The measure of the variables does not go down, whether the body ends or leaves early. -/
def Grows (m : σ → P) (x : Body σ α) : Prop := ∀ s, m s ≤ m (x s).2

namespace Grows

theorem bind (hx : Grows m x) (hf : ∀ a, Grows m (f a)) : Grows m (x >>= f) := by
  intro s
  have hs := hx s
  simp only [Bind.bind]
  rcases h : x s with ⟨_ | a, s₁⟩
  · rwa [h] at hs
  · rw [h] at hs
    exact le_trans hs (hf a s₁)

theorem pure (a : α) : Grows m (Pure.pure a : Body σ α) := fun _ => le_refl _

theorem skipWhen (c : Prop) [Decidable c] : Grows m (Body.skipWhen c) := by
  intro s
  unfold Body.skipWhen
  split_ifs
  · exact le_refl _
  · exact le_refl _

theorem require (o : Option α) : Grows m (Body.require o) := fun _ => le_refl _

theorem read : Grows m (Body.read : Body σ σ) := fun _ => le_refl _

theorem modify {g : σ → σ} (h : ∀ s, m s ≤ m (g s)) : Grows m (Body.modify g) := h

end Grows

end Grows

end Body

end LoopBody
