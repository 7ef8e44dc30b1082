import Mathlib.Data.List.Basic

/-!
# Loops whose rounds may fail

A loop over a list stops with the first round that fails, be it that the round never ends (`Option`)
or that it throws (`Except`).

## Main results

* `foldlM_isSome_iff`, `mapM_isSome_iff`: the loop ends exactly when each of its rounds does
* `exists_mem_of_mapM`: every result is one round's
* `foldlM_invariant`: what every round keeps holds of the result
-/

namespace FailingLoop

variable {α β : Type*}

/-- A loop over a list ends when each of its rounds does. -/
theorem foldlM_isSome_iff {f : β → α → Option β} {P : α → Prop}
    (h : ∀ b a, (f b a).isSome ↔ P a) (l : List α) (b : β) :
    (l.foldlM f b).isSome ↔ ∀ a ∈ l, P a := by
  induction l generalizing b with
  | nil => simp
  | cons a l ih =>
    rw [List.foldlM_cons, List.forall_mem_cons, ← h b a]
    cases f b a with
    | none => simp
    | some b' => simpa using ih b'

theorem mapM_isSome_iff {f : α → Option β} (l : List α) :
    (l.mapM f).isSome ↔ ∀ a ∈ l, (f a).isSome := by
  induction l with
  | nil => simp
  | cons a l ih =>
    rw [List.mapM_cons, List.forall_mem_cons, ← ih]
    cases f a with
    | none => simp
    | some b => cases l.mapM f <;> simp

theorem exists_mem_of_mapM {f : α → Option β} {l : List α} {l' : List β}
    (h : l.mapM f = some l') {b : β} (hb : b ∈ l') : ∃ a ∈ l, f a = some b := by
  induction l generalizing l' with
  | nil =>
    obtain rfl : [] = l' := Option.some.inj h
    cases hb
  | cons a l ih =>
    rw [List.mapM_cons] at h
    obtain ⟨head, hhead, hrest⟩ := Option.bind_eq_some_iff.mp h
    obtain ⟨tail, htail, hcons⟩ := Option.bind_eq_some_iff.mp hrest
    obtain rfl : head :: tail = l' := Option.some.inj hcons
    rcases List.mem_cons.mp hb with rfl | hmem
    · exact ⟨a, List.mem_cons_self, hhead⟩
    · obtain ⟨x, hx, hfx⟩ := ih htail hmem
      exact ⟨x, List.mem_cons_of_mem a hx, hfx⟩

/-- What every round of a loop that may throw keeps, with its number, holds of the result. -/
theorem foldlM_invariant {ξ σ ε : Type*} {round : σ → ε → Except ξ σ} {P : ℕ → σ → Prop}
    (hround : ∀ n s e s', P n s → round s e = .ok s' → P (n + 1) s') {es : List ε} {n : ℕ}
    {s s' : σ} (hs : P n s) (h : es.foldlM round s = .ok s') : P (n + es.length) s' := by
  induction es generalizing n s with
  | nil =>
    cases h
    exact hs
  | cons e es ih =>
    rw [List.foldlM_cons] at h
    cases hnext : round s e with
    | error x =>
      rw [hnext] at h
      cases h
    | ok next =>
      rw [hnext] at h
      have hdone := ih (hround n s e next hs hnext) h
      rwa [Nat.add_right_comm, Nat.add_assoc] at hdone

end FailingLoop
