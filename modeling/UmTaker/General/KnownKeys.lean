import UmTaker.General.KeyedTable
import Mathlib.Logic.Function.Basic

/-!
# Stores of known keys

A store holds one record for each key of a fixed set. An update for one of them replaces its record,
and is accepted; any other update is refused and changes nothing.

## Main definitions

* `offer`: an update of a store
* `accepted`: the updates of a run that are accepted
* `Refines`: a system whose updates are those of a store

## Main results

* `Refines.view_after`: the record of a key is that of the last update for it
* `Refines.accepted_eq`: the updates accepted are those for the keys known at the start
* `Refines.view_of_lastAccepted`: the record of a key is that of the last accepted update for it
-/

namespace KnownKeys

open KeyedTable (lastSave lastSave_snoc lastSave_filter key_of_lastSave)

variable {σ κ ν ε : Type*}

section Offer

variable [DecidableEq κ]

/-- Put a record under its key if the key is known, and tell whether it is. -/
def offer (m : κ → Option ν) (k : κ) (record : ν) : (κ → Option ν) × Bool :=
  if (m k).isSome then (Function.update m k (some record), true) else (m, false)

variable {m : κ → Option ν} {k : κ} {record : ν}

theorem offer_of_known (h : (m k).isSome) :
    offer m k record = (Function.update m k (some record), true) := if_pos h

theorem offer_of_unknown (h : m k = none) : offer m k record = (m, false) :=
  if_neg (by simp [h])

theorem offer_accepts (m : κ → Option ν) (k : κ) (record : ν) :
    (offer m k record).2 = (m k).isSome := by
  unfold offer
  split_ifs with h <;> simp [h]

/-- An offer replaces the record of its key, if there is one. -/
theorem offer_apply (k' : κ) :
    (offer m k record).1 k' = if k' = k then (m k).map fun _ => record else m k' := by
  cases hm : m k with
  | none =>
    rw [offer_of_unknown hm]
    split_ifs with hk
    · rw [hk]
      exact hm
    · rfl
  | some old =>
    rw [offer_of_known (by simp [hm]), Option.map_some]
    exact Function.update_apply m k (some record) k'

/-- No key becomes known, and none is forgotten. -/
theorem isSome_offer (m : κ → Option ν) (k : κ) (record : ν) (k' : κ) :
    ((offer m k record).1 k').isSome = (m k').isSome := by
  rw [offer_apply]
  split_ifs with hk
  · rw [hk, Option.isSome_map]
  · rfl

/-- An offer to a store that is a part of another is an offer to that other store. -/
theorem offer_part {κ' ν' : Type*} [DecidableEq κ'] (part : κ' → Option ν') (g : ν' → ν)
    {f : κ' → κ} {m' : κ → Option ν} (hf : Function.Injective f) {k : κ'} {record : ν'}
    (hpart : ∀ k', m (f k') = (part k').map g)
    (hpart' : ∀ k', m' (f k') = ((offer part k record).1 k').map g)
    (hother : ∀ k', (∀ k'', f k'' ≠ k') → m' k' = m k') :
    offer m (f k) (g record) = (m', (offer part k record).2) := by
  refine Prod.ext (funext fun k' => ?_) ?_
  · show (offer m (f k) (g record)).1 k' = m' k'
    rw [offer_apply]
    by_cases hk : ∃ k'', f k'' = k'
    · obtain ⟨k'', rfl⟩ := hk
      rw [hpart', offer_apply, hpart, hpart]
      by_cases hk : k'' = k
      · rw [if_pos (congrArg f hk), if_pos hk, Option.map_map, Option.map_map]
        rfl
      · rw [if_neg (hf.ne hk), if_neg hk]
    · have hk : ∀ k'', f k'' ≠ k' := not_exists.mp hk
      rw [if_neg (Ne.symm (hk k)), hother k' hk]
  · rw [offer_accepts, offer_accepts, hpart, Option.isSome_map]

end Offer

/-! ## Systems that are such stores -/

/-- The updates of a run that are accepted. -/
def accepted (update : σ → ε → σ × Bool) : σ → List ε → List ε
  | _, [] => []
  | s, e :: es =>
    if (update s e).2 then e :: accepted update (update s e).1 es
    else accepted update (update s e).1 es

/-- The state after an update. -/
def next (update : σ → ε → σ × Bool) (s : σ) (e : ε) : σ := (update s e).1

variable [DecidableEq κ]

/-- What is seen of the system is a store, and its updates are those of the store. -/
def Refines (update : σ → ε → σ × Bool) (view : σ → κ → Option ν) (key : ε → κ)
    (record : ε → ν) : Prop :=
  ∀ s e, offer (view s) (key e) (record e) = (view (update s e).1, (update s e).2)

namespace Refines

variable {update : σ → ε → σ × Bool} {view : σ → κ → Option ν} {key : ε → κ} {record : ε → ν}

theorem view_next (h : Refines update view key record) (s : σ) (e : ε) :
    view (next update s e) = (offer (view s) (key e) (record e)).1 := by
  rw [h s e]
  rfl

theorem accepts (h : Refines update view key record) (s : σ) (e : ε) :
    (update s e).2 = (view s (key e)).isSome := by
  rw [← offer_accepts (view s) (key e) (record e), h s e]

/-- The keys known after a run are those known before. -/
theorem isSome_after (h : Refines update view key record) (s : σ) (es : List ε) (k : κ) :
    (view (Run.after (next update) s es) k).isSome = (view s k).isSome := by
  refine Run.after_invariant (P := fun s' => (view s' k).isSome = (view s k).isSome) rfl ?_ es
  intro s' e hs'
  rw [h.view_next, isSome_offer, hs']

/-- **After a run** the record of a known key is that of the last update for it. -/
theorem view_after (h : Refines update view key record) (s : σ) (es : List ε) (k : κ) :
    view (Run.after (next update) s es) k =
      (view s k).map fun old => (lastSave key k es).elim old record := by
  induction es using List.reverseRecOn with
  | nil => cases hs : view s k <;> simp [lastSave, hs]
  | append_singleton es e ih =>
    rw [Run.after_snoc, h.view_next, offer_apply, lastSave_snoc]
    by_cases hk : key e = k
    · subst hk
      rw [if_pos rfl, if_pos rfl, ih, Option.map_map]
      rfl
    · rw [if_neg (Ne.symm hk), if_neg hk, ih]

/-- **The updates accepted** are those for the keys known at the start. -/
theorem accepted_eq (h : Refines update view key record) (s : σ) (es : List ε) :
    accepted update s es = es.filter fun e => (view s (key e)).isSome := by
  induction es generalizing s with
  | nil => rfl
  | cons e es ih =>
    have hknown : ∀ k, (view (update s e).1 k).isSome = (view s k).isSome := by
      intro k
      rw [← isSome_offer (view s) (key e) (record e) k, h s e]
    rw [accepted, ih, h.accepts, List.filter_cons]
    simp only [hknown]

/-- The last accepted update for a key is the last update for it, if the key is known. -/
theorem lastSave_accepted (h : Refines update view key record) (s : σ) (es : List ε) (k : κ) :
    lastSave key k (accepted update s es) =
      if (view s k).isSome then lastSave key k es else none := by
  rw [h.accepted_eq]
  exact lastSave_filter (fun k' => (view s k').isSome) es

/-- **The record of a key** is that of the last accepted update for it. -/
theorem view_of_lastAccepted (h : Refines update view key record) {s : σ} {es : List ε} {k : κ}
    {e : ε} (he : lastSave key k (accepted update s es) = some e) :
    view (Run.after (next update) s es) (key e) = some (record e) := by
  have hkey : key e = k := key_of_lastSave he
  -- a key with an accepted update was known at the start
  rw [h.lastSave_accepted] at he
  split_ifs at he with hknown
  obtain ⟨old, hold⟩ := Option.isSome_iff_exists.mp hknown
  rw [hkey, h.view_after, hold, he]
  rfl

end Refines

end KnownKeys
