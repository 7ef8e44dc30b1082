import Mathlib.Data.List.Count
import Mathlib.Data.List.Nodup
import Mathlib.Data.Nat.Notation
import Mathlib.Logic.Function.Basic

/-!
# Linearizations

The history of a shared object lists the calls made on it as they start and end. A linearization is
a sequential order of these calls that explains the history: each call is placed between its start
and its end, and has the result it has when the calls are made one after another. It is found along
a run by a ledger, in which every call is committed by one of its own steps.

## Main definitions

* `CallEvent`: the start or the end of a call
* `PlacedCall`, `Linearization`: a call in the sequential order, and the order
* `Ledger`, with `invoke`, `commit`, `respond`: the order found so far, and where each thread is
* `Kept`: what the ledger says of the history

## Main results

* `Kept.invoke`, `Kept.commit`, `Kept.respond`: the steps of a call keep the ledger
* `Kept.perm_returns`: when no call is open, the calls placed are those that returned
-/

namespace Concurrency

variable {T X R σ : Type}

/-- A thread starts a call, or ends it with a result. -/
inductive CallEvent (T X R : Type)
  | invoke (t : T) (x : X)
  | respond (t : T) (r : R)
  deriving DecidableEq

/-- The thread of an event. -/
def CallEvent.thread : CallEvent T X R → T
  | .invoke t _ => t
  | .respond t _ => t

/-- The result with which an event ends a call. -/
def CallEvent.return? : CallEvent T X R → Option (T × R)
  | .invoke _ _ => none
  | .respond t r => some (t, r)

/-- The calls that returned. -/
def returns (history : List (CallEvent T X R)) : List (T × R) := history.filterMap (·.return?)

/-- The event `i` is the last one of the thread. -/
def Latest (history : List (CallEvent T X R)) (t : T) (i : ℕ) : Prop :=
  ∀ (k : ℕ) (e : CallEvent T X R), i < k → history[k]? = some e → e.thread ≠ t

/-- A call in the sequential order: it was started by the event `invoked`, and is placed after the
first `point` events. -/
structure PlacedCall (T X R : Type) where
  thread : T
  input : X
  invoked : ℕ
  point : ℕ
  result : R

/-- The calls made one after another lead from one state to the other, with their results. -/
inductive Sequential (spec : X → σ → σ → R → Prop) (s₀ : σ) : List (PlacedCall T X R) → σ → Prop
  | nil : Sequential spec s₀ [] s₀
  | snoc {order : List (PlacedCall T X R)} {s s' : σ} {c : PlacedCall T X R}
      (h : Sequential spec s₀ order s) (hc : spec c.input s s' c.result) :
      Sequential spec s₀ (order ++ [c]) s'

/-- The order explains the history and the state: it is a sequential run, and each of its calls is
placed after its start and before its end. Every call that ended is among them, with its result. -/
structure Linearization (spec : X → σ → σ → R → Prop) (s₀ : σ)
    (history : List (CallEvent T X R)) (order : List (PlacedCall T X R)) (s : σ) : Prop where
  sequential : Sequential spec s₀ order s
  increasing : order.Pairwise fun c c' => c.point ≤ c'.point
  distinct : (order.map (·.invoked)).Nodup
  started : ∀ c ∈ order, history[c.invoked]? = some (.invoke c.thread c.input) ∧
    c.invoked < c.point ∧ c.point ≤ history.length
  ended : ∀ (j : ℕ) (t : T) (r : R), history[j]? = some (.respond t r) →
    ∃ c ∈ order, c.thread = t ∧ c.result = r ∧ c.point ≤ j ∧
      ∀ (k : ℕ) (e : CallEvent T X R), c.invoked < k → k < j → history[k]? = some e →
        e.thread ≠ t

/-! ## The ledger -/

/-- Where a thread is with its call. -/
inductive Progress (X R : Type)
  | idle
  | invoked (i : ℕ) (x : X)
  | committed (i : ℕ) (r : R)

/-- The result of a call that is committed and has not ended. -/
def Progress.pending? : Progress X R → Option R
  | .committed _ r => some r
  | _ => none

/-- The order found so far, and where each thread is. -/
structure Ledger (T X R : Type) where
  order : List (PlacedCall T X R)
  progress : T → Progress X R

namespace Ledger

variable [DecidableEq T]

/-- The ledger at the start. -/
def empty : Ledger T X R := ⟨[], fun _ => .idle⟩

/-- A thread starts a call, after `n` events. -/
def invoke (g : Ledger T X R) (t : T) (n : ℕ) (x : X) : Ledger T X R :=
  { g with progress := Function.update g.progress t (.invoked n x) }

/-- The open call of a thread takes place, after `n` events. -/
def commit (g : Ledger T X R) (t : T) (n : ℕ) (r : R) : Ledger T X R :=
  match g.progress t with
  | .invoked i x =>
    { order := g.order ++ [⟨t, x, i, n, r⟩]
      progress := Function.update g.progress t (.committed i r) }
  | _ => g

/-- A thread ends its call. -/
def respond (g : Ledger T X R) (t : T) : Ledger T X R :=
  { g with progress := Function.update g.progress t .idle }

variable {g : Ledger T X R} {t u : T} {x : X} {r : R} {i n : ℕ}

@[simp] theorem invoke_order : (g.invoke t n x).order = g.order := rfl

@[simp] theorem invoke_progress_self : (g.invoke t n x).progress t = .invoked n x :=
  Function.update_self ..

theorem invoke_progress_of_ne (h : u ≠ t) : (g.invoke t n x).progress u = g.progress u :=
  Function.update_of_ne h ..

theorem commit_order (ht : g.progress t = .invoked i x) :
    (g.commit t n r).order = g.order ++ [⟨t, x, i, n, r⟩] := by
  simp only [commit, ht]

theorem commit_progress_self (ht : g.progress t = .invoked i x) :
    (g.commit t n r).progress t = .committed i r := by
  simp only [commit, ht, Function.update_self]

theorem commit_progress_of_ne (h : u ≠ t) : (g.commit t n r).progress u = g.progress u := by
  unfold commit
  split
  · exact Function.update_of_ne h ..
  · rfl

@[simp] theorem respond_order : (g.respond t).order = g.order := rfl

@[simp] theorem respond_progress_self : (g.respond t).progress t = .idle :=
  Function.update_self ..

theorem respond_progress_of_ne (h : u ≠ t) : (g.respond t).progress u = g.progress u :=
  Function.update_of_ne h ..

end Ledger

/-! ## Histories -/

section History

variable {spec : X → σ → σ → R → Prop} {s₀ s s' : σ} {history : List (CallEvent T X R)}
  {order : List (PlacedCall T X R)} {t : T} {i : ℕ} {e : CallEvent T X R}

/-- The last event of a thread stays its last while others go on. -/
theorem Latest.snoc (h : Latest history t i) (he : e.thread ≠ t) :
    Latest (history ++ [e]) t i := by
  intro k e' hk hget
  rw [List.getElem?_append] at hget
  split_ifs at hget
  · exact h k e' hk hget
  · rw [List.getElem?_singleton] at hget
    split_ifs at hget
    obtain rfl := Option.some.inj hget
    exact he

/-- The event just added is the last one. -/
theorem latest_length : Latest (history ++ [e]) t history.length := by
  intro k e' hk hget
  have hlt := (List.getElem?_eq_some_iff.mp hget).1
  rw [List.length_append, List.length_singleton] at hlt
  omega

/-- An event that was there stays there. -/
theorem getElem?_snoc_of_some {e' : CallEvent T X R} (h : history[i]? = some e') :
    (history ++ [e])[i]? = some e' := by
  rw [List.getElem?_append_left (List.getElem?_eq_some_iff.mp h).1]
  exact h

/-- The order explains one more event, if the call that this event may end is in it. -/
theorem Linearization.snoc (h : Linearization spec s₀ history order s)
    (he : ∀ t r, e = .respond t r →
      ∃ c ∈ order, c.thread = t ∧ c.result = r ∧ Latest history t c.invoked) :
    Linearization spec s₀ (history ++ [e]) order s where
  sequential := h.sequential
  increasing := h.increasing
  distinct := h.distinct
  started := by
    intro c hc
    obtain ⟨hget, hlt, hle⟩ := h.started c hc
    refine ⟨getElem?_snoc_of_some hget, hlt, ?_⟩
    rw [List.length_append]
    omega
  ended := by
    intro j t r hj
    rw [List.getElem?_append] at hj
    split_ifs at hj with hlt
    · obtain ⟨c, hc, hthread, hresult, hpoint, hbetween⟩ := h.ended j t r hj
      refine ⟨c, hc, hthread, hresult, hpoint, fun k e' hk hkj hget => ?_⟩
      rw [List.getElem?_append_left (Nat.lt_trans hkj hlt)] at hget
      exact hbetween k e' hk hkj hget
    · rw [List.getElem?_singleton] at hj
      split_ifs at hj with hzero
      have hlast : j = history.length := by omega
      subst hlast
      obtain ⟨c, hc, hthread, hresult, hlatest⟩ := he t r (Option.some.inj hj)
      refine ⟨c, hc, hthread, hresult, (h.started c hc).2.2, fun k e' hk hkj hget => ?_⟩
      rw [List.getElem?_append_left hkj] at hget
      exact hlatest k e' hk hget

/-- A call that started and was not placed yet is placed last. -/
theorem Linearization.place (h : Linearization spec s₀ history order s) {x : X} {r : R}
    (hget : history[i]? = some (.invoke t x)) (hfresh : i ∉ order.map (·.invoked))
    (hspec : spec x s s' r) :
    Linearization spec s₀ history (order ++ [⟨t, x, i, history.length, r⟩]) s' where
  sequential := h.sequential.snoc hspec
  increasing := by
    rw [List.pairwise_append]
    refine ⟨h.increasing, List.pairwise_singleton _ _, fun c hc c' hc' => ?_⟩
    obtain rfl := List.mem_singleton.mp hc'
    exact (h.started c hc).2.2
  distinct := by
    rw [List.map_append, List.nodup_append]
    refine ⟨h.distinct, List.nodup_singleton _, fun j hj j' hj' => ?_⟩
    obtain rfl := List.mem_singleton.mp hj'
    rintro rfl
    exact hfresh hj
  started := by
    intro c hc
    rcases List.mem_append.mp hc with hc | hc
    · exact h.started c hc
    · obtain rfl := List.mem_singleton.mp hc
      exact ⟨hget, (List.getElem?_eq_some_iff.mp hget).1, Nat.le_refl _⟩
  ended := by
    intro j u r' hj
    obtain ⟨c, hc, hrest⟩ := h.ended j u r' hj
    exact ⟨c, List.mem_append_left _ hc, hrest⟩

end History

/-! ## Keeping the ledger -/

section Kept

variable [DecidableEq T] [DecidableEq R] {spec : X → σ → σ → R → Prop} {s₀ s s' : σ}
  {history : List (CallEvent T X R)} {g : Ledger T X R} {t : T} {x : X} {r : R} {i : ℕ}

/-- The ledger explains the history, and knows the open calls. -/
structure Kept (spec : X → σ → σ → R → Prop) (s₀ : σ) (history : List (CallEvent T X R))
    (s : σ) (g : Ledger T X R) : Prop where
  linearization : Linearization spec s₀ history g.order s
  invoked : ∀ t i x, g.progress t = .invoked i x →
    history[i]? = some (.invoke t x) ∧ Latest history t i ∧ i ∉ g.order.map (·.invoked)
  committed : ∀ t i r, g.progress t = .committed i r →
    (∃ c ∈ g.order, c.thread = t ∧ c.invoked = i ∧ c.result = r) ∧ Latest history t i
  counts : ∀ t r, (g.order.map fun c => (c.thread, c.result)).count (t, r) =
    (returns history).count (t, r) + if (g.progress t).pending? = some r then 1 else 0

/-- Nothing happened yet. -/
theorem kept_empty : Kept spec s₀ [] s₀ (.empty : Ledger T X R) where
  linearization :=
    { sequential := .nil
      increasing := List.Pairwise.nil
      distinct := List.nodup_nil
      started := by
        intro c hc
        cases hc
      ended := by
        intro j t r h
        cases h }
  invoked := by
    rintro t i x ⟨⟩
  committed := by
    rintro t i r ⟨⟩
  counts := by
    intro t r
    rfl

/-- An event of another thread leaves an open call as it is. -/
theorem Kept.invoked_snoc (h : Kept spec s₀ history s g) {e : CallEvent T X R} (he : e.thread ≠ t)
    (ht : g.progress t = .invoked i x) :
    (history ++ [e])[i]? = some (.invoke t x) ∧ Latest (history ++ [e]) t i ∧
      i ∉ g.order.map (·.invoked) := by
  obtain ⟨hget, hlatest, hfresh⟩ := h.invoked t i x ht
  exact ⟨getElem?_snoc_of_some hget, hlatest.snoc he, hfresh⟩

theorem Kept.committed_snoc (h : Kept spec s₀ history s g) {e : CallEvent T X R}
    (he : e.thread ≠ t) (ht : g.progress t = .committed i r) :
    (∃ c ∈ g.order, c.thread = t ∧ c.invoked = i ∧ c.result = r) ∧
      Latest (history ++ [e]) t i := by
  obtain ⟨hplaced, hlatest⟩ := h.committed t i r ht
  exact ⟨hplaced, hlatest.snoc he⟩

/-- **A thread starts a call.** -/
theorem Kept.invoke (h : Kept spec s₀ history s g) (ht : g.progress t = .idle) (x : X) :
    Kept spec s₀ (history ++ [.invoke t x]) s (g.invoke t history.length x) where
  linearization := h.linearization.snoc (by
    rintro u r ⟨⟩)
  invoked := by
    intro u j y hu
    by_cases htu : u = t
    · subst htu
      rw [Ledger.invoke_progress_self] at hu
      cases hu
      refine ⟨by simp, latest_length, fun hmem => ?_⟩
      obtain ⟨c, hc, hlength⟩ := List.mem_map.mp hmem
      obtain ⟨-, hlt, hle⟩ := h.linearization.started c hc
      omega
    · rw [Ledger.invoke_progress_of_ne htu] at hu
      exact h.invoked_snoc (Ne.symm htu) hu
  committed := by
    intro u j r hu
    by_cases htu : u = t
    · subst htu
      rw [Ledger.invoke_progress_self] at hu
      cases hu
    · rw [Ledger.invoke_progress_of_ne htu] at hu
      exact h.committed_snoc (Ne.symm htu) hu
  counts := by
    intro u r
    have hreturns : returns (history ++ [.invoke t x]) = returns history := by
      simp [returns, CallEvent.return?]
    rw [hreturns, Ledger.invoke_order, h.counts]
    by_cases htu : u = t
    · subst htu
      simp [ht, Progress.pending?]
    · rw [Ledger.invoke_progress_of_ne htu]

/-- **The open call of a thread takes place.** -/
theorem Kept.commit (h : Kept spec s₀ history s g) (ht : g.progress t = .invoked i x)
    (hspec : spec x s s' r) :
    Kept spec s₀ history s' (g.commit t history.length r) := by
  obtain ⟨hget, hlatest, hfresh⟩ := h.invoked t i x ht
  constructor
  case linearization =>
    rw [Ledger.commit_order ht]
    exact h.linearization.place hget hfresh hspec
  case invoked =>
    intro u j y hu
    by_cases htu : u = t
    · subst htu
      rw [Ledger.commit_progress_self ht] at hu
      cases hu
    · rw [Ledger.commit_progress_of_ne htu] at hu
      obtain ⟨hget', hlatest', hfresh'⟩ := h.invoked u j y hu
      refine ⟨hget', hlatest', ?_⟩
      rw [Ledger.commit_order ht, List.map_append, List.mem_append, not_or]
      refine ⟨hfresh', fun hmem => htu ?_⟩
      obtain rfl : j = i := List.mem_singleton.mp hmem
      rw [hget] at hget'
      cases hget'
      rfl
  case committed =>
    intro u j r' hu
    by_cases htu : u = t
    · subst htu
      rw [Ledger.commit_progress_self ht] at hu
      cases hu
      rw [Ledger.commit_order ht]
      exact ⟨⟨_, List.mem_append_right _ (List.mem_singleton_self _), rfl, rfl, rfl⟩, hlatest⟩
    · rw [Ledger.commit_progress_of_ne htu] at hu
      obtain ⟨⟨c, hc, hplaced⟩, hlatest'⟩ := h.committed u j r' hu
      rw [Ledger.commit_order ht]
      exact ⟨⟨c, List.mem_append_left _ hc, hplaced⟩, hlatest'⟩
  case counts =>
    intro u r'
    rw [Ledger.commit_order ht, List.map_append, List.count_append, h.counts,
      List.map_singleton, List.count_singleton]
    by_cases htu : u = t
    · subst htu
      simp [ht, Ledger.commit_progress_self ht, Progress.pending?]
    · have hne : ¬ t = u := Ne.symm htu
      simp [Ledger.commit_progress_of_ne htu, hne]

/-- **A thread ends its call**, with the result it was committed with. -/
theorem Kept.respond (h : Kept spec s₀ history s g) (ht : g.progress t = .committed i r) :
    Kept spec s₀ (history ++ [.respond t r]) s (g.respond t) where
  linearization := by
    obtain ⟨⟨c, hc, hthread, rfl, hresult⟩, hlatest⟩ := h.committed t i r ht
    refine h.linearization.snoc ?_
    rintro u r' ⟨⟩
    exact ⟨c, hc, hthread, hresult, hlatest⟩
  invoked := by
    intro u j y hu
    by_cases htu : u = t
    · subst htu
      rw [Ledger.respond_progress_self] at hu
      cases hu
    · rw [Ledger.respond_progress_of_ne htu] at hu
      exact h.invoked_snoc (Ne.symm htu) hu
  committed := by
    intro u j r' hu
    by_cases htu : u = t
    · subst htu
      rw [Ledger.respond_progress_self] at hu
      cases hu
    · rw [Ledger.respond_progress_of_ne htu] at hu
      exact h.committed_snoc (Ne.symm htu) hu
  counts := by
    intro u r'
    have hreturns : returns (history ++ [.respond t r]) = returns history ++ [(t, r)] := by
      simp [returns, CallEvent.return?]
    rw [hreturns, Ledger.respond_order, h.counts, List.count_append, List.count_singleton]
    by_cases htu : u = t
    · subst htu
      simp [ht, Progress.pending?]
    · have hne : ¬ t = u := Ne.symm htu
      simp [Ledger.respond_progress_of_ne htu, hne]

/-- **When no call is open**, the calls placed are those that returned. -/
theorem Kept.perm_returns (h : Kept spec s₀ history s g) (hidle : ∀ t, g.progress t = .idle) :
    (g.order.map fun c => (c.thread, c.result)).Perm (returns history) := by
  rw [List.perm_iff_count]
  rintro ⟨t, r⟩
  rw [h.counts, hidle]
  rfl

end Kept

end Concurrency
