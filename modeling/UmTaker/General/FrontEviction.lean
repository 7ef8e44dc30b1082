import UmTaker.General.Run
import Mathlib.Data.List.TakeWhile
import Mathlib.Order.Basic

/-!
# Eviction from the front

A list in the order of arrival is cleaned from its front: elements that a test takes for dead are
dropped up to the first one it does not. The test may take a live element for dead, but no dead one
for live. Over a run, each event appends its item to a queue and cleans it by the tests of its time.

## Main results

* `takeWhile_dead_iff`: no live element is dropped exactly when the first live one is not taken for
  dead
* `dropWhile_eq_filter_iff`: the live elements are what is left exactly when, besides, none stands
  before a dead one
* `dropWhile_eq_filter`: a test that does not err on a list leaves its live elements, if the dead
  ones stand in front
* `exact_iff`: over a run, the queue holds the live items of all events exactly when each event
  leaves the live ones of the queue it finds
-/

namespace FrontEviction

variable {α : Type*} {evicts live : α → Bool}

/-- **No live element is dropped** exactly when the first live one is not taken for dead. -/
theorem takeWhile_dead_iff (hdead : ∀ x, live x = false → evicts x = true) (l : List α) :
    (∀ x ∈ l.takeWhile evicts, live x = false) ↔ ∀ x ∈ l.find? live, evicts x = false := by
  induction l with
  | nil => simp
  | cons a l ih =>
    cases hlive : live a with
    | false =>
      rw [List.takeWhile_cons_of_pos (hdead a hlive), List.find?_cons_of_neg (by simp [hlive]),
        List.forall_mem_cons, ih]
      simp [hlive]
    | true =>
      rw [List.find?_cons_of_pos hlive]
      cases hevicts : evicts a with
      | false => simp [hevicts]
      | true => simp [hevicts, hlive]

/-- **The live elements are what is left** exactly when none of them stands before a dead one and
the first is not taken for dead. -/
theorem dropWhile_eq_filter_iff (hdead : ∀ x, live x = false → evicts x = true) (l : List α) :
    l.dropWhile evicts = l.filter live ↔
      l.Pairwise (fun a b => live a = true → live b = true) ∧
        ∀ x ∈ l.find? live, evicts x = false := by
  induction l with
  | nil => simp
  | cons a l ih =>
    cases hlive : live a with
    | false =>
      rw [List.dropWhile_cons_of_pos (hdead a hlive), List.filter_cons_of_neg (by simp [hlive]),
        List.find?_cons_of_neg (by simp [hlive]), List.pairwise_cons, ih]
      simp [hlive]
    | true =>
      rw [List.find?_cons_of_pos hlive, List.filter_cons_of_pos hlive, List.pairwise_cons]
      cases hevicts : evicts a with
      | false =>
        rw [List.dropWhile_cons_of_neg (by simp [hevicts])]
        have hall : l = l.filter live ↔ ∀ b ∈ l, live b = true := eq_comm.trans List.filter_eq_self
        constructor
        · intro h
          have hlive' := hall.mp (List.cons.inj h).2
          refine ⟨⟨fun b hb _ => hlive' b hb, ?_⟩, by simp [hevicts]⟩
          exact List.pairwise_of_forall_mem_list fun _ _ b hb _ => hlive' b hb
        · rintro ⟨⟨hlive', -⟩, -⟩
          rw [← hall.mpr fun b hb => hlive' b hb hlive]
      | true =>
        -- the first live element would head what is left, although it is taken for dead
        rw [List.dropWhile_cons_of_pos hevicts]
        refine iff_of_false (fun h => ?_) fun h => ?_
        · have hhead := List.head?_dropWhile_not evicts l
          rw [h, List.head?_cons] at hhead
          exact absurd hevicts (by simp [hhead])
        · exact absurd (h.2 a rfl) (by simp [hevicts])

/-- A test that does not err on a list leaves its live elements, if the dead ones are in front. -/
theorem dropWhile_eq_filter {l : List α} (hdead : ∀ x, live x = false → evicts x = true)
    (hlive : ∀ x ∈ l, live x = true → evicts x = false)
    (hl : l.Pairwise fun a b => live a = true → live b = true) :
    l.dropWhile evicts = l.filter live :=
  (dropWhile_eq_filter_iff hdead l).mpr
    ⟨hl, fun x hx => hlive x (List.mem_of_find?_eq_some hx) (List.find?_some hx)⟩

/-! ## Runs -/

section Runs

variable {σ ε τ : Type*} [Preorder τ] {step : σ → ε → σ} {s₀ : σ} {queue : σ → List α}
  {item : ε → α} {time : ε → τ} {live : τ → α → Bool}

/-- The event leaves the live ones among the queue it finds and its own item. -/
def Keeps (step : σ → ε → σ) (queue : σ → List α) (item : ε → α) (time : ε → τ)
    (live : τ → α → Bool) (s : σ) (e : ε) : Prop :=
  queue (step s e) = (queue s ++ [item e]).filter (live (time e))

/-- While every event leaves the live ones, none that is live at a later time is missing. -/
theorem filter_after (h₀ : queue s₀ = [])
    (hlive : ∀ t t' x, t ≤ t' → live t' x = true → live t x = true) {es : List ε}
    (hes : Run.Every step s₀ (Keeps step queue item time live) es) {t : τ}
    (ht : ∀ e ∈ es, time e ≤ t) :
    (queue (Run.after step s₀ es)).filter (live t) = (es.map item).filter (live t) := by
  induction es using List.reverseRecOn with
  | nil =>
    rw [Run.after_nil, h₀]
    rfl
  | append_singleton es e ih =>
    obtain ⟨hes, he⟩ := Run.every_snoc.mp hes
    have hfilter : ∀ x ∈ queue (Run.after step s₀ es) ++ [item e],
        (live t x && live (time e) x) = live t x := by
      intro x _
      cases hx : live t x with
      | false => rfl
      | true => exact hlive _ _ x (ht e (by simp)) hx
    have hkeeps : queue (step (Run.after step s₀ es) e) = _ := he
    rw [Run.after_snoc, hkeeps, List.filter_filter, List.filter_congr hfilter, List.filter_append,
      ih hes fun a ha => ht a (List.mem_append_left _ ha), ← List.filter_append, List.map_append]
    rfl

/-- **The queue of a run holds the live items of all its events** after each of them exactly when
each leaves the live ones among the queue it finds and its own item. -/
theorem exact_iff (h₀ : queue s₀ = [])
    (hlive : ∀ t t' x, t ≤ t' → live t' x = true → live t x = true) {es : List ε}
    (htime : es.Pairwise (time · ≤ time ·)) :
    (∀ before e, before ++ [e] <+: es → queue (Run.after step s₀ (before ++ [e])) =
        ((before ++ [e]).map item).filter (live (time e))) ↔
      Run.Every step s₀ (Keeps step queue item time live) es := by
  refine (Run.every_iff fun before e hp hbefore => ?_).symm
  have hbefores : ∀ a ∈ before, time a ≤ time e := by
    have hpairwise := List.pairwise_append.mp (htime.sublist hp.sublist)
    exact fun a ha => hpairwise.2.2 a ha e (List.mem_singleton.mpr rfl)
  have hfilter := filter_after (t := time e) h₀ hlive hbefore hbefores
  rw [Run.after_snoc, Keeps, List.map_append, List.filter_append, List.filter_append, hfilter]
  rfl

end Runs

end FrontEviction
