import Mathlib.Data.List.Basic
import Mathlib.Data.List.Induction
import Mathlib.Data.List.Infix

/-!
# Runs over events

The state a step function reaches over a list of events, conditions on every step of such a run,
and the simulation of one run by another.

## Main definitions

* `after step s es`: the state after the events `es`
* `Every step s cond es`: each event of the run is taken in a state that meets the condition

## Main results

* `every_iff`: a condition on the states of a run as one on its events
* `after_invariant`, `Every.after_invariant`: what every step keeps, or every step that meets a
  condition, holds after every such run
* `always_iff`: a property of all states of a run as a condition on its steps
* `after_related`: two runs over the same events stay related, while each step meets the condition
  under which it keeps the relation
-/

namespace Run

variable {σ τ ε : Type*} {step : σ → ε → σ} {step' : τ → ε → τ} {s : σ} {t : τ}

/-- The state after a list of events. -/
def after (step : σ → ε → σ) (s : σ) (es : List ε) : σ := es.foldl step s

@[simp] theorem after_nil : after step s [] = s := rfl

@[simp] theorem after_snoc (es : List ε) (e : ε) :
    after step s (es ++ [e]) = step (after step s es) e := by
  simp [after]

theorem after_append (es es' : List ε) :
    after step s (es ++ es') = after step (after step s es) es' :=
  List.foldl_append

/-- Every event of the run is taken in a state that meets the condition. -/
def Every (step : σ → ε → σ) (s : σ) (cond : σ → ε → Prop) (es : List ε) : Prop :=
  ∀ before e, before ++ [e] <+: es → cond (after step s before) e

variable {cond : σ → ε → Prop}

theorem Every.of_prefix {es es' : List ε} (h : Every step s cond es) (hp : es' <+: es) :
    Every step s cond es' :=
  fun before e he => h before e (he.trans hp)

theorem every_snoc {es : List ε} {e : ε} :
    Every step s cond (es ++ [e]) ↔ Every step s cond es ∧ cond (after step s es) e := by
  constructor
  · intro h
    exact ⟨h.of_prefix (List.prefix_append es [e]), h es e List.prefix_rfl⟩
  · rintro ⟨hes, he⟩ before a hp
    rcases List.prefix_concat_iff.mp hp with heq | hp
    · obtain ⟨rfl, hlast⟩ := List.append_inj' heq rfl
      obtain rfl := List.singleton_inj.mp hlast
      exact he
    · exact hes before a hp

@[simp] theorem every_nil : Every step s cond [] := by
  intro before e hp
  simp at hp

theorem every_cons {e : ε} {es : List ε} :
    Every step s cond (e :: es) ↔ cond s e ∧ Every step (step s e) cond es := by
  constructor
  · intro h
    refine ⟨h [] e (by simp), fun before a hp => ?_⟩
    exact h (e :: before) a (by simpa using hp)
  · rintro ⟨he, hes⟩ (_ | ⟨b, before⟩) a hp
    · obtain rfl : a = e := by simpa using hp
      exact he
    · obtain ⟨rfl, hrest⟩ := List.cons_prefix_cons.mp hp
      exact hes before a hrest

/-- **A condition on the states of a run as one on its events**: where the condition has held so far
it amounts to `Q` of the events before and the next one, so it holds of the run exactly when `Q`
holds of all events. -/
theorem every_iff {Q : List ε → ε → Prop} {es : List ε}
    (h : ∀ before e, before ++ [e] <+: es → Every step s cond before →
      (cond (after step s before) e ↔ Q before e)) :
    Every step s cond es ↔ ∀ before e, before ++ [e] <+: es → Q before e := by
  constructor
  · intro hes before e hp
    have hbefore := hes.of_prefix ((List.prefix_append before [e]).trans hp)
    exact (h before e hp hbefore).mp (hes before e hp)
  · intro hQ
    induction es using List.reverseRecOn with
    | nil =>
      intro before e hp
      simp at hp
    | append_singleton es e ih =>
      have hprefix : es <+: es ++ [e] := List.prefix_append es [e]
      have hes : Every step s cond es :=
        ih (fun before a hp => h before a (hp.trans hprefix)) fun before a hp =>
          hQ before a (hp.trans hprefix)
      exact every_snoc.mpr ⟨hes, (h es e List.prefix_rfl hes).mpr (hQ es e List.prefix_rfl)⟩

/-- What every step keeps holds after every run. -/
theorem after_invariant {P : σ → Prop} (h₀ : P s) (hstep : ∀ s e, P s → P (step s e))
    (es : List ε) : P (after step s es) := by
  induction es using List.reverseRecOn with
  | nil => exact h₀
  | append_singleton es e ih =>
    rw [after_snoc]
    exact hstep _ e ih

/-- What every step that meets the condition keeps holds after every run of such steps. -/
theorem Every.after_invariant {P : σ → Prop} (h₀ : P s)
    (hstep : ∀ s e, P s → cond s e → P (step s e)) {es : List ε} (hes : Every step s cond es) :
    P (after step s es) := by
  induction es using List.reverseRecOn with
  | nil => exact h₀
  | append_singleton es e ih =>
    obtain ⟨hes, he⟩ := every_snoc.mp hes
    rw [after_snoc]
    exact hstep _ e (ih hes) he

/-- **A property of all states of a run as a condition on its steps**: where a step from a state
with the property leads to one with it exactly when the step meets the condition, every state of the
run has the property exactly when every step meets the condition. The invariant holds in any
case. -/
theorem always_iff {I P : σ → Prop} {ok : σ → ε → Prop} (hI₀ : I s) (hP₀ : P s)
    (hI : ∀ s e, I s → ok s e → I (step s e))
    (hP : ∀ s e, I s → ok s e → P s → (P (step s e) ↔ cond s e)) {es : List ε}
    (hes : Every step s ok es) :
    (∀ before, before <+: es → P (after step s before)) ↔ Every step s cond es := by
  induction es using List.reverseRecOn with
  | nil => simpa using hP₀
  | append_singleton es e ih =>
    obtain ⟨hes, he⟩ := every_snoc.mp hes
    have hinv : I (after step s es) := hes.after_invariant hI₀ hI
    rw [every_snoc, ← ih hes]
    constructor
    · intro h
      have hbefore : ∀ before, before <+: es → P (after step s before) :=
        fun before hp => h before (hp.trans (List.prefix_append es [e]))
      have hlast := h (es ++ [e]) List.prefix_rfl
      rw [after_snoc] at hlast
      exact ⟨hbefore, (hP _ e hinv he (hbefore es List.prefix_rfl)).mp hlast⟩
    · rintro ⟨hbefore, hcond⟩ before hp
      rcases List.prefix_concat_iff.mp hp with rfl | hp
      · rw [after_snoc]
        exact (hP _ e hinv he (hbefore es List.prefix_rfl)).mpr hcond
      · exact hbefore before hp

/-- Two runs over the same events stay related. -/
theorem after_related {R : σ → τ → Prop} (h₀ : R s t)
    (hstep : ∀ s t e, R s t → cond s e → R (step s e) (step' t e)) {es : List ε}
    (hes : Every step s cond es) : R (after step s es) (after step' t es) := by
  induction es using List.reverseRecOn with
  | nil => exact h₀
  | append_singleton es e ih =>
    have hlast : cond (after step s es) e := hes es e List.prefix_rfl
    have hrel : R (after step s es) (after step' t es) :=
      ih (hes.of_prefix (List.prefix_append es [e]))
    rw [after_snoc, after_snoc]
    exact hstep _ _ e hrel hlast

end Run
