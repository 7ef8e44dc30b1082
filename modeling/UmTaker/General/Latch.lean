import Mathlib.Data.List.Basic

/-!
# Latches over histories

A latch is switched on and off by the events of a history. It is on after a history when some
event switches it on and no later event switches it off.

## Main definitions

* `Latched on off h`: the latch is on after the history `h`

## Main results

* `latched_snoc`: one more event
-/

namespace History

variable {α : Type*} (on off : α → Prop)

/-- Some event of the history switches the latch on, and no later one switches it off. -/
def Latched (h : List α) : Prop :=
  ∃ before x after, h = before ++ x :: after ∧ on x ∧ ∀ y ∈ after, ¬ off y

@[simp] theorem not_latched_nil : ¬ Latched on off ([] : List α) := by
  rintro ⟨before, x, after, he, -⟩
  simp at he

/-- One more event: it switches the latch on, or finds it on and does not switch it off. -/
theorem latched_snoc (h : List α) (x : α) :
    Latched on off (h ++ [x]) ↔ on x ∨ (Latched on off h ∧ ¬ off x) := by
  constructor
  -- the switching event is the new one, or an earlier one that the new one does not undo
  · rintro ⟨before, y, after, he, hy, hoff⟩
    rcases List.eq_nil_or_concat after with rfl | ⟨after, z, rfl⟩
    · obtain ⟨-, h₂⟩ := List.append_inj' he rfl
      obtain rfl := List.singleton_inj.mp h₂
      exact Or.inl hy
    · rw [List.concat_eq_append, ← List.cons_append, ← List.append_assoc] at he
      obtain ⟨h₁, h₂⟩ := List.append_inj' he rfl
      obtain rfl := List.singleton_inj.mp h₂
      refine Or.inr ⟨⟨before, y, after, h₁, hy, fun w hw => hoff w ?_⟩, hoff x ?_⟩
      · simp [hw]
      · simp
  · rintro (hx | ⟨⟨before, y, after, rfl, hy, hoff⟩, hx⟩)
    · exact ⟨h, x, [], rfl, hx, by simp⟩
    · refine ⟨before, y, after ++ [x], by simp, hy, fun w hw => ?_⟩
      rcases List.mem_append.mp hw with hw | hw
      · exact hoff w hw
      · rwa [List.mem_singleton.mp hw]

end History
