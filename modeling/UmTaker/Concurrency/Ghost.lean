import UmTaker.Concurrency.Triple

/-!
# Ghost state

What a system did is recorded beside its shared state, without any influence on its steps. Facts
about runs, such as how often something happened, become facts about the states reached.

## Main definitions

* `System.withGhost`: a system whose operations are recorded
* `Config.forget`, `Config.withRecord`: a configuration without the record, and with one

## Main results

* `System.reachable_forget`, `System.exists_ghost`: the runs are those of the system itself
* `Triple.call_withGhost`: the rule of a recorded operation
-/

namespace Concurrency

variable {T σ γ : Type} {L C : T → Type} {Op : Type} {Ans : Op → Type}

/-- A system whose operations are recorded: who performed which one in which state, and with which
answer. -/
def System.withGhost (S : System T σ L C Op Ans) (record : T → (o : Op) → σ → Ans o → γ → γ) :
    System T (σ × γ) L C Op Ans where
  exec t o s := (S.exec t o s.1).map fun r => ((r.1, record t o s.1 r.2 s.2), r.2)
  body := S.body

/-- A configuration without the record. -/
def Config.forget (c : Config T (σ × γ) L Op Ans) : Config T σ L Op Ans where
  shared := c.shared.1
  thread := c.thread

/-- A configuration with a record of what led to it. -/
def Config.withRecord (c : Config T σ L Op Ans) (g : γ) : Config T (σ × γ) L Op Ans where
  shared := (c.shared, g)
  thread := c.thread

namespace System

variable {S : System T σ L C Op Ans} {record : T → (o : Op) → σ → Ans o → γ → γ}

/-- A recorded operation is one of the system. -/
theorem exec_withGhost {t : T} {o : Op} {s s' : σ × γ} {a : Ans o}
    (h : (S.withGhost record).exec t o s = some (s', a)) :
    S.exec t o s.1 = some (s'.1, a) ∧ s'.2 = record t o s.1 a s.2 := by
  obtain ⟨⟨s₁, a'⟩, he, hpair⟩ := Option.map_eq_some_iff.mp h
  obtain ⟨rfl, rfl⟩ := Prod.mk.inj hpair
  exact ⟨he, rfl⟩

variable [DecidableEq T] {allow : T → Op → σ → Prop} {s : σ} {l : (t : T) → L t}

/-- **A recorded run is a run of the system.** -/
theorem reachable_forget {g : γ} {c : Config T (σ × γ) L Op Ans}
    (hc : (S.withGhost record).Reachable (fun t o s => allow t o s.1) (s, g) l c) :
    S.Reachable allow s l c.forget := by
  induction hc with
  | refl => exact .refl
  | tail _ h ih =>
    refine ih.tail ?_
    cases h with
    | start x ht => exact .start (S := S) x ht
    | act ht ha he => exact .act (S := S) ht ha (exec_withGhost he).1
    | finish ht => exact .finish (S := S) ht

/-- **Every run of the system can be recorded.** -/
theorem exists_ghost (g : γ) {c : Config T σ L Op Ans} (hc : S.Reachable allow s l c) :
    ∃ g', (S.withGhost record).Reachable (fun t o s => allow t o s.1) (s, g) l
      (c.withRecord g') := by
  induction hc with
  | refl => exact ⟨g, .refl⟩
  | @tail c _ _ h ih =>
    obtain ⟨g', hg⟩ := ih
    cases h with
    | start x ht => exact ⟨g', hg.tail (.start (S := S.withGhost record) x ht)⟩
    | @act t o k s' a ht ha he =>
      refine ⟨record t o c.shared a g', hg.tail (.act (S := S.withGhost record) ht ha ?_)⟩
      simp [withGhost, Config.withRecord, he]
    | finish ht => exact ⟨g', hg.tail (.finish (S := S.withGhost record) ht)⟩

end System

/-- One recorded operation: it owes what it would owe without the record, and its record beside. -/
theorem Triple.call_withGhost {S : System T σ L C Op Ans}
    {record : T → (o : Op) → σ → Ans o → γ → γ} {allow : T → Op → σ × γ → Prop}
    {I : Interference T (σ × γ)} {t : T} {P : σ × γ → Prop} {o : Op} {Q : Ans o → σ × γ → Prop}
    (hP : I.Stable t P)
    (h : ∀ s g s' a, I.inv (s, g) → P (s, g) → allow t o (s, g) → S.exec t o s = some (s', a) →
      I.Respects t (s, g) (s', record t o s a g) ∧ Q a (s', record t o s a g)) :
    Triple (S.withGhost record) allow I t P (Prog.call o) Q := by
  refine Triple.call hP ?_
  rintro ⟨s, g⟩ hs hp ha ⟨s', g'⟩ a he
  obtain ⟨hexec, hghost⟩ := System.exec_withGhost he
  obtain rfl : g' = record t o s a g := hghost
  exact h s g s' a hs hp ha hexec

end Concurrency
