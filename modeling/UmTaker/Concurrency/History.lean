import UmTaker.Concurrency.Ghost
import UmTaker.Concurrency.Invariant

/-!
# Histories of a system

A system keeps a history when each operation adds what it is noted for. A history only grows, and
some events are noted for one thread alone, so that what a thread knows of the history, and what it
knows did not happen since, survives the steps of all other threads. The threads need no assertion
about each other: each operation keeps the invariant, and adds to the history what its thread goes
on to know.

## Main definitions

* `System.withHistory`: a system that keeps a history
* `Lasting`, `LastingWithout`: what stays true of a history that grows, and of one that grows
  without certain events
* `Since`: the last event of a kind, and what held before it
* `Justified`: every event of a history is justified by those before it
* `Separate`: events that are noted for one thread alone
* `historyInterference`, `HistoryTriple`: an invariant of state and history, and programs under it

## Main results

* `HistoryTriple.call`, `HistoryTriple.bind`, `HistoryTriple.forM`, `HistoryTriple.foldlM`: the
  rules
* `HistoryTriple.of_performs`: programs whose operations keep the invariant by themselves
* `System.history_invariant`: what the programs of the calls keep holds in all states reached
-/

namespace Concurrency

variable {T σ : Type} {L C : T → Type} {Op : Type} {Ans : Op → Type} {E α β : Type}

/-! ## Growing histories -/

/-- What stays true of a history that grows. -/
def Lasting (P : List E → Prop) : Prop := ∀ H H', H <+: H' → P H → P H'

theorem Lasting.and {P Q : List E → Prop} (hP : Lasting P) (hQ : Lasting Q) :
    Lasting fun H => P H ∧ Q H :=
  fun H H' hpre h => ⟨hP H H' hpre h.1, hQ H H' hpre h.2⟩

theorem Lasting.forall {ι : Sort*} {P : ι → List E → Prop} (h : ∀ i, Lasting (P i)) :
    Lasting fun H => ∀ i, P i H :=
  fun H H' hpre hP i => h i H H' hpre (hP i)

theorem Lasting.exists {ι : Sort*} {P : ι → List E → Prop} (h : ∀ i, Lasting (P i)) :
    Lasting fun H => ∃ i, P i H := by
  rintro H H' hpre ⟨i, hP⟩
  exact ⟨i, h i H H' hpre hP⟩

theorem Lasting.const (p : Prop) : Lasting fun _ : List E => p := fun _ _ _ h => h

/-- What held at some time held at some time. -/
theorem lasting_once (P : List E → Prop) : Lasting fun H => ∃ H₀, H₀ <+: H ∧ P H₀ := by
  rintro H H' hpre ⟨H₀, hH₀, hP⟩
  exact ⟨H₀, hH₀.trans hpre, hP⟩

/-- The history grew, without events of one kind. -/
def Grows (own : E → Prop) (H H' : List E) : Prop := ∃ more, H' = H ++ more ∧ ∀ e ∈ more, ¬ own e

theorem Grows.refl (own : E → Prop) (H : List E) : Grows own H H := ⟨[], by simp, by simp⟩

theorem Grows.trans {own : E → Prop} {H₁ H₂ H₃ : List E} (h₁ : Grows own H₁ H₂)
    (h₂ : Grows own H₂ H₃) : Grows own H₁ H₃ := by
  obtain ⟨more, rfl, hmore⟩ := h₁
  obtain ⟨more', rfl, hmore'⟩ := h₂
  refine ⟨more ++ more', List.append_assoc .., fun e he => ?_⟩
  exact (List.mem_append.mp he).elim (hmore e) (hmore' e)

/-- What stays true of a history that grows without events of one kind. -/
def LastingWithout (own : E → Prop) (P : List E → Prop) : Prop :=
  ∀ H H', Grows own H H' → P H → P H'

theorem Lasting.without {P : List E → Prop} (hP : Lasting P) (own : E → Prop) :
    LastingWithout own P := by
  rintro H _ ⟨more, rfl, -⟩ h
  exact hP H _ (List.prefix_append _ _) h

theorem LastingWithout.mono {own own' : E → Prop} {P : List E → Prop} (hP : LastingWithout own P)
    (h : ∀ e, own e → own' e) : LastingWithout own' P := by
  rintro H H' ⟨more, rfl, hmore⟩ hp
  exact hP H _ ⟨more, rfl, fun e he hown => hmore e he (h e hown)⟩ hp

theorem LastingWithout.and {own : E → Prop} {P Q : List E → Prop} (hP : LastingWithout own P)
    (hQ : LastingWithout own Q) : LastingWithout own fun H => P H ∧ Q H :=
  fun H H' hgrows h => ⟨hP H H' hgrows h.1, hQ H H' hgrows h.2⟩

/-- The last event of the kind, and what held of the history before it. -/
def Since (own : E → Prop) (e : E) (P : List E → Prop) (H : List E) : Prop :=
  ∃ H₀ H₁, H = H₀ ++ e :: H₁ ∧ (∀ x ∈ H₁, ¬ own x) ∧ P H₀

/-- An event is the last of its kind when it happens. -/
theorem Since.snoc {own : E → Prop} {P : List E → Prop} {H : List E} (h : P H) (e : E) :
    Since own e P (H ++ [e]) :=
  ⟨H, [], rfl, by simp, h⟩

theorem Since.mono {own : E → Prop} {e : E} {P Q : List E → Prop} {H : List E}
    (h : Since own e P H) (hQ : ∀ H₀, H₀ <+: H → P H₀ → Q H₀) : Since own e Q H := by
  obtain ⟨H₀, H₁, rfl, hlast, hP⟩ := h
  exact ⟨H₀, H₁, rfl, hlast, hQ H₀ (List.prefix_append _ _) hP⟩

/-- The last event of a kind remains the last without events of the kind. -/
theorem lastingWithout_since (own : E → Prop) (e : E) (P : List E → Prop) :
    LastingWithout own (Since own e P) := by
  rintro H _ ⟨more, rfl, hmore⟩ ⟨H₀, H₁, rfl, hlast, hP⟩
  refine ⟨H₀, H₁ ++ more, by simp, fun x hx => ?_, hP⟩
  exact (List.mem_append.mp hx).elim (hlast x) (hmore x)

/-- Every event is justified by those before it. -/
def Justified (P : List E → E → Prop) (H : List E) : Prop :=
  ∀ H₁ e H₂, H = H₁ ++ e :: H₂ → P H₁ e

namespace Justified

variable {P : List E → E → Prop} {H : List E}

theorem nil (P : List E → E → Prop) : Justified P [] := by
  intro H₁ e H₂ h
  simp at h

/-- One more event, justified by all before it. -/
theorem snoc (h : Justified P H) {e : E} (he : P H e) : Justified P (H ++ [e]) := by
  intro H₁ e' H₂ heq
  rcases List.eq_nil_or_concat H₂ with rfl | ⟨H₃, x, rfl⟩
  · obtain ⟨rfl, hlast⟩ := List.append_inj' heq rfl
    rw [← (List.cons.inj hlast).1]
    exact he
  · rw [List.concat_eq_append, ← List.cons_append, ← List.append_assoc] at heq
    exact h H₁ e' H₃ (List.append_inj' heq rfl).1

end Justified

/-! ## Systems with a history -/

/-- A system that keeps a history of what its operations are noted for. -/
abbrev System.withHistory (S : System T σ L C Op Ans)
    (note : T → (o : Op) → σ → Ans o → List E) : System T (σ × List E) L C Op Ans :=
  S.withGhost fun t o s a H => H ++ note t o s a

/-- Every step keeps the invariant, and every thread relies on it that the history only grows, with
no event of its own noted for another thread. -/
def historyInterference (own : T → E → Prop) (inv : σ → List E → Prop) :
    Interference T (σ × List E) where
  inv s := inv s.1 s.2
  rely t s s' := Grows (own t) s.2 s'.2
  refl t s := Grows.refl (own t) s.2
  trans _ _ _ _ h₁ h₂ := h₁.trans h₂

variable {S : System T σ L C Op Ans} {note : T → (o : Op) → σ → Ans o → List E}
  {own : T → E → Prop} {inv : σ → List E → Prop} {t : T}

/-- Events of a thread's own are noted for it alone. -/
def Separate (note : T → (o : Op) → σ → Ans o → List E) (own : T → E → Prop) : Prop :=
  ∀ t u o s a, u ≠ t → ∀ e ∈ note t o s a, ¬ own u e

/-- The triples of assertions about the history. -/
def HistoryTriple (S : System T σ L C Op Ans) (note : T → (o : Op) → σ → Ans o → List E)
    (own : T → E → Prop) (inv : σ → List E → Prop) (t : T) (P : List E → Prop) (p : Prog Op Ans α)
    (Q : α → List E → Prop) : Prop :=
  Triple (S.withHistory note) System.Unrestricted (historyInterference own inv) t (fun s => P s.2) p
    fun a s => Q a s.2

namespace HistoryTriple

/-- **One operation**: it keeps the invariant, and its thread knows what the history says then. -/
theorem call (hown : Separate note own) {P : List E → Prop} {o : Op} {Q : Ans o → List E → Prop}
    (hP : LastingWithout (own t) P)
    (h : ∀ s H s' a, inv s H → P H → S.exec t o s = some (s', a) →
      inv s' (H ++ note t o s a) ∧ Q a (H ++ note t o s a)) :
    HistoryTriple S note own inv t P (Prog.call o) Q := by
  refine Triple.call_withGhost (fun s s' _ _ hgrows hp => hP s.2 s'.2 hgrows hp) ?_
  intro s H s' a hs hp _ he
  obtain ⟨hinv, hq⟩ := h s H s' a hs hp he
  -- the others rely on nothing but growth without their own events
  exact ⟨⟨hinv, fun u hu => ⟨_, rfl, hown t u o s a hu⟩⟩, hq⟩

theorem ret {P : List E → Prop} {a : α} {Q : α → List E → Prop} (h : ∀ H, P H → Q a H) :
    HistoryTriple S note own inv t P (Prog.ret a) Q :=
  Triple.ret fun s _ hp => h s.2 hp

theorem bind {P : List E → Prop} {p : Prog Op Ans α} {f : α → Prog Op Ans β}
    {R : α → List E → Prop} {Q : β → List E → Prop} (hp : HistoryTriple S note own inv t P p R)
    (hf : ∀ a, HistoryTriple S note own inv t (R a) (f a) Q) :
    HistoryTriple S note own inv t P (p >>= f) Q :=
  Triple.bind hp hf

theorem ite {P : List E → Prop} {c : Prop} [Decidable c] {p q : Prog Op Ans α}
    {Q : α → List E → Prop} (hp : c → HistoryTriple S note own inv t P p Q)
    (hq : ¬ c → HistoryTriple S note own inv t P q Q) :
    HistoryTriple S note own inv t P (if c then p else q) Q :=
  Triple.ite hp hq

theorem weaken {P P' : List E → Prop} {p : Prog Op Ans α} {Q Q' : α → List E → Prop}
    (h : HistoryTriple S note own inv t P p Q) (hP : ∀ H, P' H → P H)
    (hQ : ∀ a H, Q a H → Q' a H) : HistoryTriple S note own inv t P' p Q' :=
  Triple.weaken h (fun s _ hp => hP s.2 hp) fun a s _ hq => hQ a s.2 hq

/-- A program of operations that keep the invariant, whatever the thread knows. -/
theorem of_performs (hown : Separate note own) {R : Op → Prop} {p : Prog Op Ans α}
    (hp : p.Performs R) (h : ∀ o s H s' a, R o → inv s H → S.exec t o s = some (s', a) →
      inv s' (H ++ note t o s a)) :
    HistoryTriple S note own inv t (fun _ => True) p fun _ _ => True := by
  induction p with
  | ret a => exact ret fun _ _ => trivial
  | perform o k ih =>
    refine bind (p := Prog.call o) (f := k) (R := fun _ _ => True) (call hown ?_ ?_) fun a =>
      ih a (hp.2 a)
    · exact (Lasting.const True).without _
    · intro s H s' a hinv _ he
      exact ⟨h o s H s' a hp.1 hinv he, trivial⟩

/-- A loop over a list: the assertion holds again after each element. -/
theorem forM {X : Type} {f : X → Prog Op Ans PUnit} {P : List E → Prop} {xs : List X}
    (h : ∀ x ∈ xs, HistoryTriple S note own inv t P (f x) fun _ => P) :
    HistoryTriple S note own inv t P (xs.forM f) fun _ => P := by
  refine Triple.forM (A := fun _ (s : σ × List E) => P s.2) fun done x rest hsplit => h x ?_
  rw [hsplit]
  exact List.mem_append_right done List.mem_cons_self

/-- A loop over a list that carries a value. -/
theorem foldlM {X : Type} {f : β → X → Prog Op Ans β} {A : β → List E → Prop} {xs : List X} {b : β}
    (h : ∀ b, ∀ x ∈ xs, HistoryTriple S note own inv t (A b) (f b x) A) :
    HistoryTriple S note own inv t (A b) (xs.foldlM f b) A := by
  refine Triple.foldlM (A := fun _ b (s : σ × List E) => A b s.2) fun done x rest b hsplit =>
    h b x ?_
  rw [hsplit]
  exact List.mem_append_right done List.mem_cons_self

end HistoryTriple

variable [DecidableEq T] {s₀ : σ} {l₀ : (t : T) → L t}

/-- **What the programs of the calls keep holds in all states reached**, in whichever order the
threads step. -/
theorem System.history_invariant (hinv : inv s₀ [])
    (hbody : ∀ t l x,
      HistoryTriple S note own inv t (fun _ => True) (S.body t l x) fun _ _ => True)
    {c : Config T (σ × List E) L Op Ans}
    (hc : (S.withHistory note).Reachable System.Unrestricted (s₀, []) l₀ c) :
    inv c.shared.1 c.shared.2 := by
  let O : Outline (S.withHistory note) System.Unrestricted :=
    { I := historyInterference own inv
      atRest := fun _ _ _ => True
      stable := fun t _ => Interference.Stable.const t True
      body := hbody }
  have hstart : O.I.inv (s₀, []) := hinv
  exact O.inv hstart (fun _ => trivial) hc

end Concurrency
