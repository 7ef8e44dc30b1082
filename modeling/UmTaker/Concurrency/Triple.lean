import UmTaker.Concurrency.Program

/-!
# Triples under interference

Rely–guarantee reasoning for the programs of a system. An interference fixes what every step keeps
(the invariant) and what each thread may rely on while the others step (a preorder on states). A
program of a thread is safe from a state when each of its allowed operations, taken after any
steps of the others, keeps the invariant and what the other threads rely on. If the program of
every call is safe from what its idle thread knows, every reachable configuration satisfies the
invariant, and every idle thread knows what it is meant to know.

## Main definitions

* `Interference`: the invariant and the relies
* `Safe`, `Triple`: safety of a program from a state, and from an assertion
* `Stable`: assertions that the other threads keep
* `Outline`: the interference of a system, and the triple of every call

## Main results

* `Triple.call`, `Triple.bind`, `Triple.ret`, `Triple.weaken`, `Triple.forM`, `Triple.foldlM`: the
  rules
* `Outline.inv`, `Outline.idle`: soundness
-/

namespace Concurrency

open Prog

/-- What every step keeps, and what each thread relies on while the others step. -/
structure Interference (T σ : Type) where
  inv : σ → Prop
  rely : T → σ → σ → Prop
  refl : ∀ t s, rely t s s
  trans : ∀ t s₁ s₂ s₃, rely t s₁ s₂ → rely t s₂ s₃ → rely t s₁ s₃

variable {T σ : Type} {L C : T → Type} {Op : Type} {Ans : Op → Type} {α β : Type}

namespace Interference

variable (I : Interference T σ)

/-- What a step of `t` owes: the invariant, and the relies of the other threads. -/
def Respects (t : T) (s s' : σ) : Prop := I.inv s' ∧ ∀ u, u ≠ t → I.rely u s s'

/-- An assertion of `t` that the steps of the other threads keep. -/
def Stable (t : T) (P : σ → Prop) : Prop :=
  ∀ s s', I.inv s → I.inv s' → I.rely t s s' → P s → P s'

variable {I}

theorem Stable.and {t : T} {P Q : σ → Prop} (hP : I.Stable t P) (hQ : I.Stable t Q) :
    I.Stable t fun s => P s ∧ Q s :=
  fun s s' hs hs' hr h => ⟨hP s s' hs hs' hr h.1, hQ s s' hs hs' hr h.2⟩

theorem Stable.const (t : T) (p : Prop) : I.Stable t fun _ => p := fun _ _ _ _ _ h => h

end Interference

variable (S : System T σ L C Op Ans) (allow : T → Op → σ → Prop) (I : Interference T σ)

/-- Thread `t` runs the program safely from the state, and ends in the postcondition. -/
def Safe (t : T) (post : α → σ → Prop) : Prog Op Ans α → σ → Prop
  | .ret a, s => post a s
  | .perform o k, s => ∀ s₁, I.inv s₁ → I.rely t s s₁ → allow t o s₁ → ∀ s₂ a,
      S.exec t o s₁ = some (s₂, a) → I.Respects t s₁ s₂ ∧ Safe t post (k a) s₂

/-- The triple `{P} p {Q}` of thread `t`. -/
def Triple (t : T) (P : σ → Prop) (p : Prog Op Ans α) (Q : α → σ → Prop) : Prop :=
  ∀ s, I.inv s → P s → Safe S allow I t Q p s

variable {S allow I}

theorem Safe.mono {t : T} {Q Q' : α → σ → Prop} (hQ : ∀ a s, I.inv s → Q a s → Q' a s) :
    ∀ {p : Prog Op Ans α} {s : σ}, I.inv s → Safe S allow I t Q p s → Safe S allow I t Q' p s := by
  intro p
  -- the program is finite in depth: each answer leads to a smaller one
  induction p with
  | ret a => exact fun hs h => hQ a _ hs h
  | perform o k ih =>
    intro s _ h s₁ hi hr ha s₂ a he
    obtain ⟨hg, hk⟩ := h s₁ hi hr ha s₂ a he
    exact ⟨hg, ih a hg.1 hk⟩

theorem Safe.bind {t : T} {Q : β → σ → Prop} (f : α → Prog Op Ans β) :
    ∀ {p : Prog Op Ans α} {s : σ}, Safe S allow I t (fun a s => Safe S allow I t Q (f a) s) p s →
      Safe S allow I t Q (p >>= f) s := by
  intro p
  induction p with
  | ret a => exact fun h => h
  | perform o k ih =>
    intro s h s₁ hi hr ha s₂ a he
    obtain ⟨hg, hk⟩ := h s₁ hi hr ha s₂ a he
    exact ⟨hg, ih a hk⟩

/-- Safety survives the steps of the other threads, when the postcondition does. -/
theorem Safe.stable {t : T} {Q : α → σ → Prop} (hQ : ∀ a, I.Stable t (Q a)) :
    ∀ p : Prog Op Ans α, I.Stable t (Safe S allow I t Q p) := by
  rintro (a | ⟨o, k⟩) s s' hs hs' hr h
  · exact hQ a s s' hs hs' hr h
  -- the next operation comes after any steps of the others, so some of them may come first
  · exact fun s₁ hi hr' => h s₁ hi (I.trans t s s' s₁ hr hr')

/-! ## The rules -/

namespace Triple

variable {t : T} {P P' : σ → Prop}

theorem ret {a : α} {Q : α → σ → Prop} (h : ∀ s, I.inv s → P s → Q a s) :
    Triple S allow I t P (Prog.ret a) Q := h

/-- One operation: from a stable assertion it keeps the invariant and the relies of the others,
and establishes the postcondition. -/
theorem call {o : Op} {Q : Ans o → σ → Prop} (hP : I.Stable t P)
    (h : ∀ s, I.inv s → P s → allow t o s → ∀ s' a, S.exec t o s = some (s', a) →
      I.Respects t s s' ∧ Q a s') :
    Triple S allow I t P (Prog.call o) Q :=
  fun s hs hp s₁ hi hr ha s₂ a he => h s₁ hi (hP s s₁ hs hi hr hp) ha s₂ a he

theorem weaken {p : Prog Op Ans α} {Q Q' : α → σ → Prop} (h : Triple S allow I t P p Q)
    (hP : ∀ s, I.inv s → P' s → P s) (hQ : ∀ a s, I.inv s → Q a s → Q' a s) :
    Triple S allow I t P' p Q' :=
  fun s hs hp => Safe.mono hQ hs (h s hs (hP s hs hp))

theorem bind {p : Prog Op Ans α} {f : α → Prog Op Ans β} {R : α → σ → Prop} {Q : β → σ → Prop}
    (hp : Triple S allow I t P p R) (hf : ∀ a, Triple S allow I t (R a) (f a) Q) :
    Triple S allow I t P (p >>= f) Q :=
  fun s hs h => Safe.bind f (Safe.mono (fun a s' hs' hr => hf a s' hs' hr) hs (hp s hs h))

/-- An auxiliary value of the precondition may be fixed. -/
theorem exists_pre {X : Type} {P : X → σ → Prop} {p : Prog Op Ans α} {Q : α → σ → Prop}
    (h : ∀ x, Triple S allow I t (P x) p Q) : Triple S allow I t (fun s => ∃ x, P x s) p Q :=
  fun s hs ⟨x, hx⟩ => h x s hs hx

/-- A fact that does not speak of the state may be assumed. -/
theorem of_pre {c : Prop} {p : Prog Op Ans α} {Q : α → σ → Prop}
    (h : c → Triple S allow I t P p Q) : Triple S allow I t (fun s => P s ∧ c) p Q :=
  fun s hs hp => h hp.2 s hs hp.1

/-- A single operation followed by the rest of the program. -/
theorem step {o : Op} {f : Ans o → Prog Op Ans β} {R : Ans o → σ → Prop} {Q : β → σ → Prop}
    (hP : I.Stable t P)
    (h : ∀ s, I.inv s → P s → allow t o s → ∀ s' a, S.exec t o s = some (s', a) →
      I.Respects t s s' ∧ R a s')
    (hf : ∀ a, Triple S allow I t (R a) (f a) Q) :
    Triple S allow I t P (Prog.call o >>= f) Q :=
  bind (call hP h) hf

theorem ite {c : Prop} [Decidable c] {p q : Prog Op Ans α} {Q : α → σ → Prop}
    (hp : c → Triple S allow I t P p Q) (hq : ¬ c → Triple S allow I t P q Q) :
    Triple S allow I t P (if c then p else q) Q := by
  split_ifs with h
  · exact hp h
  · exact hq h

/-- A loop over a list: `A done` holds after the elements of `done`. -/
theorem forM {X : Type} {f : X → Prog Op Ans PUnit} {A : List X → σ → Prop} {xs : List X}
    (h : ∀ done x rest, xs = done ++ x :: rest →
      Triple S allow I t (A done) (f x) fun _ => A (done ++ [x])) :
    Triple S allow I t (A []) (xs.forM f) fun _ => A xs := by
  -- the induction is on what is left, over any part already done
  suffices H : ∀ rest done, xs = done ++ rest →
      Triple S allow I t (A done) (rest.forM f) fun _ => A xs from H xs [] rfl
  intro rest
  induction rest with
  | nil =>
    intro done he s _ hA
    rw [List.append_nil] at he
    exact he ▸ hA
  | cons x rest ih =>
    intro done he
    exact bind (h done x rest he) fun _ => ih (done ++ [x]) (by simp [he])

/-- A loop over a list that carries a value: `A done b` holds after the elements of `done`, which
left the value `b`. -/
theorem foldlM {X : Type} {f : β → X → Prog Op Ans β} {A : List X → β → σ → Prop} {xs : List X}
    {b : β} (h : ∀ done x rest b, xs = done ++ x :: rest →
      Triple S allow I t (A done b) (f b x) (A (done ++ [x]))) :
    Triple S allow I t (A [] b) (xs.foldlM f b) (A xs) := by
  suffices H : ∀ rest done b, xs = done ++ rest →
      Triple S allow I t (A done b) (rest.foldlM f b) (A xs) from H xs [] b rfl
  intro rest
  induction rest with
  | nil =>
    intro done b he s _ hA
    rw [List.append_nil] at he
    exact he ▸ hA
  | cons x rest ih =>
    intro done b he
    exact bind (h done x rest b he) fun b' => ih (done ++ [x]) b' (by simp [he])

end Triple

/-! ## Soundness -/

/-- What a thread knows: its assertion when idle, the safety of the rest of its call otherwise. -/
def Knows (S : System T σ L C Op Ans) (allow : T → Op → σ → Prop) (I : Interference T σ)
    (atRest : (t : T) → L t → σ → Prop) (t : T) : Activity Op Ans (L t) → σ → Prop
  | .idle l, s => atRest t l s
  | .running p, s => Safe S allow I t (atRest t) p s

/-- A proof outline of a system: its interference, what each idle thread knows, and the triple of
every call. -/
structure Outline (S : System T σ L C Op Ans) (allow : T → Op → σ → Prop) where
  I : Interference T σ
  atRest : (t : T) → L t → σ → Prop
  stable : ∀ t l, I.Stable t (atRest t l)
  body : ∀ t l x, Triple S allow I t (atRest t l) (S.body t l x) (atRest t)

namespace Outline

variable (O : Outline S allow)

theorem knows_stable (t : T) :
    ∀ a : Activity Op Ans (L t), O.I.Stable t (Knows S allow O.I O.atRest t a)
  | .idle l => O.stable t l
  | .running p => Safe.stable (O.stable t) p

variable [DecidableEq T]

/-- A step of `t` updates what `t` knows, and keeps what the others know. -/
theorem knows_update {c : Config T σ L Op Ans} {t : T} {a : Activity Op Ans (L t)} {s : σ}
    (ht : Knows S allow O.I O.atRest t a s)
    (h : ∀ u, u ≠ t → Knows S allow O.I O.atRest u (c.thread u) s) :
    ∀ u, Knows S allow O.I O.atRest u (Function.update c.thread t a u) s := by
  rw [Function.forall_update_iff c.thread fun u a => Knows S allow O.I O.atRest u a s]
  exact ⟨ht, h⟩

/-- One step keeps the invariant and what every thread knows. -/
theorem step_knows {c c' : Config T σ L Op Ans} (h : S.Step allow c c')
    (hc : O.I.inv c.shared ∧ ∀ t, Knows S allow O.I O.atRest t (c.thread t) c.shared) :
    O.I.inv c'.shared ∧ ∀ t, Knows S allow O.I O.atRest t (c'.thread t) c'.shared := by
  obtain ⟨hi, hk⟩ := hc
  cases h with
  | @start t l x ht =>
    have hl : O.atRest t l c.shared := by simpa [ht, Knows] using hk t
    exact ⟨hi, O.knows_update (O.body t l x _ hi hl) fun u _ => hk u⟩
  | @act t o k s a ht ha he =>
    have hp : Safe S allow O.I t (O.atRest t) (.perform o k) c.shared := by
      simpa [ht, Knows] using hk t
    obtain ⟨⟨hi', hr⟩, hs⟩ := hp c.shared hi (O.I.refl t _) ha s a he
    refine ⟨hi', O.knows_update hs fun u hu => ?_⟩
    exact O.knows_stable u _ _ _ hi hi' (hr u hu) (hk u)
  | @finish t l ht =>
    have hl : O.atRest t l c.shared := by simpa [ht, Knows, Safe] using hk t
    exact ⟨hi, O.knows_update hl fun u _ => hk u⟩

variable {s₀ : σ} {l₀ : (t : T) → L t}

/-- **Soundness of the triples.** -/
theorem knows (hinv : O.I.inv s₀) (hinit : ∀ t, O.atRest t (l₀ t) s₀)
    {c : Config T σ L Op Ans} (hc : S.Reachable allow s₀ l₀ c) :
    O.I.inv c.shared ∧ ∀ t, Knows S allow O.I O.atRest t (c.thread t) c.shared := by
  induction hc with
  | refl => exact ⟨hinv, hinit⟩
  | tail _ h ih => exact O.step_knows h ih

/-- Every reachable configuration satisfies the invariant. -/
theorem inv (hinv : O.I.inv s₀) (hinit : ∀ t, O.atRest t (l₀ t) s₀)
    {c : Config T σ L Op Ans} (hc : S.Reachable allow s₀ l₀ c) : O.I.inv c.shared :=
  (O.knows hinv hinit hc).1

/-- Every idle thread of a reachable configuration knows its assertion. -/
theorem idle (hinv : O.I.inv s₀) (hinit : ∀ t, O.atRest t (l₀ t) s₀)
    {c : Config T σ L Op Ans} (hc : S.Reachable allow s₀ l₀ c) {t : T} {l : L t}
    (ht : c.thread t = .idle l) : O.atRest t l c.shared := by
  have h := (O.knows hinv hinit hc).2 t
  rwa [ht] at h

end Outline

end Concurrency
