import UmTaker.Concurrency.Invariant
import UmTaker.Concurrency.Triple

/-!
# Components of a system

A system is put together from parts that were verified by themselves. The operations of a component
are among those of the system, and work on a part of its state; a triple of the component is one of
the system, where the rest of the state is kept in step by what the system adds.

## Main definitions

* `Prog.embed`: a program of the component as one of the system
* `Component`: where the operations and the state of the component are found
* `Component.Within`: the discipline of the system asks for that of the component
* `Component.Pays`: what a step of the component owes, with what the system adds to it

## Main results

* `Triple.frame`: what a program leaves alone
* `Triple.component`: an operation of the component, with a frame
* `Triple.embed`: a program of the component, with a frame
-/

namespace Concurrency

variable {T σ σ' : Type} {L C L' C' : T → Type} {Op Op' : Type} {Ans : Op → Type}
  {Ans' : Op' → Type} {α β : Type}

/-! ## Programs -/

namespace Prog

/-- The program with its operations replaced, and their answers read back. -/
def embed (op : Op → Op') (ans : (o : Op) → Ans' (op o) → Ans o) :
    Prog Op Ans α → Prog Op' Ans' α
  | .ret a => .ret a
  | .perform o k => .perform (op o) fun a => (k (ans o a)).embed op ans

variable (op : Op → Op') (ans : (o : Op) → Ans' (op o) → Ans o)

@[simp] theorem embed_ret (a : α) : (Prog.ret a : Prog Op Ans α).embed op ans = .ret a := rfl

theorem embed_bind (p : Prog Op Ans α) (f : α → Prog Op Ans β) :
    (p >>= f).embed op ans = p.embed op ans >>= fun a => (f a).embed op ans := by
  induction p with
  | ret a => rfl
  | perform o k ih => exact congrArg (Prog.perform (op o)) (funext fun a => ih (ans o a))

theorem embed_ite (c : Prop) [Decidable c] (p q : Prog Op Ans α) :
    (if c then p else q).embed op ans = if c then p.embed op ans else q.embed op ans := by
  split_ifs <;> rfl

/-- A program of the component performs operations of the component. -/
theorem embed_performs (p : Prog Op Ans α) :
    (p.embed op ans).Performs fun o' => ∃ o, o' = op o := by
  induction p with
  | ret a => trivial
  | perform o k ih => exact ⟨⟨o, rfl⟩, fun a => ih (ans o a)⟩

end Prog

/-! ## Frames -/

section Frame

variable {S : System T σ L C Op Ans} {allow : T → Op → σ → Prop} {I : Interference T σ} {t : T}

/-- Safety with a frame that the operations of the program keep. -/
theorem Safe.frame {Q : α → σ → Prop} {R : σ → Prop} (hR : I.Stable t R) {ops : Op → Prop}
    (hkeep : ∀ o, ops o → ∀ s s' a, R s → S.exec t o s = some (s', a) → R s') :
    ∀ {p : Prog Op Ans α} {s : σ}, p.Performs ops → R s → I.inv s → Safe S allow I t Q p s →
      Safe S allow I t (fun a s => Q a s ∧ R s) p s := by
  intro p
  induction p with
  | ret a => exact fun _ hr _ h => ⟨h, hr⟩
  | perform o k ih =>
    intro s hp hr hs h s₁ hi hrely ha s₂ a he
    obtain ⟨howes, hsafe⟩ := h s₁ hi hrely ha s₂ a he
    have hr₂ := hkeep o hp.1 s₁ s₂ a (hR s s₁ hs hi hrely hr) he
    exact ⟨howes, ih a (hp.2 a) hr₂ howes.1 hsafe⟩

/-- **The frame rule**: what the others keep, and the operations of the program keep, holds after
it. -/
theorem Triple.frame {P : σ → Prop} {p : Prog Op Ans α} {Q : α → σ → Prop} {R : σ → Prop}
    {ops : Op → Prop} (h : Triple S allow I t P p Q) (hp : p.Performs ops) (hR : I.Stable t R)
    (hkeep : ∀ o, ops o → ∀ s s' a, R s → S.exec t o s = some (s', a) → R s') :
    Triple S allow I t (fun s => P s ∧ R s) p fun a s => Q a s ∧ R s :=
  fun s hs hpre => Safe.frame hR hkeep hp hpre.2 hs (h s hs hpre.1)

/-- What every operation of the program keeps. -/
theorem Triple.of_performs {P : σ → Prop} {p : Prog Op Ans α} {ops : Op → Prop}
    (hp : p.Performs ops)
    (h : ∀ o, ops o → Triple S allow I t P (Prog.call o) fun _ => P) :
    Triple S allow I t P p fun _ => P := by
  induction p with
  | ret a => exact Triple.ret fun _ _ h => h
  | perform o k ih => exact Triple.bind (h o hp.1) fun a => ih a (hp.2 a)

end Frame

/-! ## Components -/

/-- A component of a system: the operations that are its own, and its part of the state. -/
structure Component (S : System T σ L C Op Ans) (S' : System T σ' L' C' Op' Ans') where
  op : Op → Op'
  ans : (o : Op) → Ans' (op o) → Ans o
  state : σ' → σ
  exec : ∀ t o s s' a, S'.exec t (op o) s = some (s', a) →
    S.exec t o (state s) = some (state s', ans o a)

variable {S : System T σ L C Op Ans} {S' : System T σ' L' C' Op' Ans'}
  {I : Interference T σ} {I' : Interference T σ'}

namespace Component

variable (K : Component S S')

/-- The discipline of the system asks for that of the component. -/
structure Within (I : Interference T σ) (I' : Interference T σ') : Prop where
  inv : ∀ s, I'.inv s → I.inv (K.state s)
  rely : ∀ t s s', I'.rely t s s' → I.rely t (K.state s) (K.state s')

/-- An operation of `t` that pays what it owes in the component pays what it owes in the system, and
leads from the frame `R` to the frame `R'`. -/
def Pays (I : Interference T σ) (I' : Interference T σ') (t : T) (o : Op) (R : σ' → Prop)
    (R' : Ans' (K.op o) → σ' → Prop) : Prop :=
  ∀ s s' a, I'.inv s → R s → S'.exec t (K.op o) s = some (s', a) →
    I.Respects t (K.state s) (K.state s') → I'.Respects t s s' ∧ R' a s'

end Component

variable {K : Component S S'} {t : T}

/-- What a thread of the component knows for good it knows in the system. -/
theorem Interference.Stable.component (hK : K.Within I I') {P : σ → Prop} (hP : I.Stable t P) :
    I'.Stable t fun s => P (K.state s) :=
  fun s s' hs hs' hr h => hP _ _ (hK.inv s hs) (hK.inv s' hs') (hK.rely t s s' hr) h

/-- **An operation of a component**, with a frame of the system. -/
theorem Triple.component (hK : K.Within I I') {P : σ → Prop} {o : Op} {Q : Ans o → σ → Prop}
    {R : σ' → Prop} {R' : Ans' (K.op o) → σ' → Prop}
    (h : Triple S System.Unrestricted I t P (Prog.call o) Q) (hP : I.Stable t P)
    (hR : I'.Stable t R) (hpays : K.Pays I I' t o R R') :
    Triple S' System.Unrestricted I' t (fun s => P (K.state s) ∧ R s) (Prog.call (K.op o))
      fun a s => Q (K.ans o a) (K.state s) ∧ R' a s := by
  apply Triple.call ((hP.component hK).and hR)
  rintro s hs ⟨hp, hr⟩ - s' a he
  -- the component's triple is used at the state itself, with no step of the others before it
  obtain ⟨howes, hq⟩ := h (K.state s) (hK.inv s hs) hp (K.state s) (hK.inv s hs) (I.refl t _)
    trivial (K.state s') (K.ans o a) (K.exec t o s s' a he)
  obtain ⟨howes', hr'⟩ := hpays s s' a hs hr he howes
  exact ⟨howes', hq, hr'⟩

/-- Safety of a program of the component, with a frame that its operations keep. -/
theorem Safe.embed (hK : K.Within I I') {Q : α → σ → Prop} {R : σ' → Prop} (hR : I'.Stable t R)
    {ops : Op → Prop} (hpays : ∀ o, ops o → K.Pays I I' t o R fun _ => R) :
    ∀ {p : Prog Op Ans α} {s : σ'}, p.Performs ops → R s →
      Safe S System.Unrestricted I t Q p (K.state s) → I'.inv s →
        Safe S' System.Unrestricted I' t (fun a s => Q a (K.state s) ∧ R s)
          (p.embed K.op K.ans) s := by
  intro p
  induction p with
  | ret a => exact fun _ hr h _ => ⟨h, hr⟩
  | perform o k ih =>
    intro s hp hr h hs s₁ hi hrely _ s₂ a he
    have hr₁ := hR s s₁ hs hi hrely hr
    obtain ⟨howes, hsafe⟩ := h (K.state s₁) (hK.inv s₁ hi) (hK.rely t s s₁ hrely) trivial
      (K.state s₂) (K.ans o a) (K.exec t o s₁ s₂ a he)
    obtain ⟨howes', hr₂⟩ := hpays o hp.1 s₁ s₂ a hi hr₁ he howes
    exact ⟨howes', ih (K.ans o a) (hp.2 (K.ans o a)) hr₂ hsafe howes'.1⟩

/-- **A program of a component**, with a frame of the system that its operations keep. -/
theorem Triple.embed (hK : K.Within I I') {P : σ → Prop} {p : Prog Op Ans α} {Q : α → σ → Prop}
    {R : σ' → Prop} {ops : Op → Prop} (h : Triple S System.Unrestricted I t P p Q)
    (hp : p.Performs ops) (hR : I'.Stable t R)
    (hpays : ∀ o, ops o → K.Pays I I' t o R fun _ => R) :
    Triple S' System.Unrestricted I' t (fun s => P (K.state s) ∧ R s) (p.embed K.op K.ans)
      fun a s => Q a (K.state s) ∧ R s :=
  fun s hs hpre => Safe.embed hK hR hpays hp hpre.2 (h (K.state s) (hK.inv s hs) hpre.1) hs

end Concurrency
