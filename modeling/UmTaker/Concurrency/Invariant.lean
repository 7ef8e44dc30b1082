import UmTaker.Concurrency.Program

/-!
# Invariants of single operations

Where every operation that the programs of a system perform keeps a fact about the shared state, in
whichever order the threads step, the fact holds of all states reached. No program needs a proof of
its own: it is enough to know which operations it performs.

## Main definitions

* `Prog.Performs`: every operation a program can come to satisfies a predicate

## Main results

* `Prog.Performs.bind`, `Prog.Performs.forM`: the operations of a composed program
* `System.thread_invariant`: what each thread keeps, and no other one takes from it
* `System.running_invariant`, `System.performs`: the rest of a running call performs what the
  programs of the calls perform
* `System.shared_invariant`: what these operations keep holds in all states reached
-/

namespace Concurrency

/-! ## The operations of a program -/

namespace Prog

variable {Op : Type} {Ans : Op → Type} {α β : Type}

/-- Every operation the program can come to, with whichever answers, satisfies the predicate. -/
def Performs (P : Op → Prop) : Prog Op Ans α → Prop
  | .ret _ => True
  | .perform o k => P o ∧ ∀ a, (k a).Performs P

namespace Performs

variable {P : Op → Prop}

@[simp] theorem ret (a : α) : (Prog.ret a : Prog Op Ans α).Performs P := trivial

theorem call {o : Op} (h : P o) : (Prog.call o : Prog Op Ans (Ans o)).Performs P :=
  ⟨h, fun _ => trivial⟩

theorem mono {P' : Op → Prop} {p : Prog Op Ans α} (h : ∀ o, P o → P' o) (hp : p.Performs P) :
    p.Performs P' := by
  induction p with
  | ret a => trivial
  | perform o k ih => exact ⟨h o hp.1, fun a => ih a (hp.2 a)⟩

/-- What holds of every operation holds of those a program comes to. -/
theorem of_forall (h : ∀ o, P o) (p : Prog Op Ans α) : p.Performs P := by
  induction p with
  | ret a => trivial
  | perform o k ih => exact ⟨h o, ih⟩

theorem bind {p : Prog Op Ans α} {f : α → Prog Op Ans β} (hp : p.Performs P)
    (hf : ∀ a, (f a).Performs P) : (p >>= f).Performs P := by
  induction p with
  | ret a => exact hf a
  | perform o k ih => exact ⟨hp.1, fun a => ih a (hp.2 a)⟩

theorem ite {c : Prop} [Decidable c] {p q : Prog Op Ans α} (hp : p.Performs P)
    (hq : q.Performs P) : (if c then p else q).Performs P := by
  split_ifs
  · exact hp
  · exact hq

theorem forM {X : Type} {f : X → Prog Op Ans PUnit} (xs : List X)
    (h : ∀ x ∈ xs, (f x).Performs P) : (xs.forM f).Performs P := by
  induction xs with
  | nil => trivial
  | cons x xs ih =>
    refine bind (h x List.mem_cons_self) fun _ => ih fun y hy => ?_
    exact h y (List.mem_cons_of_mem x hy)

theorem foldlM {X : Type} {f : β → X → Prog Op Ans β} (xs : List X) (b : β)
    (h : ∀ b, ∀ x ∈ xs, (f b x).Performs P) : (xs.foldlM f b).Performs P := by
  induction xs generalizing b with
  | nil => trivial
  | cons x xs ih =>
    refine bind (h b x List.mem_cons_self) fun b' => ih b' fun b y hy => ?_
    exact h b y (List.mem_cons_of_mem x hy)

end Performs

end Prog

/-! ## The operations of a system -/

namespace System

variable {T σ : Type} {L C : T → Type} {Op : Type} {Ans : Op → Type} [DecidableEq T]
  {S : System T σ L C Op Ans} {allow : T → Op → σ → Prop} {P : T → Op → Prop} {s : σ}
  {l : (t : T) → L t} {c : Config T σ L Op Ans}

/-- **An invariant of each thread**: what a thread keeps with its own steps, and what no operation
of another one takes from it, holds of every thread in all configurations reached. -/
theorem thread_invariant {I : (t : T) → σ → Activity Op Ans (L t) → Prop}
    (hinitial : ∀ t, I t s (.idle (l t)))
    (hstart : ∀ t s l x, I t s (.idle l) → I t s (.running (S.body t l x)))
    (hact : ∀ t o k s s' a, I t s (.running (.perform o k)) → S.exec t o s = some (s', a) →
      I t s' (.running (k a)))
    (hother : ∀ t u o s s' a activity, u ≠ t → I t s activity → S.exec u o s = some (s', a) →
      I t s' activity)
    (hfinish : ∀ t s l, I t s (.running (.ret l)) → I t s (.idle l))
    (hc : S.Reachable allow s l c) : ∀ t, I t c.shared (c.thread t) := by
  induction hc with
  | refl => exact hinitial
  | @tail c _ _ h ih =>
    cases h with
    | @start u l x hu =>
      have hidle := ih u
      rw [hu] at hidle
      rw [Function.forall_update_iff c.thread fun t activity => I t c.shared activity]
      exact ⟨hstart u _ l x hidle, fun t _ => ih t⟩
    | @act u o k s' a hu ha he =>
      have hrunning := ih u
      rw [hu] at hrunning
      rw [Function.forall_update_iff c.thread fun t activity => I t s' activity]
      exact ⟨hact u o k _ s' a hrunning he, fun t htu =>
        hother t u o _ s' a _ (Ne.symm htu) (ih t) he⟩
    | @finish u l hu =>
      have hended := ih u
      rw [hu] at hended
      rw [Function.forall_update_iff c.thread fun t activity => I t c.shared activity]
      exact ⟨hfinish u _ l hended, fun t _ => ih t⟩

/-- What holds of the programs of the calls, and of what is left after an operation, holds of the
rest of a running call. -/
theorem running_invariant {Q : (t : T) → Prog Op Ans (L t) → Prop}
    (hbody : ∀ t l x, Q t (S.body t l x)) (hstep : ∀ t o k a, Q t (.perform o k) → Q t (k a))
    (hc : S.Reachable allow s l c) {t : T} {p : Prog Op Ans (L t)} (ht : c.thread t = .running p) :
    Q t p := by
  refine thread_invariant (I := fun t _ activity => ∀ p, activity = .running p → Q t p)
    ?_ ?_ ?_ ?_ ?_ hc t p ht
  · rintro t p ⟨⟩
  · rintro t s l x - p ⟨⟩
    exact hbody t l x
  · rintro t o k s s' a h - p ⟨⟩
    exact hstep t o k a (h _ rfl)
  · exact fun t u o s s' a activity _ h _ => h
  · rintro t s l - p ⟨⟩

/-- The rest of a running call performs what the programs of the calls perform. -/
theorem performs (hbody : ∀ t l x, (S.body t l x).Performs (P t))
    (hc : S.Reachable allow s l c) {t : T} {p : Prog Op Ans (L t)} (ht : c.thread t = .running p) :
    p.Performs (P t) :=
  running_invariant (Q := fun t p => p.Performs (P t)) hbody (fun _ _ _ a h => h.2 a) hc ht

/-- **What the operations of the programs keep holds in all states reached.** -/
theorem shared_invariant {I : σ → Prop} (hbody : ∀ t l x, (S.body t l x).Performs (P t)) (h₀ : I s)
    (hexec : ∀ t o s s' a, P t o → I s → allow t o s → S.exec t o s = some (s', a) → I s')
    (hc : S.Reachable allow s l c) : I c.shared := by
  induction hc with
  | refl => exact h₀
  | tail hc h ih =>
    cases h with
    | start => exact ih
    | act ht ha he => exact hexec _ _ _ _ _ (performs hbody hc ht).1 ih ha he
    | finish => exact ih

end System

end Concurrency
