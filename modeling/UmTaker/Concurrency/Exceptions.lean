import UmTaker.Concurrency.Ghost
import UmTaker.Concurrency.Invariant

/-!
# Programs that throw

A program that may throw returns a value or an exception. The threads of a system run such programs
call after call, until one throws; a thread that threw is dead. If the programs throw exactly at
operations that are answered badly, a thread is dead exactly when an operation of it was.

## Main definitions

* `ThrowsAt`: the program throws where an operation is answered badly, and nowhere else
* `Prog.Everywhere`: a fact about every operation of a program and what follows it
* `Dead`, `Alive`: an exception left the program of a thread, or did not
* `failures`: the record of the threads that performed a flagged operation

## Main results

* `ThrowsAt.bind`, `ThrowsAt.forM`, `ThrowsAt.tryCatch`: the rules
* `System.fate`: a thread is dead if one of its operations was flagged, and alive otherwise
-/

namespace Concurrency

variable {Op : Type} {Ans : Op → Type} {ε α β : Type}

/-! ## Where a program throws -/

/-- The program throws right after an operation that is answered badly, and nowhere else. -/
def ThrowsAt (bad : (o : Op) → Ans o → Prop) : Prog Op Ans (Except ε α) → Prop
  | .ret r => ∃ a, r = .ok a
  | .perform o k => ∀ a,
    (bad o a → ∃ e, k a = .ret (.error e)) ∧ (¬ bad o a → ThrowsAt bad (k a))

namespace ThrowsAt

variable {bad : (o : Op) → Ans o → Prop}

/-- A value is returned. -/
theorem pure (a : α) : ThrowsAt bad (Pure.pure a : ExceptT ε (Prog Op Ans) α).run := ⟨a, rfl⟩

/-- An operation that is never answered badly. -/
theorem lift {o : Op} (h : ∀ a, ¬ bad o a) :
    ThrowsAt bad (ExceptT.lift (Prog.call o) : ExceptT ε (Prog Op Ans) (Ans o)).run :=
  fun a => ⟨fun hbad => absurd hbad (h a), fun _ => ⟨a, rfl⟩⟩

theorem bind {m : ExceptT ε (Prog Op Ans) α} {f : α → ExceptT ε (Prog Op Ans) β}
    (hm : ThrowsAt bad m.run) (hf : ∀ a, ThrowsAt bad (f a).run) :
    ThrowsAt bad (m >>= f).run := by
  suffices H : ∀ p : Prog Op Ans (Except ε α), ThrowsAt bad p →
      ThrowsAt bad (p >>= ExceptT.bindCont f) from H m.run hm
  intro p
  induction p with
  | ret r =>
    rintro ⟨a, rfl⟩
    exact hf a
  | perform o k ih =>
    intro hp a
    refine ⟨fun hbad => ?_, fun hgood => ih a ((hp a).2 hgood)⟩
    obtain ⟨e, hk⟩ := (hp a).1 hbad
    refine ⟨e, ?_⟩
    show k a >>= ExceptT.bindCont f = _
    rw [hk]
    rfl

theorem forM {X : Type} {f : X → ExceptT ε (Prog Op Ans) PUnit} (xs : List X)
    (h : ∀ x ∈ xs, ThrowsAt bad (f x).run) : ThrowsAt bad (xs.forM f).run := by
  induction xs with
  | nil => exact ⟨_, rfl⟩
  | cons x xs ih =>
    refine bind (h x List.mem_cons_self) fun _ => ih fun y hy => ?_
    exact h y (List.mem_cons_of_mem x hy)

/-- What is thrown inside a `try` is caught. -/
theorem tryCatch {m : ExceptT ε (Prog Op Ans) α} {handle : ε → ExceptT ε (Prog Op Ans) α}
    (hm : m.run.Performs fun o => ∀ a, ¬ bad o a) (hhandle : ∀ e, ThrowsAt bad (handle e).run) :
    ThrowsAt bad (MonadExcept.tryCatch m handle).run := by
  suffices H : ∀ p : Prog Op Ans (Except ε α), (p.Performs fun o => ∀ a, ¬ bad o a) →
      ThrowsAt bad (MonadExcept.tryCatch (ExceptT.mk p) handle).run from H m.run hm
  intro p
  induction p with
  | ret r =>
    intro _
    cases r with
    | ok a => exact ⟨a, rfl⟩
    | error e => exact hhandle e
  | perform o k ih =>
    intro hp a
    exact ⟨fun hbad => absurd hbad (hp.1 a), fun _ => ih a (hp.2 a)⟩

end ThrowsAt

/-! ## The operations of a program that may throw -/

namespace Prog

namespace Performs

variable {P : Op → Prop}

theorem lift {o : Op} (h : P o) :
    (ExceptT.lift (Prog.call o) : ExceptT ε (Prog Op Ans) (Ans o)).run.Performs P :=
  ⟨h, fun _ => trivial⟩

theorem bindExcept {m : ExceptT ε (Prog Op Ans) α} {f : α → ExceptT ε (Prog Op Ans) β}
    (hm : m.run.Performs P) (hf : ∀ a, (f a).run.Performs P) : (m >>= f).run.Performs P := by
  refine Performs.bind (f := ExceptT.bindCont f) hm fun r => ?_
  cases r with
  | ok a => exact hf a
  | error e => trivial

theorem forMExcept {X : Type} {f : X → ExceptT ε (Prog Op Ans) PUnit} (xs : List X)
    (h : ∀ x ∈ xs, (f x).run.Performs P) : (xs.forM f).run.Performs P := by
  induction xs with
  | nil => trivial
  | cons x xs ih =>
    refine bindExcept (h x List.mem_cons_self) fun _ => ih fun y hy => ?_
    exact h y (List.mem_cons_of_mem x hy)

theorem tryCatch {m : ExceptT ε (Prog Op Ans) α} {handle : ε → ExceptT ε (Prog Op Ans) α}
    (hm : m.run.Performs P) (hhandle : ∀ e, (handle e).run.Performs P) :
    (MonadExcept.tryCatch m handle).run.Performs P := by
  refine Performs.bind (p := m.run) hm fun r => ?_
  cases r with
  | ok a => trivial
  | error e => exact hhandle e

end Performs

/-- The fact holds of every operation of the program, with what follows it. -/
def Everywhere (P : (o : Op) → (Ans o → Prog Op Ans α) → Prop) : Prog Op Ans α → Prop
  | .ret _ => True
  | .perform o k => P o k ∧ ∀ a, (k a).Everywhere P

namespace Everywhere

/-- The operations of a sequence, if the fact survives what is appended. -/
theorem bind {P : (o : Op) → (Ans o → Prog Op Ans α) → Prop}
    {P' : (o : Op) → (Ans o → Prog Op Ans β) → Prop} {p : Prog Op Ans α} {f : α → Prog Op Ans β}
    (hP : ∀ o k, P o k → P' o fun a => k a >>= f) (hp : p.Everywhere P)
    (hf : ∀ a, (f a).Everywhere P') : (p >>= f).Everywhere P' := by
  induction p with
  | ret a => exact hf a
  | perform o k ih => exact ⟨hP o k hp.1, fun a => ih a (hp.2 a)⟩

/-- A program all of whose operations have the fact, whatever follows them. -/
theorem of_performs {P : (o : Op) → (Ans o → Prog Op Ans α) → Prop} {p : Prog Op Ans α}
    (h : p.Performs fun o => ∀ k, P o k) : p.Everywhere P := by
  induction p with
  | ret a => trivial
  | perform o k ih => exact ⟨h.1 k, fun a => ih a (h.2 a)⟩

theorem mono {P P' : (o : Op) → (Ans o → Prog Op Ans α) → Prop} {p : Prog Op Ans α}
    (h : ∀ o k, P o k → P' o k) (hp : p.Everywhere P) : p.Everywhere P' := by
  induction p with
  | ret a => trivial
  | perform o k ih => exact ⟨h o k hp.1, fun a => ih a (hp.2 a)⟩

theorem bindExcept {P : (o : Op) → (Ans o → Prog Op Ans (Except ε α)) → Prop}
    {P' : (o : Op) → (Ans o → Prog Op Ans (Except ε β)) → Prop}
    {m : ExceptT ε (Prog Op Ans) α} {f : α → ExceptT ε (Prog Op Ans) β}
    (hP : ∀ o k, P o k → P' o fun a => k a >>= ExceptT.bindCont f) (hm : m.run.Everywhere P)
    (hf : ∀ a, (f a).run.Everywhere P') : (m >>= f).run.Everywhere P' := by
  refine Everywhere.bind (f := ExceptT.bindCont f) hP hm fun r => ?_
  cases r with
  | ok a => exact hf a
  | error e => trivial

theorem forMExcept {P : (o : Op) → (Ans o → Prog Op Ans (Except ε PUnit)) → Prop} {X : Type}
    {f : X → ExceptT ε (Prog Op Ans) PUnit} (hP : ∀ o k (g : PUnit → ExceptT ε (Prog Op Ans) PUnit),
      P o k → P o fun a => k a >>= ExceptT.bindCont g) (xs : List X)
    (h : ∀ x ∈ xs, (f x).run.Everywhere P) : (xs.forM f).run.Everywhere P := by
  induction xs with
  | nil => trivial
  | cons x xs ih =>
    refine bindExcept (fun o k => hP o k _) (h x List.mem_cons_self) fun _ =>
      ih fun y hy => ?_
    exact h y (List.mem_cons_of_mem x hy)

end Everywhere

end Prog

/-! ## Threads that throw -/

section Threads

variable {L : Type}

/-- An exception left the program. -/
def Dead (activity : Activity Op Ans (Except ε L)) : Prop :=
  ∃ e, activity = .running (.ret (.error e)) ∨ activity = .idle (.error e)

/-- No exception has left the program, and one will only where an operation is answered badly. -/
def Alive (bad : (o : Op) → Ans o → Prop) : Activity Op Ans (Except ε L) → Prop
  | .idle l => ∃ a, l = .ok a
  | .running p => ThrowsAt bad p

/-- A thread is dead if an operation of it failed, and alive otherwise. -/
def Fate (bad : (o : Op) → Ans o → Prop) (failed : Prop)
    (activity : Activity Op Ans (Except ε L)) : Prop :=
  (¬ failed ∧ Alive bad activity) ∨ (failed ∧ Dead activity)

section Fate

variable {bad : (o : Op) → Ans o → Prop} {failed failed' : Prop} {l : Except ε L}

theorem Alive.not_dead {activity : Activity Op Ans (Except ε L)} (h : Alive bad activity) :
    ¬ Dead activity := by
  rintro ⟨e, rfl | rfl⟩
  · obtain ⟨a, ha⟩ := h
    cases ha
  · obtain ⟨a, ha⟩ := h
    cases ha

theorem Fate.dead_iff {activity : Activity Op Ans (Except ε L)} (h : Fate bad failed activity) :
    Dead activity ↔ failed := by
  rcases h with ⟨hfailed, halive⟩ | ⟨hfailed, hdead⟩
  · exact iff_of_false halive.not_dead hfailed
  · exact iff_of_true hdead hfailed

/-- A thread that is dead starts no call. -/
theorem Fate.start (body : Except ε L → Prog Op Ans (Except ε L))
    (h : Fate bad failed (.idle l)) (hbody : ∀ a, ThrowsAt bad (body (.ok a)))
    (hdead : ∀ e, body (.error e) = .ret (.error e)) :
    Fate bad failed (.running (body l)) := by
  rcases h with ⟨hfailed, a, rfl⟩ | ⟨hfailed, e, hidle⟩
  · exact Or.inl ⟨hfailed, hbody a⟩
  · rcases hidle with hidle | hidle
    · cases hidle
    · cases hidle
      exact Or.inr ⟨hfailed, e, Or.inl (congrArg Activity.running (hdead e))⟩

/-- A thread dies where its operation is answered badly. -/
theorem Fate.act {o : Op} {k : Ans o → Prog Op Ans (Except ε L)} {a : Ans o}
    (h : Fate bad failed (.running (.perform o k))) (hfailed' : failed' ↔ failed ∨ bad o a) :
    Fate bad failed' (.running (k a)) := by
  rcases h with ⟨hfailed, halive⟩ | ⟨hfailed, e, hdead⟩
  · by_cases hbad : bad o a
    · obtain ⟨e, hk⟩ := (halive a).1 hbad
      exact Or.inr ⟨hfailed'.mpr (Or.inr hbad), e, Or.inl (congrArg Activity.running hk)⟩
    · refine Or.inl ⟨fun h => ?_, (halive a).2 hbad⟩
      exact (hfailed'.mp h).elim hfailed hbad
  · rcases hdead with hdead | hdead
    · cases hdead
    · cases hdead

theorem Fate.finish (h : Fate bad failed (.running (.ret l))) : Fate bad failed (.idle l) := by
  rcases h with ⟨hfailed, halive⟩ | ⟨hfailed, e, hdead⟩
  · exact Or.inl ⟨hfailed, halive⟩
  · rcases hdead with hdead | hdead
    · cases hdead
      exact Or.inr ⟨hfailed, e, Or.inr rfl⟩
    · cases hdead

end Fate

variable {T σ : Type} {L C : T → Type} [DecidableEq T]

/-- The record of the threads that performed an operation where it is flagged. -/
def failures (flag : T → Op → σ → Prop) (t : T) (o : Op) (s : σ) (_ : Ans o) (g : T → Prop) :
    T → Prop :=
  fun u => g u ∨ u = t ∧ flag t o s

namespace System

variable {S : System T σ (fun t => Except ε (L t)) C Op Ans}
  {allow : T → Op → σ × (T → Prop) → Prop} (bad : T → (o : Op) → Ans o → Prop)
  {flag : T → Op → σ → Prop} {s : σ} {l : (t : T) → Except ε (L t)}
  {c : Config T (σ × (T → Prop)) (fun t => Except ε (L t)) Op Ans}

/-- A thread is dead if one of its operations was flagged, and alive otherwise. -/
theorem fate (hbody : ∀ t l x, ThrowsAt (bad t) (S.body t (.ok l) x))
    (hdead : ∀ t e x, S.body t (.error e) x = .ret (.error e))
    (hexec : ∀ t o s s' a, S.exec t o s = some (s', a) → (bad t o a ↔ flag t o s))
    (hl : ∀ t, ∃ a, l t = .ok a)
    (hc : (S.withGhost (failures flag)).Reachable allow (s, fun _ => False) l c) (t : T) :
    Fate (bad t) (c.shared.2 t) (c.thread t) := by
  refine thread_invariant (I := fun t s activity => Fate (bad t) (s.2 t) activity)
    ?_ ?_ ?_ ?_ ?_ hc t
  · exact fun t => Or.inl ⟨not_false, hl t⟩
  · intro t s l x h
    exact Fate.start (fun l => S.body t l x) h (fun a => hbody t a x) fun e => hdead t e x
  · intro t o k s s' a h he
    obtain ⟨hperformed, hghost⟩ := exec_withGhost he
    refine Fate.act h ?_
    rw [hghost, hexec t o _ _ a hperformed]
    simp [failures]
  · intro t u o s s' a activity hut h he
    obtain ⟨-, hghost⟩ := exec_withGhost he
    have hsame : failures flag u o s.1 a s.2 t = s.2 t := by
      simp [failures, Ne.symm hut]
    rw [hghost, hsame]
    exact h
  · exact fun t s l h => h.finish

end System

end Threads

end Concurrency
