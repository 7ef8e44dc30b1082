import UmTaker.Concurrency.Invariant
import Mathlib.Data.DFinsupp.WellFounded
import Mathlib.Data.Finset.Erase
import Mathlib.Data.Finset.Insert
import Mathlib.Data.Fintype.Lattice

/-!
# Locks taken in order

Threads take readers–writer locks, several at a time, and give them up. A request waits until the
lock admits it; which of the waiting requests a lock admits is a policy of its own, as long as it
keeps the exclusive holder alone and leaves no request waiting at a free lock for ever. Every lock
has a rank. If a thread asks for a lock only while all the locks it holds are of smaller rank, the
threads never block each other for good.

What the operations under the locks do to the data is arbitrary.

## Main definitions

* `System.Goes`: a step of a call under way
* `LockQueue`, `LockPolicy`: a lock with the requests waiting at it, and which of them it admits
* `LockOp`, `lockExec`: requests, admissions and releases beside operations on data
* `Prog.Takes`: a program asks for its locks in order, and ends with those it is meant to end with
* `LockSystem`: threads behind locks, every call of which asks in order and gives up all it took

## Main results

* `System.goes_wellFounded`: the calls under way cannot go on for ever
* `Prog.Takes.bind`, `Prog.Takes.locked`, `Prog.Takes.expand`: programs that ask in order
* `LockSystem.excludes`: an exclusive holder is alone
* `LockSystem.exists_goes`: as long as a call is under way, some call can go on
* `LockSystem.can_end`: all calls under way can be brought to their end
-/

namespace Concurrency

/-! ## Calls under way -/

section Goes

variable {T σ : Type} {L C : T → Type} {Op : Type} {Ans : Op → Type}

/-- What a thread goes on with after an operation, and after its call. -/
inductive Activity.Next {L : Type} : Activity Op Ans L → Activity Op Ans L → Prop
  | act {o : Op} {k : Ans o → Prog Op Ans L} (a : Ans o) :
      Next (.running (k a)) (.running (.perform o k))
  | finish (l : L) : Next (.idle l) (.running (.ret l))

theorem Activity.next_wellFounded {L : Type} :
    WellFounded (@Activity.Next Op Ans L) := by
  have hidle (l : L) : Acc (@Activity.Next Op Ans L) (.idle l) :=
    ⟨_, fun _ h => nomatch h⟩
  refine ⟨fun activity => ?_⟩
  cases activity with
  | idle l => exact hidle l
  | running p =>
    induction p with
    | ret l =>
      refine ⟨_, fun _ h => ?_⟩
      cases h with
      | finish => exact hidle l
    | perform o k ih =>
      refine ⟨_, fun _ h => ?_⟩
      cases h with
      | act a => exact ih a

variable [DecidableEq T] (S : System T σ L C Op Ans) (allow : T → Op → σ → Prop)

namespace System

/-- One step of a call under way: its next operation, or its end. -/
inductive Goes : Config T σ L Op Ans → Config T σ L Op Ans → Prop
  | act {c : Config T σ L Op Ans} {t : T} {o : Op} {k : Ans o → Prog Op Ans (L t)} {s : σ}
      {a : Ans o} (h : c.thread t = .running (.perform o k)) (ha : allow t o c.shared)
      (he : S.exec t o c.shared = some (s, a)) :
      Goes c ⟨s, Function.update c.thread t (.running (k a))⟩
  | finish {c : Config T σ L Op Ans} {t : T} {l : L t} (h : c.thread t = .running (.ret l)) :
      Goes c ⟨c.shared, Function.update c.thread t (.idle l)⟩

variable {S allow}

theorem Goes.step {c c' : Config T σ L Op Ans} (h : S.Goes allow c c') : S.Step allow c c' := by
  cases h with
  | act h ha he => exact .act h ha he
  | finish h => exact .finish h

/-- It takes one thread further and leaves the others where they are. -/
theorem Goes.next {c c' : Config T σ L Op Ans} (h : S.Goes allow c c') :
    ∃ t activity, c'.thread = Function.update c.thread t activity ∧
      activity.Next (c.thread t) := by
  cases h with
  | @act t o k s a h ha he =>
    refine ⟨t, _, rfl, ?_⟩
    rw [h]
    exact .act a
  | @finish t l h =>
    refine ⟨t, _, rfl, ?_⟩
    rw [h]
    exact .finish l

/-- **The calls under way cannot go on for ever.** -/
theorem goes_wellFounded [Finite T] : WellFounded fun c' c => S.Goes allow c c' := by
  -- the threads in any order: the first that differs has gone on
  refine Subrelation.wf (r := InvImage (Pi.Lex WellOrderingRel fun {_} => Activity.Next)
    Config.thread) ?_ (InvImage.wf _ (Pi.Lex.wellFounded _ fun _ => Activity.next_wellFounded))
  intro c' c h
  obtain ⟨t, activity, hc', hnext⟩ := h.next
  refine ⟨t, fun u hu => ?_, ?_⟩
  · have hut : u ≠ t := by
      rintro rfl
      exact irrefl_of WellOrderingRel u hu
    rw [hc', Function.update_of_ne hut]
  · rw [hc', Function.update_self]
    exact hnext

end System

end Goes

/-! ## Locks -/

inductive LockMode
  | shared
  | exclusive
  deriving DecidableEq

/-- A lock: who holds it, and the requests waiting at it, the oldest first. -/
structure LockQueue (T : Type) where
  readers : Finset T
  writer : Option T
  waiting : List (T × LockMode)

namespace LockQueue

variable {T : Type}

/-- Free, with nobody waiting. -/
def empty : LockQueue T := ⟨∅, none, []⟩

def Holds (q : LockQueue T) (t : T) : Prop := t ∈ q.readers ∨ q.writer = some t

def request (t : T) (m : LockMode) (q : LockQueue T) : LockQueue T :=
  { q with waiting := q.waiting ++ [(t, m)] }

variable [DecidableEq T]

/-- A thread that waited holds the lock. -/
def letIn (t : T) (m : LockMode) (q : LockQueue T) : LockQueue T :=
  let waiting := q.waiting.filter fun r => r.1 ≠ t
  match m with
  | .shared => { q with readers := insert t q.readers, waiting := waiting }
  | .exclusive => { q with writer := some t, waiting := waiting }

def release (t : T) (q : LockQueue T) : LockQueue T :=
  { q with
    readers := q.readers.erase t
    writer := if q.writer = some t then none else q.writer }

end LockQueue

/-- Which of the requests waiting at a lock it admits: the exclusive holder is alone, and a free
lock admits some request. -/
structure LockPolicy (T : Type) where
  admits : LockQueue T → T → LockMode → Bool
  writer_eq_none : ∀ {q t m}, admits q t m = true → q.writer = none
  readers_eq_empty : ∀ {q t}, admits q t .exclusive = true → q.readers = ∅
  exists_admits : ∀ {q}, q.writer = none → q.readers = ∅ → q.waiting ≠ [] →
    ∃ r ∈ q.waiting, admits q r.1 r.2 = true

namespace LockPolicy

variable {T : Type} [DecidableEq T]

/-- Whoever can be admitted is. -/
def eager : LockPolicy T where
  admits q _ m :=
    match m with
    | .shared => q.writer.isNone
    | .exclusive => q.writer.isNone && decide (q.readers = ∅)
  writer_eq_none {q t m} h := by
    cases m <;> simp at h <;> tauto
  readers_eq_empty {q t} h := by
    simp at h
    exact h.2
  exists_admits {q} hw hr hwaiting := by
    obtain ⟨r, hmem⟩ := List.exists_mem_of_ne_nil _ hwaiting
    refine ⟨r, hmem, ?_⟩
    cases h : r.2 <;> simp [hw, hr]

/-- No shared request passes an exclusive one that waits. -/
def writersFirst : LockPolicy T where
  admits q _ m :=
    match m with
    | .shared => q.writer.isNone && q.waiting.all fun r => decide (r.2 = .shared)
    | .exclusive => q.writer.isNone && decide (q.readers = ∅)
  writer_eq_none {q t m} h := by
    cases m <;> simp at h <;> tauto
  readers_eq_empty {q t} h := by
    simp at h
    exact h.2
  exists_admits {q} hw hr hwaiting := by
    by_cases hall : q.waiting.all fun r => decide (r.2 = .shared)
    · obtain ⟨r, hmem⟩ := List.exists_mem_of_ne_nil _ hwaiting
      have hr : r.2 = .shared := by simpa using List.all_eq_true.mp hall r hmem
      exact ⟨r, hmem, by simp [hr, hw, hall]⟩
    · simp only [List.all_eq_true, decide_eq_true_eq, not_forall] at hall
      obtain ⟨r, hmem, hm⟩ := hall
      have hm : r.2 = .exclusive := by
        cases h : r.2 with
        | shared => exact absurd h hm
        | exclusive => rfl
      exact ⟨r, hmem, by simp [hm, hw, hr]⟩

end LockPolicy

/-! ## Programs that take locks -/

/-- An operation of a thread behind locks. -/
inductive LockOp (K D : Type)
  | request (k : K) (m : LockMode)
  | acquire (k : K) (m : LockMode)
  | release (k : K)
  | data (d : D)

abbrev LockAns {K D : Type} (Ans : D → Type) : LockOp K D → Type
  | .data d => Ans d
  | _ => Unit

/-- The data, and the locks. -/
structure Guarded (T K σ : Type) where
  queue : K → LockQueue T
  data : σ

section Programs

variable {K D : Type} {Ans : D → Type} {α β : Type}

abbrev LockProg (K : Type) {D : Type} (Ans : D → Type) := Prog (LockOp K D) (LockAns Ans)

namespace Prog

/-- Ask for a lock, and wait until it is there. -/
def lock (k : K) (m : LockMode) : LockProg K Ans Unit := do
  Prog.call (LockOp.request k m)
  Prog.call (LockOp.acquire k m)

def unlock (k : K) : LockProg K Ans Unit := Prog.call (LockOp.release k)

/-- An operation on the data. -/
def datum (d : D) : LockProg K Ans (Ans d) := Prog.call (LockOp.data d)

/-- A program inside a lock. -/
def locked (k : K) (m : LockMode) (p : LockProg K Ans α) : LockProg K Ans α := do
  lock k m
  let a ← p
  unlock k
  pure a

/-- A program with each of its operations carried out by a program. -/
def expand {Op Op' : Type} {Ans : Op → Type} {Ans' : Op' → Type}
    (f : (o : Op) → Prog Op' Ans' (Ans o)) : Prog Op Ans α → Prog Op' Ans' α
  | .ret a => .ret a
  | .perform o k => f o >>= fun a => (k a).expand f

@[simp] theorem expand_ret {Op Op' : Type} {Ans : Op → Type} {Ans' : Op' → Type}
    (f : (o : Op) → Prog Op' Ans' (Ans o)) (a : α) : (Prog.ret a).expand f = .ret a := rfl

theorem bind_bind {Op : Type} {Ans : Op → Type} {γ : Type} (p : Prog Op Ans α)
    (f : α → Prog Op Ans β) (g : β → Prog Op Ans γ) :
    p >>= f >>= g = p >>= fun a => f a >>= g := by
  induction p with
  | ret a => rfl
  | perform o k ih => exact congrArg (Prog.perform o) (funext ih)

theorem expand_bind {Op Op' : Type} {Ans : Op → Type} {Ans' : Op' → Type}
    (f : (o : Op) → Prog Op' Ans' (Ans o)) (p : Prog Op Ans α) (g : α → Prog Op Ans β) :
    (p >>= g).expand f = p.expand f >>= fun a => (g a).expand f := by
  induction p with
  | ret a => rfl
  | perform o k ih =>
    have hk : (fun a => (k a >>= g).expand f) =
        fun a => (k a).expand f >>= fun b => (g b).expand f := funext ih
    show (f o >>= fun a => (k a >>= g).expand f) = _
    rw [hk]
    exact (bind_bind _ _ _).symm

theorem expand_ite {Op Op' : Type} {Ans : Op → Type} {Ans' : Op' → Type}
    (f : (o : Op) → Prog Op' Ans' (Ans o)) (c : Prop) [Decidable c] (p q : Prog Op Ans α) :
    (if c then p else q).expand f = if c then p.expand f else q.expand f := by
  split_ifs <;> rfl

variable [DecidableEq K]

/-- From a thread that holds some locks, and may wait for one more, a program asks for locks only of
greater rank than those held, gives up only locks it holds, and ends with the locks it is meant to
end with. -/
def Takes (rank : K → ℕ) (held' : Finset K) :
    Option (K × LockMode) → Finset K → LockProg K Ans α → Prop
  | none, held, .ret _ => held = held'
  | none, held, .perform (.request k m) f => (f ()).Takes rank held' (some (k, m)) held
  | none, held, .perform (.release k) f => k ∈ held ∧ (f ()).Takes rank held' none (held.erase k)
  | none, held, .perform (.data _) f => ∀ a, (f a).Takes rank held' none held
  | some r, held, .perform (.acquire k m) f =>
    r = (k, m) ∧ (∀ h ∈ held, rank h < rank k) ∧ (f ()).Takes rank held' none (insert k held)
  | _, _, _ => False

namespace Takes

variable {rank : K → ℕ} {held held' held₁ held₂ : Finset K} {k : K} {m : LockMode}

theorem ret (a : α) : (Prog.ret a : LockProg K Ans α).Takes rank held none held := rfl

theorem datum (d : D) : (Prog.datum d : LockProg K Ans (Ans d)).Takes rank held none held :=
  fun _ => rfl

theorem lock (hk : ∀ h ∈ held, rank h < rank k) :
    (Prog.lock k m : LockProg K Ans Unit).Takes rank (insert k held) none held :=
  ⟨rfl, hk, rfl⟩

theorem unlock (hk : k ∈ held) :
    (Prog.unlock k : LockProg K Ans Unit).Takes rank (held.erase k) none held :=
  ⟨hk, rfl⟩

/-- Programs one after the other. -/
theorem bind {w : Option (K × LockMode)} {p : LockProg K Ans α} {f : α → LockProg K Ans β}
    (hp : p.Takes rank held₁ w held) (hf : ∀ a, (f a).Takes rank held₂ none held₁) :
    (p >>= f).Takes rank held₂ w held := by
  induction p generalizing w held with
  | ret a =>
    cases w with
    | none =>
      obtain rfl : held = held₁ := hp
      exact hf a
    | some r => exact hp.elim
  | perform o g ih =>
    cases w with
    | none =>
      cases o with
      | request k m => exact ih () hp
      | acquire k m => exact hp.elim
      | release k => exact ⟨hp.1, ih () hp.2⟩
      | data d => exact fun a => ih a (hp a)
    | some r =>
      cases o with
      | acquire k m => exact ⟨hp.1, hp.2.1, ih () hp.2.2⟩
      | request k m => exact hp.elim
      | release k => exact hp.elim
      | data d => exact hp.elim

theorem ite {c : Prop} [Decidable c] {p q : LockProg K Ans α} (hp : p.Takes rank held' none held)
    (hq : q.Takes rank held' none held) : (if c then p else q).Takes rank held' none held := by
  split_ifs
  · exact hp
  · exact hq

/-- A loop whose body leaves the locks as they were. -/
theorem forM {X : Type} {f : X → LockProg K Ans PUnit} (xs : List X)
    (h : ∀ x ∈ xs, (f x).Takes rank held none held) : (xs.forM f).Takes rank held none held := by
  induction xs with
  | nil => exact ret _
  | cons x xs ih =>
    refine bind (h x List.mem_cons_self) fun _ => ih fun y hy => ?_
    exact h y (List.mem_cons_of_mem x hy)

/-- A program inside a lock leaves the locks as they were. -/
theorem locked {p : LockProg K Ans α} (hk : ∀ h ∈ held, rank h < rank k)
    (hp : p.Takes rank (insert k held) none (insert k held)) :
    (Prog.locked k m p).Takes rank held none held := by
  have hnot : k ∉ held := fun h => lt_irrefl _ (hk k h)
  refine bind (lock hk) fun _ => bind hp fun a => ?_
  have hunlock : (Prog.unlock k : LockProg K Ans Unit).Takes rank held none (insert k held) := by
    have h : (Prog.unlock k : LockProg K Ans Unit).Takes rank ((insert k held).erase k) none
        (insert k held) := unlock (Finset.mem_insert_self k held)
    rwa [Finset.erase_insert hnot] at h
  exact bind hunlock fun _ => ret a

/-- An operation carried out by a program, and what follows it. -/
theorem expand_call {Op : Type} {Ans' : Op → Type} {f : (o : Op) → LockProg K Ans (Ans' o)} {o : Op}
    {g : Ans' o → Prog Op Ans' β} (ho : (f o).Takes rank held₁ none held)
    (hg : ∀ a, ((g a).expand f).Takes rank held₂ none held₁) :
    ((Prog.call o >>= g).expand f).Takes rank held₂ none held :=
  bind ho hg

theorem expand_bind {Op : Type} {Ans' : Op → Type} {f : (o : Op) → LockProg K Ans (Ans' o)}
    {p : Prog Op Ans' α} {g : α → Prog Op Ans' β} (hp : (p.expand f).Takes rank held₁ none held)
    (hg : ∀ a, ((g a).expand f).Takes rank held₂ none held₁) :
    ((p >>= g).expand f).Takes rank held₂ none held := by
  rw [Prog.expand_bind]
  exact bind hp hg

theorem expand_ite {Op : Type} {Ans' : Op → Type} {f : (o : Op) → LockProg K Ans (Ans' o)}
    {c : Prop} [Decidable c] {p q : Prog Op Ans' α}
    (hp : (p.expand f).Takes rank held' none held) (hq : (q.expand f).Takes rank held' none held) :
    ((if c then p else q).expand f).Takes rank held' none held := by
  rw [Prog.expand_ite]
  exact ite hp hq

/-- A program whose operations are carried out by programs that leave the locks as they were. -/
theorem expand {Op : Type} {Ans' : Op → Type} {f : (o : Op) → LockProg K Ans (Ans' o)}
    {P : Op → Prop} (hf : ∀ o, P o → (f o).Takes rank held none held) {p : Prog Op Ans' α}
    (hp : p.Performs P) : (p.expand f).Takes rank held none held := by
  induction p with
  | ret a => exact ret a
  | perform o g ih => exact bind (hf o hp.1) fun a => ih a (hp.2 a)

end Takes

end Prog

end Programs

/-! ## Threads behind locks -/

section Exec

variable {T K σ D : Type} {Ans : D → Type} [DecidableEq T] [DecidableEq K]

/-- An operation carried out: a request joins the queue of its lock and is answered there when the
policy admits it. -/
def lockExec (policy : K → LockPolicy T) (exec : T → (d : D) → σ → σ × Ans d) (t : T) :
    (o : LockOp K D) → Guarded T K σ → Option (Guarded T K σ × LockAns Ans o)
  | .request k m, s =>
    some ({ s with queue := Function.update s.queue k ((s.queue k).request t m) }, ())
  | .acquire k m, s =>
    if (t, m) ∈ (s.queue k).waiting ∧ (policy k).admits (s.queue k) t m = true then
      some ({ s with queue := Function.update s.queue k ((s.queue k).letIn t m) }, ())
    else none
  | .release k, s =>
    some ({ s with queue := Function.update s.queue k ((s.queue k).release t) }, ())
  | .data d, s =>
    let r := exec t d s.data
    some ({ s with data := r.1 }, r.2)

end Exec

/-- Threads behind locks. Every call asks for its locks in order, and gives up all it took. -/
structure LockSystem (T K σ : Type) (L C : T → Type) {D : Type} (Ans : D → Type)
    [DecidableEq K] where
  rank : K → ℕ
  policy : K → LockPolicy T
  exec : T → (d : D) → σ → σ × Ans d
  body : (t : T) → L t → C t → LockProg K Ans (L t)
  takes : ∀ t l x, (body t l x).Takes rank ∅ none ∅

namespace LockSystem

variable {T K σ D : Type} {L C : T → Type} {Ans : D → Type} [DecidableEq T] [DecidableEq K]

/-- The locks as a system. -/
def system (S : LockSystem T K σ L C Ans) :
    System T (Guarded T K σ) L C (LockOp K D) (LockAns Ans) where
  exec := lockExec S.policy S.exec
  body := S.body

/-- All locks free. -/
def start (d : σ) : Guarded T K σ := ⟨fun _ => .empty, d⟩

variable (S : LockSystem T K σ L C Ans)

/-! ### What a thread holds and waits for -/

/-- The locks a thread holds, and the one it waits for. -/
structure Stands (t : T) (held : Finset K) (w : Option (K × LockMode)) (s : Guarded T K σ) :
    Prop where
  holds_iff : ∀ k, (s.queue k).Holds t ↔ k ∈ held
  waiting_iff : ∀ k m, (t, m) ∈ (s.queue k).waiting ↔ w = some (k, m)

/-- A thread holds and waits for what the rest of its call takes care of. -/
def Attends (t : T) (s : Guarded T K σ) :
    Activity (LockOp K D) (LockAns Ans) (L t) → Prop
  | .idle _ => Stands t ∅ none s
  | .running p => ∃ held w, Stands t held w s ∧ p.Takes S.rank ∅ w held

variable {S} {t u : T} {k : K} {m : LockMode} {held : Finset K} {s : Guarded T K σ}

omit [DecidableEq T] [DecidableEq K] in
theorem stands_start (d : σ) : Stands t (∅ : Finset K) none (start d) where
  holds_iff k := by simp [start, LockQueue.empty, LockQueue.Holds]
  waiting_iff k m := by simp [start, LockQueue.empty]

omit [DecidableEq T] in
/-- A request is waiting. -/
theorem Stands.request (h : Stands t held none s) (k : K) (m : LockMode) :
    Stands t held (some (k, m))
      { s with queue := Function.update s.queue k ((s.queue k).request t m) } where
  holds_iff k' := by
    by_cases hk : k' = k
    · subst hk
      simpa [LockQueue.Holds, LockQueue.request] using h.holds_iff k'
    · simpa [hk] using h.holds_iff k'
  waiting_iff k' m' := by
    have hnone := h.waiting_iff k' m'
    by_cases hk : k' = k
    · subst hk
      simp only [LockQueue.request, Function.update_self, List.mem_append, hnone]
      simp [eq_comm]
    · simpa [hk, Ne.symm hk] using hnone

/-- A request is answered. -/
theorem Stands.letIn (h : Stands t held (some (k, m)) s) :
    Stands t (insert k held) none
      { s with queue := Function.update s.queue k ((s.queue k).letIn t m) } where
  holds_iff k' := by
    have hk' := h.holds_iff k'
    by_cases hk : k' = k
    · subst hk
      cases m <;> simp [LockQueue.Holds, LockQueue.letIn]
    · simpa [hk] using hk'
  waiting_iff k' m' := by
    have hk' := h.waiting_iff k' m'
    by_cases hk : k' = k
    · subst hk
      cases m <;> simp [LockQueue.letIn]
    · have hne : ¬ (k = k' ∧ m = m') := fun e => hk e.1.symm
      simpa [hk, hne] using hk'

/-- A lock is given up. -/
theorem Stands.release (h : Stands t held none s) (k : K) :
    Stands t (held.erase k) none
      { s with queue := Function.update s.queue k ((s.queue k).release t) } where
  holds_iff k' := by
    have hk' := h.holds_iff k'
    by_cases hk : k' = k
    · subst hk
      simp only [LockQueue.Holds, LockQueue.release, Function.update_self, Finset.mem_erase]
      split_ifs with hw <;> simp [hw]
    · simpa [hk] using hk'
  waiting_iff k' m' := by
    have hk' := h.waiting_iff k' m'
    by_cases hk : k' = k
    · subst hk
      simpa [LockQueue.release] using hk'
    · simpa [hk] using hk'

/-- An operation of another thread leaves what a thread holds and waits for. -/
theorem Stands.other {w : Option (K × LockMode)} (h : Stands t held w s) (hu : u ≠ t)
    {o : LockOp K D} {s' : Guarded T K σ} {a : LockAns Ans o}
    (he : S.system.exec u o s = some (s', a)) : Stands t held w s' := by
  -- only the queue at one lock changes, and there only what is said of the other thread
  have key (k : K) (q : LockQueue T) (hholds : q.Holds t ↔ (s.queue k).Holds t)
      (hwaiting : ∀ m, (t, m) ∈ q.waiting ↔ (t, m) ∈ (s.queue k).waiting) :
      Stands t held w { s with queue := Function.update s.queue k q } := by
    refine ⟨fun k' => ?_, fun k' m => ?_⟩
    · by_cases hk : k' = k
      · subst hk
        simpa [hholds] using h.holds_iff k'
      · simpa [hk] using h.holds_iff k'
    · by_cases hk : k' = k
      · subst hk
        simpa [hwaiting] using h.waiting_iff k' m
      · simpa [hk] using h.waiting_iff k' m
  cases o with
  | request k m =>
    obtain ⟨rfl, -⟩ := Prod.ext_iff.mp (Option.some.inj he)
    apply key k
    · exact Iff.rfl
    · intro m'
      simp [LockQueue.request, Ne.symm hu]
  | acquire k m =>
    simp only [system, lockExec] at he
    split_ifs at he with hadmit
    obtain ⟨rfl, -⟩ := Prod.ext_iff.mp (Option.some.inj he)
    apply key k
    · cases m with
      | shared => simp [LockQueue.Holds, LockQueue.letIn, Ne.symm hu]
      | exclusive =>
        have hw := (S.policy k).writer_eq_none hadmit.2
        simp [LockQueue.Holds, LockQueue.letIn, hu, hw]
    · intro m'
      cases m <;> simp [LockQueue.letIn, Ne.symm hu]
  | release k =>
    obtain ⟨rfl, -⟩ := Prod.ext_iff.mp (Option.some.inj he)
    apply key k
    · simp only [LockQueue.Holds, LockQueue.release]
      split_ifs with hw <;> simp [hw, hu, Ne.symm hu]
    · exact fun _ => Iff.rfl
  | data d =>
    obtain ⟨rfl, -⟩ := Prod.ext_iff.mp (Option.some.inj he)
    exact ⟨h.holds_iff, h.waiting_iff⟩

/-- An operation of a thread, and what the rest of its call takes care of. -/
theorem Stands.step {w : Option (K × LockMode)} (h : Stands t held w s) {o : LockOp K D}
    {f : LockAns Ans o → LockProg K Ans (L t)}
    (hp : (Prog.perform o f).Takes S.rank ∅ w held) {s' : Guarded T K σ} {a : LockAns Ans o}
    (he : S.system.exec t o s = some (s', a)) : S.Attends t s' (.running (f a)) := by
  cases w with
  | none =>
    cases o with
    | request k m =>
      obtain ⟨rfl, -⟩ := Prod.ext_iff.mp (Option.some.inj he)
      exact ⟨_, _, h.request k m, hp⟩
    | acquire k m => exact hp.elim
    | release k =>
      obtain ⟨rfl, -⟩ := Prod.ext_iff.mp (Option.some.inj he)
      exact ⟨_, _, h.release k, hp.2⟩
    | data d =>
      obtain ⟨rfl, rfl⟩ := Prod.ext_iff.mp (Option.some.inj he)
      exact ⟨_, _, ⟨h.holds_iff, h.waiting_iff⟩, hp _⟩
  | some r =>
    cases o with
    | acquire k m =>
      obtain ⟨rfl, -, hrest⟩ := hp
      simp only [system, lockExec] at he
      split_ifs at he
      obtain ⟨rfl, -⟩ := Prod.ext_iff.mp (Option.some.inj he)
      exact ⟨_, _, h.letIn, hrest⟩
    | request k m => exact hp.elim
    | release k => exact hp.elim
    | data d => exact hp.elim

variable {allow : T → LockOp K D → Guarded T K σ → Prop} {d : σ} {l : (t : T) → L t}
  {c : Config T (Guarded T K σ) L (LockOp K D) (LockAns Ans)}

/-- In every state reached the threads attend to what they hold and wait for. -/
theorem attends (hc : S.system.Reachable allow (start d) l c) (t : T) :
    S.Attends t c.shared (c.thread t) := by
  refine System.thread_invariant (I := S.Attends) ?_ ?_ ?_ ?_ ?_ hc t
  · exact fun t => stands_start d
  · exact fun t s l x h => ⟨_, _, h, S.takes t l x⟩
  · rintro t o f s s' a ⟨held, w, h, hp⟩ he
    exact h.step hp he
  · intro t u o s s' a activity hu h he
    cases activity with
    | idle l => exact h.other hu he
    | running p =>
      obtain ⟨held, w, hstands, hp⟩ := h
      exact ⟨held, w, hstands.other hu he, hp⟩
  · rintro t s l ⟨held, w, h, hp⟩
    cases w with
    | none =>
      obtain rfl : held = ∅ := hp
      exact h
    | some r => exact hp.elim

/-- **An exclusive holder is alone** in every state reached. -/
theorem excludes (hc : S.system.Reachable allow (start d) l c) {k : K} {t u : T}
    (ht : (c.shared.queue k).writer = some t) (hu : (c.shared.queue k).Holds u) : u = t := by
  have hempty : ∀ k t, (c.shared.queue k).writer = some t → (c.shared.queue k).readers = ∅ := by
    refine System.shared_invariant (P := fun _ _ => True)
      (I := fun s => ∀ k t, (s.queue k).writer = some t → (s.queue k).readers = ∅) ?_ ?_ ?_ hc
    · exact fun t l x => .of_forall (fun _ => trivial) _
    · intro k t h
      cases h
    · rintro v o s s' a - hs - he k t
      have key (k₀ : K) (q : LockQueue T) (hq : q.writer = some t → q.readers = ∅)
          (h : (Function.update s.queue k₀ q k).writer = some t) :
          (Function.update s.queue k₀ q k).readers = ∅ := by
        by_cases hk : k = k₀
        · subst hk
          rw [Function.update_self] at h ⊢
          exact hq h
        · rw [Function.update_of_ne hk] at h ⊢
          exact hs k t h
      cases o with
      | request k₀ m =>
        obtain ⟨rfl, -⟩ := Prod.ext_iff.mp (Option.some.inj he)
        exact key k₀ _ (hs k₀ t)
      | acquire k₀ m =>
        simp only [system, lockExec] at he
        split_ifs at he with hadmit
        obtain ⟨rfl, -⟩ := Prod.ext_iff.mp (Option.some.inj he)
        apply key k₀
        cases m with
        | shared =>
          intro h
          exact absurd ((S.policy k₀).writer_eq_none hadmit.2 ▸ h) (by simp)
        | exclusive =>
          have hr := (S.policy k₀).readers_eq_empty hadmit.2
          exact fun _ => hr
      | release k₀ =>
        obtain ⟨rfl, -⟩ := Prod.ext_iff.mp (Option.some.inj he)
        apply key k₀
        simp only [LockQueue.release]
        split_ifs with hw
        · intro h
          cases h
        · intro h
          rw [hs k₀ t h, Finset.erase_empty]
      | data d =>
        obtain ⟨rfl, -⟩ := Prod.ext_iff.mp (Option.some.inj he)
        exact hs k t
  rcases hu with hu | hu
  · rw [hempty k t ht] at hu
    simp at hu
  · exact Option.some.inj (hu.symm.trans ht)

/-! ### No deadlock -/

/-- A thread waits at a lock, and all it holds is of smaller rank. -/
structure WaitsAt (S : LockSystem T K σ L C Ans) (t : T) (k : K) (m : LockMode)
    (held : Finset K) (c : Config T (Guarded T K σ) L (LockOp K D) (LockAns Ans)) : Prop where
  stands : Stands t held (some (k, m)) c.shared
  rank_lt : ∀ h ∈ held, S.rank h < S.rank k
  next : ∃ f, c.thread t = .running (.perform (.acquire k m) f)

/-- A call that cannot go on waits at a lock. -/
theorem waitsAt_of_stuck (hc : S.system.Reachable System.Unrestricted (start d) l c)
    (hstuck : ∀ c', ¬ S.system.Goes System.Unrestricted c c') {p : LockProg K Ans (L t)}
    (ht : c.thread t = .running p) : ∃ k m held, S.WaitsAt t k m held c := by
  have hattends := attends hc t
  rw [ht] at hattends
  obtain ⟨held, w, hstands, hp⟩ := hattends
  cases p with
  | ret l => exact absurd (.finish ht) (hstuck _)
  | perform o f =>
    cases o with
    | request k m => exact absurd (.act ht trivial rfl) (hstuck _)
    | release k => exact absurd (.act ht trivial rfl) (hstuck _)
    | data d => exact absurd (.act ht trivial rfl) (hstuck _)
    | acquire k m =>
      cases w with
      | none => exact hp.elim
      | some r =>
        obtain ⟨rfl, hrank, -⟩ := hp
        exact ⟨k, m, held, hstands, hrank, f, ht⟩

/-- **No deadlock**: in every state reached, as long as a call is under way some call can go on. -/
theorem exists_goes [Finite T] (hc : S.system.Reachable System.Unrestricted (start d) l c)
    {t : T} {p : LockProg K Ans (L t)} (ht : c.thread t = .running p) :
    ∃ c', S.system.Goes System.Unrestricted c c' := by
  by_contra! hstuck
  have hwaits (u : { u // ∃ p, c.thread u = .running p }) :
      ∃ k m held, S.WaitsAt u k m held c :=
    let ⟨_, hu⟩ := u.2
    waitsAt_of_stuck hc hstuck hu
  choose k m held hwaits using hwaits
  -- the thread that waits at the lock of the greatest rank
  have : Nonempty { u // ∃ p, c.thread u = .running p } := ⟨t, p, ht⟩
  obtain ⟨u, hmax⟩ := Finite.exists_max fun u => S.rank (k u)
  by_cases hheld : ∃ v, (c.shared.queue (k u)).Holds v
  · obtain ⟨v, hv⟩ := hheld
    have hattends := attends hc v
    cases hv' : c.thread v with
    | idle l =>
      rw [hv'] at hattends
      exact absurd ((hattends.holds_iff _).mp hv) (Finset.notMem_empty _)
    | running q =>
      have hw := hwaits ⟨v, q, hv'⟩
      exact absurd (hw.rank_lt _ ((hw.stands.holds_iff _).mp hv)) (not_lt.mpr (hmax ⟨v, q, hv'⟩))
  · simp only [LockQueue.Holds, not_exists, not_or] at hheld
    have hwriter : (c.shared.queue (k u)).writer = none :=
      Option.eq_none_iff_forall_ne_some.mpr fun v => (hheld v).2
    have hreaders : (c.shared.queue (k u)).readers = ∅ :=
      Finset.eq_empty_iff_forall_notMem.mpr fun v => (hheld v).1
    have hwaiting := ((hwaits u).stands.waiting_iff _ _).mpr rfl
    obtain ⟨⟨v, mv⟩, hmem, hadmits⟩ := (S.policy (k u)).exists_admits hwriter hreaders
      (List.ne_nil_of_mem hwaiting)
    have hattends := attends hc v
    cases hv' : c.thread v with
    | idle l =>
      rw [hv'] at hattends
      exact absurd ((hattends.waiting_iff _ _).mp hmem) (by simp)
    | running q =>
      have hw := hwaits ⟨v, q, hv'⟩
      obtain ⟨hk, hm⟩ := Prod.ext_iff.mp (Option.some.inj ((hw.stands.waiting_iff _ _).mp hmem))
      obtain ⟨f, hf⟩ := hw.next
      simp only at hk hm
      rw [hk, hm] at hf
      exact hstuck _ (.act hf trivial (if_pos ⟨hmem, hadmits⟩))

/-- All calls under way can be brought to their end, by going on with them in whatever order. -/
theorem can_end [Finite T] (hc : S.system.Reachable System.Unrestricted (start d) l c) :
    ∃ c', Relation.ReflTransGen (S.system.Goes System.Unrestricted) c c' ∧
      ∀ t, ∃ l, c'.thread t = .idle l := by
  have hwf : WellFounded fun c' c => S.system.Goes System.Unrestricted c c' :=
    System.goes_wellFounded
  induction c using hwf.induction with
  | _ c ih =>
    by_cases hidle : ∀ t, ∃ l, c.thread t = .idle l
    · exact ⟨c, .refl, hidle⟩
    · push Not at hidle
      obtain ⟨t, ht⟩ := hidle
      cases hrunning : c.thread t with
      | idle l => exact absurd hrunning (ht l)
      | running p =>
        obtain ⟨c₁, hgoes⟩ := exists_goes hc hrunning
        obtain ⟨c', hrest, hend⟩ := ih c₁ hgoes (hc.tail hgoes.step)
        exact ⟨c', .head hgoes hrest, hend⟩

end LockSystem

end Concurrency
