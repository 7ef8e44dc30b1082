import Mathlib.Data.Nat.Notation
import Mathlib.Logic.Function.Basic
import Mathlib.Logic.Relation
import Mathlib.Tactic.SplitIfs

/-!
# Programs of atomic operations and their interleavings

A program performs atomic operations on a shared state and goes on with their answers. A system
has threads, each with its own local value; an idle thread starts a call at any time, which runs
the program of that call, and the operations of all threads interleave in any order. An operation
without an answer blocks its thread.

## Main definitions

* `Prog Op Ans α`: programs over the operations `Op`, as a monad
* `System`: the atomic operations of each thread, and the program of each call
* `System.Step`, `System.Reachable`: interleavings of the operations that are allowed
* `System.schedule`: the interleaving a list of moves asks for
* `Move.beginCall`, `Move.goOn`, `Move.endCall`, `Move.wholeCall`: the moves of a call

## Main results

* `System.reachable_of_schedule`, `System.exists_of_schedule`: an executed schedule ends in a
  reachable configuration
-/

namespace Concurrency

/-- A program: it returns a value, or performs an operation and goes on with its answer. -/
inductive Prog (Op : Type) (Ans : Op → Type) (α : Type) : Type
  | ret (a : α) : Prog Op Ans α
  | perform (o : Op) (k : Ans o → Prog Op Ans α) : Prog Op Ans α

namespace Prog

variable {Op : Type} {Ans : Op → Type} {α β : Type}

/-- Sequential composition. -/
def bind : Prog Op Ans α → (α → Prog Op Ans β) → Prog Op Ans β
  | .ret a, f => f a
  | .perform o k, f => .perform o fun a => (k a).bind f

instance : Monad (Prog Op Ans) where
  pure := .ret
  bind := bind

/-- The program of a single operation. -/
def call (o : Op) : Prog Op Ans (Ans o) := .perform o .ret

@[simp] theorem pure_eq_ret (a : α) : (pure a : Prog Op Ans α) = .ret a := rfl

@[simp] theorem ret_bind (a : α) (f : α → Prog Op Ans β) : (Prog.ret a >>= f) = f a := rfl

@[simp] theorem perform_bind (o : Op) (k : Ans o → Prog Op Ans α) (f : α → Prog Op Ans β) :
    (Prog.perform o k >>= f) = .perform o fun a => k a >>= f := rfl

@[simp] theorem call_bind (o : Op) (f : Ans o → Prog Op Ans β) :
    (call o >>= f) = .perform o f := rfl

end Prog

/-- What a thread is doing: nothing, holding its local value, or the rest of a call. -/
inductive Activity (Op : Type) (Ans : Op → Type) (L : Type) : Type
  | idle (l : L) : Activity Op Ans L
  | running (p : Prog Op Ans L) : Activity Op Ans L

/-- The atomic operations of the threads, and the program of each call. A call of thread `t`
starts from its local value and ends with the next one. -/
structure System (T σ : Type) (L C : T → Type) (Op : Type) (Ans : Op → Type) where
  exec : T → (o : Op) → σ → Option (σ × Ans o)
  body : (t : T) → L t → C t → Prog Op Ans (L t)

/-- A configuration: the shared state and the activity of each thread. -/
structure Config (T σ : Type) (L : T → Type) (Op : Type) (Ans : Op → Type) where
  shared : σ
  thread : (t : T) → Activity Op Ans (L t)

namespace System

variable {T σ : Type} {L C : T → Type} {Op : Type} {Ans : Op → Type} [DecidableEq T]
  (S : System T σ L C Op Ans) (allow : T → Op → σ → Prop)

/-- Every thread idle, with its first local value. -/
def initial (s : σ) (l : (t : T) → L t) : Config T σ L Op Ans where
  shared := s
  thread t := .idle (l t)

/-- One step of one thread: it starts a call, performs its next operation if this is allowed and
has an answer, or ends its call. -/
inductive Step : Config T σ L Op Ans → Config T σ L Op Ans → Prop
  | start {c : Config T σ L Op Ans} {t : T} {l : L t} (x : C t) (h : c.thread t = .idle l) :
      Step c ⟨c.shared, Function.update c.thread t (.running (S.body t l x))⟩
  | act {c : Config T σ L Op Ans} {t : T} {o : Op} {k : Ans o → Prog Op Ans (L t)} {s : σ}
      {a : Ans o} (h : c.thread t = .running (.perform o k)) (ha : allow t o c.shared)
      (he : S.exec t o c.shared = some (s, a)) :
      Step c ⟨s, Function.update c.thread t (.running (k a))⟩
  | finish {c : Config T σ L Op Ans} {t : T} {l : L t} (h : c.thread t = .running (.ret l)) :
      Step c ⟨c.shared, Function.update c.thread t (.idle l)⟩

/-- The configurations reached from an initial one. -/
def Reachable (s : σ) (l : (t : T) → L t) : Config T σ L Op Ans → Prop :=
  Relation.ReflTransGen (S.Step allow) (initial s l)

/-- The operations of every thread are allowed in every state. -/
abbrev Unrestricted : T → Op → σ → Prop := fun _ _ _ => True

/-! ## Schedules -/

/-- The move a scheduler asks of a thread. -/
inductive Move (T : Type) (C : T → Type) : Type
  | start (t : T) (x : C t) : Move T C
  | act (t : T) : Move T C
  | finish (t : T) : Move T C

namespace Move

/-- A thread starts a call and performs its first operations. -/
def beginCall (t : T) (x : C t) (operations : ℕ) : List (Move T C) :=
  .start t x :: List.replicate operations (.act t)

/-- A thread performs operations of its call. -/
def goOn (t : T) (operations : ℕ) : List (Move T C) := List.replicate operations (.act t)

/-- A thread performs the last operations of its call and ends it. -/
def endCall (t : T) (operations : ℕ) : List (Move T C) := (goOn t operations).concat (.finish t)

/-- A call from start to end, with nothing between. -/
def wholeCall (t : T) (x : C t) (operations : ℕ) : List (Move T C) :=
  .start t x :: endCall t operations

end Move

variable [∀ t o s, Decidable (allow t o s)]

/-- Carry out one move, if the thread can make it. -/
def move (c : Config T σ L Op Ans) : Move T C → Option (Config T σ L Op Ans)
  | .start t x =>
    match c.thread t with
    | .idle l => some ⟨c.shared, Function.update c.thread t (.running (S.body t l x))⟩
    | .running _ => none
  | .act t =>
    match c.thread t with
    | .running (.perform o k) =>
      -- an operation that is not allowed, or has no answer, stops the schedule
      if allow t o c.shared then
        (S.exec t o c.shared).map fun r =>
          ⟨r.1, Function.update c.thread t (.running (k r.2))⟩
      else none
    | _ => none
  | .finish t =>
    match c.thread t with
    | .running (.ret l) => some ⟨c.shared, Function.update c.thread t (.idle l)⟩
    | _ => none

/-- Carry out a list of moves in order. -/
def schedule : List (Move T C) → Config T σ L Op Ans → Option (Config T σ L Op Ans)
  | [], c => some c
  | m :: ms, c => (move S allow c m).bind (schedule ms)

variable {S allow}

/-- A move that is carried out is a step. -/
theorem step_of_move {c c' : Config T σ L Op Ans} {m : Move T C}
    (h : move S allow c m = some c') : S.Step allow c c' := by
  cases m with
  | start t x =>
    simp only [move] at h
    split at h
    · next l hl =>
      obtain rfl := Option.some.inj h
      exact .start x hl
    · cases h
  | act t =>
    simp only [move] at h
    split at h
    · next o k hl =>
      split_ifs at h with ha
      obtain ⟨⟨s, a⟩, he, rfl⟩ := Option.map_eq_some_iff.mp h
      exact .act hl ha he
    · cases h
  | finish t =>
    simp only [move] at h
    split at h
    · next l hl =>
      obtain rfl := Option.some.inj h
      exact .finish hl
    · cases h

/-- **An executed schedule is an interleaving.** -/
theorem reachable_of_schedule {s : σ} {l : (t : T) → L t} {c c' : Config T σ L Op Ans}
    (hc : S.Reachable allow s l c) (ms : List (Move T C)) (h : schedule S allow ms c = some c') :
    S.Reachable allow s l c' := by
  induction ms generalizing c with
  | nil =>
    obtain rfl := Option.some.inj h
    exact hc
  | cons m ms ih =>
    obtain ⟨c₁, h₁, h₂⟩ := Option.bind_eq_some_iff.mp h
    exact ih (hc.tail (step_of_move h₁)) h₂

/-- What a schedule is seen to end in, a reachable configuration satisfies. -/
theorem exists_of_schedule {s : σ} {l : (t : T) → L t} {P : Config T σ L Op Ans → Prop}
    [DecidablePred P] (ms : List (Move T C))
    (h : (schedule S allow ms (initial s l)).any (fun c => decide (P c)) = true) :
    ∃ c, S.Reachable allow s l c ∧ P c := by
  obtain ⟨c, hc, hP⟩ := (Option.any_eq_true _ _).mp h
  exact ⟨c, reachable_of_schedule .refl ms hc, of_decide_eq_true hP⟩

end System

end Concurrency
