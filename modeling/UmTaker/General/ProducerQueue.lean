import Mathlib.Data.List.Basic
import Mathlib.Logic.Function.Basic

/-!
# Queues of several producers

A concurrent queue that keeps the elements of each producer in their order. It promises no order
between producers, an enqueue may be refused, and a dequeue may find nothing although elements are
held.

## Main definitions

* `ProducerQueue`: the operations of such a queue, and what is known of them
* `ProducerQueue.Delivers`: what was taken from the queue, by what entered it
* `ProducerQueue.inOneLine`: the queue that keeps all elements in one order

## Main results

* `ProducerQueue.Delivers.enqueue`, `ProducerQueue.Delivers.dequeue`: every operation delivers
-/

/-- The elements of a producer, among elements with their producers. -/
def ProducerQueue.ofProducer {P α : Type*} [DecidableEq P] (p : P) (xs : List (P × α)) : List α :=
  (xs.filter (·.1 = p)).map Prod.snd

namespace ProducerQueue

variable {P α : Type*} [DecidableEq P] (p p' : P) (x : α) (xs : List (P × α))

@[simp] theorem ofProducer_nil : ofProducer p ([] : List (P × α)) = [] := rfl

@[simp] theorem ofProducer_snoc : ofProducer p (xs ++ [(p', x)]) =
    ofProducer p xs ++ if p' = p then [x] else [] := by
  unfold ofProducer
  rw [List.filter_append, List.map_append]
  by_cases h : p' = p <;> simp [h]

@[simp] theorem ofProducer_cons : ofProducer p ((p', x) :: xs) =
    (if p' = p then [x] else []) ++ ofProducer p xs := by
  unfold ofProducer
  by_cases h : p' = p <;> simp [h]

end ProducerQueue

/-- A queue that keeps the elements of each producer in their order. -/
structure ProducerQueue (P α : Type*) [DecidableEq P] where
  Q : Type
  tryEnqueue : P → α → Q → Bool × Q
  tryDequeue : Q → Option α × Q
  /-- the elements of each producer that are in the queue, the oldest first -/
  held : Q → P → List α
  held_tryEnqueue : ∀ p x q, held (tryEnqueue p x q).2 =
    if (tryEnqueue p x q).1 then Function.update (held q) p (held q p ++ [x]) else held q
  held_of_some : ∀ q x, (tryDequeue q).1 = some x →
    ∃ p rest, held q p = x :: rest ∧ held (tryDequeue q).2 = Function.update (held q) p rest
  held_of_none : ∀ q, (tryDequeue q).1 = none → held (tryDequeue q).2 = held q

namespace ProducerQueue

variable {P α : Type*} [DecidableEq P]

/-- From a queue `first`, into which `enqueued` entered, `dequeued` was taken: the elements of each
producer in their order, up to those that are held. -/
def Delivers (queue : ProducerQueue P α) (first : queue.Q) (enqueued : List (P × α))
    (dequeued : List α) (q : queue.Q) : Prop :=
  ∃ taken : List (P × α), taken.map Prod.snd = dequeued ∧
    ∀ p, ofProducer p taken ++ queue.held q p = queue.held first p ++ ofProducer p enqueued

namespace Delivers

variable {queue : ProducerQueue P α} {first q : queue.Q} {enqueued : List (P × α)}
  {dequeued : List α}

theorem refl : queue.Delivers first [] [] first :=
  ⟨[], rfl, by simp⟩

/-- An element that is refused has not entered. -/
theorem enqueue (h : queue.Delivers first enqueued dequeued q) (p : P) (x : α) :
    queue.Delivers first
      (if (queue.tryEnqueue p x q).1 then enqueued ++ [(p, x)] else enqueued) dequeued
      (queue.tryEnqueue p x q).2 := by
  obtain ⟨taken, htaken, heach⟩ := h
  refine ⟨taken, htaken, fun p' => ?_⟩
  rw [queue.held_tryEnqueue]
  split_ifs
  · rw [ofProducer_snoc, ← List.append_assoc, ← heach p']
    rcases eq_or_ne p p' with rfl | hp
    · simp
    · simp [hp, Function.update_of_ne hp.symm]
  · exact heach p'

theorem dequeue_some (h : queue.Delivers first enqueued dequeued q) {x : α}
    (hx : (queue.tryDequeue q).1 = some x) :
    queue.Delivers first enqueued (dequeued ++ [x]) (queue.tryDequeue q).2 := by
  obtain ⟨taken, htaken, heach⟩ := h
  obtain ⟨p, rest, hheld, hheld'⟩ := queue.held_of_some q x hx
  refine ⟨taken ++ [(p, x)], by simp [htaken], fun p' => ?_⟩
  rw [← heach p', hheld', ofProducer_snoc, List.append_assoc]
  rcases eq_or_ne p p' with rfl | hp
  · simp [hheld]
  · simp [hp, Function.update_of_ne hp.symm]

theorem dequeue_none (h : queue.Delivers first enqueued dequeued q)
    (hnone : (queue.tryDequeue q).1 = none) :
    queue.Delivers first enqueued dequeued (queue.tryDequeue q).2 := by
  obtain ⟨taken, htaken, heach⟩ := h
  exact ⟨taken, htaken, by rwa [queue.held_of_none q hnone]⟩

end Delivers

/-- The queue that keeps all elements in one order. -/
def inOneLine (P α : Type) [DecidableEq P] : ProducerQueue P α where
  Q := List (P × α)
  tryEnqueue p x q := (true, q ++ [(p, x)])
  tryDequeue q := (q.head?.map Prod.snd, q.tail)
  held q p := ofProducer p q
  held_tryEnqueue p x q := by
    funext p'
    rcases eq_or_ne p p' with rfl | hp
    · simp
    · simp [hp, Function.update_of_ne hp.symm]
  held_of_some q x hx := by
    cases q with
    | nil => cases hx
    | cons first rest =>
      obtain ⟨p, y⟩ := first
      obtain rfl : y = x := Option.some.inj hx
      refine ⟨p, ofProducer p rest, by simp, funext fun p' => ?_⟩
      rcases eq_or_ne p p' with rfl | hp
      · simp
      · simp [hp, Function.update_of_ne hp.symm]
  held_of_none q hnone := by
    cases q with
    | nil => rfl
    | cons first rest => cases hnone

section InOneLine

variable {P α : Type} [DecidableEq P] (p : P) (x : α) (q : List (P × α))

@[simp] theorem inOneLine_tryEnqueue :
    (inOneLine P α).tryEnqueue p x q = (true, (q ++ [(p, x)] : List (P × α))) := rfl

@[simp] theorem inOneLine_tryDequeue :
    (inOneLine P α).tryDequeue q = (q.head?.map Prod.snd, q.tail) := rfl

end InOneLine

end ProducerQueue
