import Mathlib.Data.List.Infix
import Mathlib.Data.List.TakeWhile

/-!
# Loops that receive and reconnect

An endless loop connects, and then receives messages in an inner endless loop. A round of the inner
loop is a try block: it runs to its end, leaves by `continue`, or throws, and its handler leaves the
inner loop. What stands behind the try block is passed in the first case only, what stands behind
the inner loop in the last one.

## Main definitions

* `Loop`, `Loop.trace`: such a loop, and what it does while it receives
* `BacksOff`: it sleeps once after each failure, before it connects again, and never between
  messages

## Main results

* `backsOff_of_behindLoop`: a loop that sleeps behind the inner loop backs off
* `backsOff_iff_of_behindTry`: one that sleeps behind the try block backs off only while nothing
  throws and no round but the last runs to its end
-/

namespace ReceiveLoop

/-- What is observed of a loop. -/
inductive Action
  | connect
  | message
  | failure
  | sleep
  deriving DecidableEq, Repr

/-- How the try block of a round ends. -/
inductive Flow
  | finished
  | continued
  | thrown
  deriving DecidableEq, Repr

/-- What is observed of a try block. -/
def Flow.action : Flow → Action
  | .finished => .message
  | .continued => .message
  | .thrown => .failure

/-- A loop, by what becomes of each round, and whether it sleeps behind the try block and behind the
inner loop. -/
structure Loop (ε : Type*) where
  attempt : ε → Flow
  sleepBehindTry : Bool
  sleepBehindLoop : Bool

/-- A sleep, if there is one. -/
def pause (sleeps : Bool) : List Action := if sleeps then [.sleep] else []

@[simp] theorem mem_pause {sleeps : Bool} {a : Action} :
    a ∈ pause sleeps ↔ sleeps = true ∧ a = .sleep := by
  cases sleeps <;> simp [pause]

namespace Loop

variable {ε : Type*} (l : Loop ε)

/-- What stands behind the try block, up to the next round. -/
def behind : Flow → List Action
  | .finished => pause l.sleepBehindTry
  | .continued => []
  -- the handler leaves the inner loop, and the outer one connects again
  | .thrown => pause l.sleepBehindLoop ++ [.connect]

/-- A round, up to the next one. -/
def round (e : ε) : List Action := (l.attempt e).action :: l.behind (l.attempt e)

/-- What the loop does up to the wait for the next round. -/
def trace (es : List ε) : List Action := .connect :: es.flatMap l.round

variable {l} {e : ε} {pre post : List Action}

/-- A round begins with its message or failure, and has no other. -/
theorem round_split (flow : Flow) (h : l.round e = pre ++ flow.action :: post) :
    (l.attempt e).action = flow.action ∧ post = l.behind (l.attempt e) := by
  unfold round at h
  rcases pre with _ | ⟨a, pre⟩
  · obtain ⟨haction, hpost⟩ := List.cons_eq_cons.mp h
    exact ⟨haction, hpost.symm⟩
  · have hmem : flow.action ∈ l.behind (l.attempt e) := by
      rw [(List.cons_eq_cons.mp h).2]
      simp
    cases hattempt : l.attempt e <;> rw [hattempt] at hmem <;> cases flow <;>
      simp [behind, Flow.action] at hmem

end Loop

/-- After each failure, up to the next connection, the loop sleeps once; between two messages
without a failure it does not sleep. -/
structure BacksOff (trace : List Action) : Prop where
  once : ∀ rest, .failure :: rest <:+ trace → .connect ∈ rest →
    (rest.takeWhile (· ≠ .connect)).count .sleep = 1
  never : ∀ mid rest, .message :: (mid ++ .message :: rest) <:+ trace → .failure ∉ mid →
    .sleep ∉ mid

/-- A sleep before everything else changes nothing. -/
theorem BacksOff.cons_sleep {trace : List Action} (h : BacksOff trace) :
    BacksOff (.sleep :: trace) where
  once rest hsuffix := by
    rcases List.suffix_cons_iff.mp hsuffix with heq | hsuffix
    · cases heq
    · exact h.once rest hsuffix
  never mid rest hsuffix := by
    rcases List.suffix_cons_iff.mp hsuffix with heq | hsuffix
    · cases heq
    · exact h.never mid rest hsuffix

/-- A suffix of a concatenation begins within one of its parts. -/
theorem exists_part_of_cons_suffix {α β : Type*} {f : α → List β} {es : List α} {a : β}
    {rest : List β} (h : a :: rest <:+ es.flatMap f) :
    ∃ before e after pre post, es = before ++ e :: after ∧ f e = pre ++ a :: post ∧
      rest = post ++ after.flatMap f := by
  induction es with
  | nil => simp at h
  | cons e es ih =>
    have hlater : a :: rest <:+ es.flatMap f → ∃ before e' after pre post,
        e :: es = before ++ e' :: after ∧ f e' = pre ++ a :: post ∧
          rest = post ++ after.flatMap f := by
      intro h
      obtain ⟨before, e', after, pre, post, rfl, hpart, hrest⟩ := ih h
      exact ⟨e :: before, e', after, pre, post, rfl, hpart, hrest⟩
    obtain ⟨skipped, hskipped⟩ := h
    rw [List.flatMap_cons] at hskipped
    rcases List.append_eq_append_iff.mp hskipped with ⟨c, he, hc⟩ | ⟨c, -, hc⟩
    · cases c with
      | nil => exact hlater ⟨[], hc⟩
      | cons b post =>
        obtain ⟨rfl, rfl⟩ := List.cons_eq_cons.mp hc
        exact ⟨[], e, es, skipped, post, rfl, he, rfl⟩
    · exact hlater ⟨c, hc.symm⟩

variable {ε : Type*} {l : Loop ε}

/-- What is observed of the rounds begins with the message or the failure of the first one. -/
theorem flatMap_round_cons (e : ε) (es : List ε) :
    (e :: es).flatMap l.round =
      (l.attempt e).action :: (l.behind (l.attempt e) ++ es.flatMap l.round) := by
  rw [List.flatMap_cons, Loop.round, List.cons_append]

/-- What is observed after the first connection begins within a round. -/
theorem exists_round_of_cons_suffix {es : List ε} {a : Action} {rest : List Action}
    (ha : a ≠ .connect) (h : a :: rest <:+ l.trace es) :
    ∃ before e after pre post, es = before ++ e :: after ∧ l.round e = pre ++ a :: post ∧
      rest = post ++ after.flatMap l.round := by
  rcases List.suffix_cons_iff.mp h with heq | h
  · exact absurd (List.cons_eq_cons.mp heq).1 ha
  · exact exists_part_of_cons_suffix h

/-! ### A sleep behind the inner loop -/

section BehindLoop

variable (htry : l.sleepBehindTry = false)

include htry

/-- Up to the first failure it does not sleep. -/
theorem sleep_notMem_of_append (es : List ε) {mid rest : List Action}
    (h : es.flatMap l.round = mid ++ rest) (hmid : .failure ∉ mid) : .sleep ∉ mid := by
  induction es generalizing mid with
  | nil =>
    obtain ⟨rfl, -⟩ := List.append_eq_nil_iff.mp h.symm
    exact List.not_mem_nil
  | cons e es ih =>
    rcases mid with _ | ⟨a, mid⟩
    · exact List.not_mem_nil
    · obtain ⟨rfl, hrest⟩ := List.cons_eq_cons.mp ((flatMap_round_cons e es).symm.trans h)
      have hmid' : .failure ∉ mid := fun hmem => hmid (List.mem_cons_of_mem _ hmem)
      cases hflow : l.attempt e with
      | finished =>
        rw [hflow, Loop.behind, htry, pause, if_neg Bool.false_ne_true, List.nil_append] at hrest
        simpa [Flow.action] using ih hrest hmid'
      | continued =>
        rw [hflow, Loop.behind, List.nil_append] at hrest
        simpa [Flow.action] using ih hrest hmid'
      | thrown =>
        rw [hflow] at hmid
        exact absurd List.mem_cons_self hmid

/-- **A loop that sleeps behind the inner loop backs off.** -/
theorem backsOff_of_behindLoop (hloop : l.sleepBehindLoop = true) (es : List ε) :
    BacksOff (l.trace es) := by
  constructor
  · intro rest h _
    obtain ⟨before, e, after, pre, post, -, he, rfl⟩ := exists_round_of_cons_suffix (by decide) h
    obtain ⟨hflow, rfl⟩ := Loop.round_split .thrown he
    cases hattempt : l.attempt e <;> rw [hattempt] at hflow
    · cases hflow
    · cases hflow
    · simp [Loop.behind, hloop, pause]
  · intro mid rest h hmid
    obtain ⟨before, e, after, pre, post, -, he, hrest⟩ :=
      exists_round_of_cons_suffix (by decide) h
    obtain ⟨hflow, rfl⟩ := Loop.round_split .finished he
    have hbehind : l.behind (l.attempt e) = [] := by
      cases hattempt : l.attempt e <;> rw [hattempt] at hflow
      · simp [Loop.behind, htry, pause]
      · rfl
      · cases hflow
    rw [hbehind, List.nil_append] at hrest
    exact sleep_notMem_of_append htry after hrest.symm hmid

end BehindLoop

/-! ### A sleep behind the try block -/

/-- What is observed from a round on. -/
theorem round_suffix_trace (before : List ε) (e : ε) (after : List ε) :
    l.round e ++ after.flatMap l.round <:+ l.trace (before ++ e :: after) := by
  refine ⟨.connect :: before.flatMap l.round, ?_⟩
  simp [Loop.trace]

/-- While nothing throws and no round but the last one runs to its end, no sleep stands before a
message. -/
theorem sleep_notMem_of_continued {es : List ε} (hthrown : ∀ e ∈ es, l.attempt e ≠ .thrown)
    (hfinished : ∀ e ∈ es.dropLast, l.attempt e ≠ .finished) {mid rest : List Action}
    (h : es.flatMap l.round = mid ++ .message :: rest) : .sleep ∉ mid := by
  induction es generalizing mid with
  | nil => simp at h
  | cons e es ih =>
    rcases mid with _ | ⟨a, mid⟩
    · exact List.not_mem_nil
    · obtain ⟨rfl, hrest⟩ := List.cons_eq_cons.mp ((flatMap_round_cons e es).symm.trans h)
      have haction : (l.attempt e).action ≠ .sleep := by
        cases l.attempt e <;> simp [Flow.action]
      rcases es with _ | ⟨e', es⟩
      · have hmem : Action.message ∈ l.behind (l.attempt e) := by
          rw [List.flatMap_nil, List.append_nil] at hrest
          rw [hrest]
          simp
        cases hflow : l.attempt e <;> rw [hflow] at hmem <;> simp [Loop.behind] at hmem
      · have hbehind : l.behind (l.attempt e) = [] := by
          cases hflow : l.attempt e with
          | finished => exact absurd hflow (hfinished e (by simp))
          | continued => rfl
          | thrown => exact absurd hflow (hthrown e (by simp))
        rw [hbehind, List.nil_append] at hrest
        have hmid := ih (fun x hx => hthrown x (List.mem_cons_of_mem e hx))
          (fun x hx => hfinished x (by simp [hx])) hrest
        simpa [haction.symm] using hmid

/-- **A loop that sleeps behind the try block backs off** only while nothing throws, and no round
but the last one runs to its end. -/
theorem backsOff_iff_of_behindTry (htry : l.sleepBehindTry = true)
    (hloop : l.sleepBehindLoop = false) (es : List ε) :
    BacksOff (l.trace es) ↔
      (∀ e ∈ es, l.attempt e ≠ .thrown) ∧ ∀ e ∈ es.dropLast, l.attempt e ≠ .finished := by
  constructor
  · intro h
    have hthrown : ∀ e ∈ es, l.attempt e ≠ .thrown := by
      intro e he hflow
      obtain ⟨before, after, rfl⟩ := List.append_of_mem he
      have hsuffix := round_suffix_trace (l := l) before e after
      have hround : l.round e = [.failure, .connect] := by
        simp [Loop.round, Loop.behind, Flow.action, hflow, hloop, pause]
      rw [hround] at hsuffix
      have hsleeps := h.once _ hsuffix (by simp)
      simp at hsleeps
    refine ⟨hthrown, fun e he hflow => ?_⟩
    obtain ⟨before, after, e', rfl⟩ : ∃ before after e', es = before ++ e :: e' :: after := by
      obtain ⟨before, mid, hsplit⟩ := List.append_of_mem he
      have hne : es ≠ [] := by
        rintro rfl
        simp at he
      have hes := List.dropLast_append_getLast hne
      rw [hsplit, List.append_assoc, List.cons_append] at hes
      rcases mid with _ | ⟨e', mid⟩
      · exact ⟨before, [], es.getLast hne, hes.symm⟩
      · exact ⟨before, mid ++ [es.getLast hne], e', hes.symm⟩
    have hnext : (l.attempt e').action = .message := by
      have hflow' := hthrown e' (by simp)
      cases hattempt : l.attempt e' with
      | finished => rfl
      | continued => rfl
      | thrown => exact absurd hattempt hflow'
    have hsuffix := round_suffix_trace (l := l) before e (e' :: after)
    have hround : l.round e = [.message, .sleep] := by
      simp [Loop.round, Loop.behind, Flow.action, hflow, htry, pause]
    rw [hround, List.flatMap_cons, Loop.round, hnext] at hsuffix
    exact h.never [.sleep] _ hsuffix (by simp) List.mem_cons_self
  · rintro ⟨hthrown, hfinished⟩
    constructor
    · intro rest h _
      obtain ⟨before, e, after, pre, post, rfl, he, -⟩ :=
        exists_round_of_cons_suffix (by decide) h
      obtain ⟨hflow, -⟩ := Loop.round_split .thrown he
      cases hattempt : l.attempt e with
      | finished => rw [hattempt] at hflow; cases hflow
      | continued => rw [hattempt] at hflow; cases hflow
      | thrown => exact absurd hattempt (hthrown e (by simp))
    · intro mid rest h _
      rcases List.suffix_cons_iff.mp h with heq | ⟨skipped, hskipped⟩
      · cases heq
      have hsplit : es.flatMap l.round = (skipped ++ .message :: mid) ++ .message :: rest := by
        rw [← hskipped]
        simp
      have hnone := sleep_notMem_of_continued hthrown hfinished hsplit
      exact fun hmem => hnone (by simp [hmem])

end ReceiveLoop
