import UmTaker.Concurrency.Program

/-!
# Programs run alone

A program that runs alone receives its answers one after another. Its transcript lists the
operations it performs with the answers it was given, in order, and its result comes with it. On a
state that answers it, it leads to a state.

## Main definitions

* `Prog.Exchange`: an operation with its answer
* `Prog.transcript`: the exchanges of a program and its result
* `Prog.alone`: the state a program leads to, and its result

## Main results

* `Prog.transcript_call_bind`, `Prog.transcript_bind`: the transcript of a sequence
-/

namespace Concurrency.Prog

variable {Op : Type} {Ans : Op → Type} {α β : Type}

/-- An operation with its answer. -/
abbrev Exchange (Op : Type) (Ans : Op → Type) : Type := (o : Op) × Ans o

/-- The exchanges of a program and its result, when the answer to the operation number `i` is
`answer i`, counted from `n`. -/
def transcript (answer : ℕ → (o : Op) → Ans o) : ℕ → Prog Op Ans α → List (Exchange Op Ans) × α
  | _, .ret a => ([], a)
  | n, .perform o k =>
    let rest := transcript answer (n + 1) (k (answer n o))
    (⟨o, answer n o⟩ :: rest.1, rest.2)

variable (answer : ℕ → (o : Op) → Ans o) (n : ℕ)

@[simp] theorem transcript_ret (a : α) :
    transcript answer n (.ret a : Prog Op Ans α) = ([], a) := rfl

@[simp] theorem transcript_call_bind (o : Op) (f : Ans o → Prog Op Ans α) :
    transcript answer n (call o >>= f) =
      (⟨o, answer n o⟩ :: (transcript answer (n + 1) (f (answer n o))).1,
        (transcript answer (n + 1) (f (answer n o))).2) := rfl

/-- **The transcript of a sequence**: the second program is answered after the first. -/
theorem transcript_bind (p : Prog Op Ans α) (f : α → Prog Op Ans β) :
    transcript answer n (p >>= f) =
      ((transcript answer n p).1 ++
          (transcript answer (n + (transcript answer n p).1.length)
            (f (transcript answer n p).2)).1,
        (transcript answer (n + (transcript answer n p).1.length)
          (f (transcript answer n p).2)).2) := by
  induction p generalizing n with
  | ret a => rfl
  | perform o k ih =>
    rw [perform_bind]
    simp only [transcript, List.length_cons, List.cons_append]
    rw [ih (answer n o) (n + 1), Nat.add_right_comm n 1, Nat.add_assoc]

/-! ## On a state -/

variable {σ : Type}

/-- The state a program leads to when no other thread steps, with its result, if no operation
blocks. -/
def alone (exec : (o : Op) → σ → Option (σ × Ans o)) : Prog Op Ans α → σ → Option (σ × α)
  | .ret a, s => some (s, a)
  | .perform o k, s => (exec o s).bind fun r => alone exec (k r.2) r.1

variable {exec : (o : Op) → σ → Option (σ × Ans o)} {s s' : σ}

@[simp] theorem alone_ret (a : α) :
    alone exec (.ret a : Prog Op Ans α) s = some (s, a) := rfl

/-- An operation that is answered, and the rest after it. -/
theorem alone_perform {o : Op} {a : Ans o} (h : exec o s = some (s', a))
    (k : Ans o → Prog Op Ans α) : alone exec (.perform o k) s = alone exec (k a) s' := by
  show (exec o s).bind _ = _
  rw [h]
  rfl

end Concurrency.Prog
