import UmTaker.General.Run
import UmTaker.Trader.OrderLimiter

/-!
# The normal order path

Without the best path, `scan_and_send_order` asks two counters of their own, one for the minute and
then one for the seconds, and places the order when both grant it. Each has a lock of its own, and
resets independently. An `AutoResetOrderLimiter` asks the same two windows at once.

## Main definitions

* `NormalPath`: the two counters, with the ledger of the minute and the decisions taken
* `NormalPath.askMinute`, `NormalPath.askSecond`: the two asks of an attempt
* `normalStep`, `limiterStep`: an attempt or a reset, on the normal path and at a limiter
* `askStep`: an ask or a reset, with scans that are between their two asks

## Main results

* `NormalPath.attempt_cases`: what an attempt can do
* `NormalPath.minute_balanced`: the tokens consumed are those missing from the minute counter
* `normalPath_conserves_iff`: the normal path consumes no more than it places, and decides as a
  limiter does, exactly when no attempt finds a minute token without finding a second token
* `asks_accounted`: where every minute token went, with asks and resets in any order
-/

namespace UmTaker.Trader

/-! ## The two counters -/

/-- The counters of the normal path. The ledger counts the minute tokens consumed and the orders
placed since the minute counter was last reset; the decisions are those of all attempts. -/
structure NormalPath where
  second : AutoResetCounter
  minute : AutoResetCounter
  minuteConsumed : ℕ
  ordersPlaced : ℕ
  decisions : List Bool
  deriving DecidableEq

/-- What happens to the counters. -/
inductive OrderEvent
  | attempt
  | resetSecond (now : ℕ)
  | resetMinute (now : ℕ)

namespace NormalPath

/-- The counters before the first attempt. -/
def init (second minute : AutoResetCounter) : NormalPath where
  second := second
  minute := minute
  minuteConsumed := 0
  ordersPlaced := 0
  decisions := []

/-- The first ask, behind the lock of the minute counter. An order that is refused goes no
further. -/
def askMinute (s : NormalPath) : NormalPath × Bool :=
  let (hasMinute, minute) := s.minute.getSemaphore 1
  if !hasMinute then
    ({ s with minute := minute, decisions := s.decisions ++ [false] }, false)
  else
    ({ s with minute := minute, minuteConsumed := s.minuteConsumed + 1 }, true)

/-- The second ask, behind the lock of the second counter. -/
def askSecond (s : NormalPath) : NormalPath × Bool :=
  let (hasSecond, second) := s.second.getSemaphore 1
  if !hasSecond then
    ({ s with second := second, decisions := s.decisions ++ [false] }, false)
  else
    ({ s with
        second := second
        ordersPlaced := s.ordersPlaced + 1
        decisions := s.decisions ++ [true] }, true)

/-- An order that passed the settings and its symbol's interval: the minute counter is asked first,
and the second counter only when the minute counter grants. -/
def attempt (s : NormalPath) : NormalPath :=
  let (s, hasMinute) := s.askMinute
  if hasMinute then s.askSecond.1 else s

/-- The refresh of the minute counter; the ledger starts again with it. -/
def resetMinute (s : NormalPath) (now : ℕ) : NormalPath :=
  { s with
    minute := s.minute.resetIfCycleEnd now
    minuteConsumed := if s.minute.cycleEnded now then 0 else s.minuteConsumed
    ordersPlaced := if s.minute.cycleEnded now then 0 else s.ordersPlaced }

/-- What the first ask can do. -/
theorem askMinute_cases (s : NormalPath) :
    (¬ 1 ≤ s.minute.remainCount ∧
      s.askMinute = ({ s with decisions := s.decisions ++ [false] }, false)) ∨
    (1 ≤ s.minute.remainCount ∧ s.askMinute =
      ({ s with minute := s.minute.take 1, minuteConsumed := s.minuteConsumed + 1 }, true)) := by
  by_cases hminute : 1 ≤ s.minute.remainCount
  · exact Or.inr ⟨hminute, by simp [askMinute, AutoResetCounter.getSemaphore, hminute]⟩
  · exact Or.inl ⟨hminute, by simp [askMinute, AutoResetCounter.getSemaphore, hminute]⟩

/-- What the second ask can do. -/
theorem askSecond_cases (s : NormalPath) :
    (¬ 1 ≤ s.second.remainCount ∧
      s.askSecond = ({ s with decisions := s.decisions ++ [false] }, false)) ∨
    (1 ≤ s.second.remainCount ∧ s.askSecond =
      ({ s with
          second := s.second.take 1
          ordersPlaced := s.ordersPlaced + 1
          decisions := s.decisions ++ [true] }, true)) := by
  by_cases hsecond : 1 ≤ s.second.remainCount
  · exact Or.inr ⟨hsecond, by simp [askSecond, AutoResetCounter.getSemaphore, hsecond]⟩
  · exact Or.inl ⟨hsecond, by simp [askSecond, AutoResetCounter.getSemaphore, hsecond]⟩

/-- What an attempt can do: the minute counter refuses; it grants and the second counter refuses,
with the minute token gone; or both grant. -/
theorem attempt_cases (s : NormalPath) :
    (¬ 1 ≤ s.minute.remainCount ∧ s.attempt = { s with decisions := s.decisions ++ [false] }) ∨
    (1 ≤ s.minute.remainCount ∧ ¬ 1 ≤ s.second.remainCount ∧ s.attempt =
      { s with
        minute := s.minute.take 1
        minuteConsumed := s.minuteConsumed + 1
        decisions := s.decisions ++ [false] }) ∨
    (1 ≤ s.minute.remainCount ∧ 1 ≤ s.second.remainCount ∧ s.attempt =
      { second := s.second.take 1
        minute := s.minute.take 1
        minuteConsumed := s.minuteConsumed + 1
        ordersPlaced := s.ordersPlaced + 1
        decisions := s.decisions ++ [true] }) := by
  unfold attempt
  rcases s.askMinute_cases with ⟨hminute, hask⟩ | ⟨hminute, hask⟩
  · exact Or.inl ⟨hminute, by simp [hask]⟩
  · rw [hask]
    rcases askSecond_cases { s with
        minute := s.minute.take 1
        minuteConsumed := s.minuteConsumed + 1 } with ⟨hsecond, hask'⟩ | ⟨hsecond, hask'⟩
    · exact Or.inr (Or.inl ⟨hminute, hsecond, by simp [hask']⟩)
    · exact Or.inr (Or.inr ⟨hminute, hsecond, by simp [hask']⟩)

end NormalPath

/-- One event on the normal path. -/
def normalStep (s : NormalPath) : OrderEvent → NormalPath
  | .attempt => s.attempt
  | .resetSecond now => { s with second := s.second.resetIfCycleEnd now }
  | .resetMinute now => s.resetMinute now

/-- One event keeps the minute counter and its ledger balanced. -/
theorem NormalPath.minute_balanced_step (s : NormalPath) (e : OrderEvent)
    (h : s.minute.Balanced (s.minuteConsumed : ℤ)) :
    (normalStep s e).minute.Balanced ((normalStep s e).minuteConsumed : ℤ) := by
  cases e with
  | attempt =>
    rcases s.attempt_cases with ⟨-, he⟩ | ⟨hyes, -, he⟩ | ⟨hyes, -, he⟩
    · simpa only [normalStep, he] using h
    · simp only [normalStep, he]
      exact_mod_cast h.take hyes
    · simp only [normalStep, he]
      exact_mod_cast h.take hyes
  | resetSecond now => exact h
  | resetMinute now => exact SemaphoreWindow.resetIfCycleEnd_balanced h now

/-- The ledger of a run: the minute tokens consumed are those missing from the counter. -/
theorem NormalPath.minute_balanced {count : ℤ} (hcount : 0 ≤ count) (second : AutoResetCounter)
    (resetDurationMillis now : ℕ) (es : List OrderEvent) :
    let s := Run.after normalStep (.init second (.init count resetDurationMillis now)) es
    s.minute.Balanced (s.minuteConsumed : ℤ) :=
  Run.after_invariant (P := fun s : NormalPath => s.minute.Balanced (s.minuteConsumed : ℤ))
    (Quota.balanced_full hcount) NormalPath.minute_balanced_step es

/-! ## The limiter over the same events -/

/-- A limiter, with the decisions it took. -/
structure LimiterRun where
  limiter : AutoResetOrderLimiter
  decisions : List Bool

/-- One event at a limiter. A reset of both windows at one time is its `reset_if_cycle_end`. -/
def limiterStep (s : LimiterRun) : OrderEvent → LimiterRun
  | .attempt =>
    let (granted, limiter) := s.limiter.getOrderSemaphore 1
    ⟨limiter, s.decisions ++ [granted]⟩
  | .resetSecond now =>
    { s with limiter := { s.limiter with second := s.limiter.second.resetIfCycleEnd now } }
  | .resetMinute now =>
    { s with limiter := { s.limiter with minute := s.limiter.minute.resetIfCycleEnd now } }

theorem limiterStep_resets (s : LimiterRun) (now : ℕ) :
    limiterStep (limiterStep s (.resetSecond now)) (.resetMinute now) =
      { s with limiter := s.limiter.resetIfCycleEnd now } := rfl

/-! ## When the two agree -/

/-- The path and the limiter have the same windows and took the same decisions, and the path
consumed one minute token for each order it placed. -/
structure Agrees (s : NormalPath) (t : LimiterRun) : Prop where
  second : s.second = t.limiter.second
  minute : s.minute = t.limiter.minute
  decisions : s.decisions = t.decisions
  consumed : s.minuteConsumed = s.ordersPlaced

/-- An attempt that finds a minute token finds a second token as well. -/
def TokensPaired (s : NormalPath) (e : OrderEvent) : Prop :=
  e = .attempt → 1 ≤ s.minute.remainCount → 1 ≤ s.second.remainCount

/-- **One event** keeps the agreement, when an attempt finds its tokens paired. -/
theorem Agrees.step {s : NormalPath} {t : LimiterRun} {e : OrderEvent} (h : Agrees s t)
    (hpaired : TokensPaired s e) : Agrees (normalStep s e) (limiterStep t e) := by
  obtain ⟨hsecond, hminute, hdecisions, hconsumed⟩ := h
  cases e with
  | attempt =>
    rcases s.attempt_cases with ⟨hno, he⟩ | ⟨hyes, hno, -⟩ | ⟨hyes, hyes', he⟩
    · have hlimiter : ¬ (1 ≤ t.limiter.second.remainCount ∧ 1 ≤ t.limiter.minute.remainCount) := by
        rw [← hminute]
        exact fun hboth => hno hboth.2
      simp only [normalStep, he, limiterStep, AutoResetOrderLimiter.getOrderSemaphore,
        if_neg hlimiter]
      exact ⟨hsecond, hminute, by rw [hdecisions], hconsumed⟩
    · exact absurd (hpaired rfl hyes) hno
    · have hlimiter : 1 ≤ t.limiter.second.remainCount ∧ 1 ≤ t.limiter.minute.remainCount := by
        rw [← hminute, ← hsecond]
        exact ⟨hyes', hyes⟩
      simp only [normalStep, he, limiterStep, AutoResetOrderLimiter.getOrderSemaphore,
        if_pos hlimiter]
      exact ⟨by rw [hsecond], by rw [hminute], by rw [hdecisions], by rw [hconsumed]⟩
  | resetSecond now =>
    simp only [normalStep, limiterStep]
    exact ⟨by rw [hsecond], hminute, hdecisions, hconsumed⟩
  | resetMinute now =>
    simp only [normalStep, NormalPath.resetMinute, limiterStep]
    exact ⟨hsecond, by rw [hminute], hdecisions, by rw [hconsumed]⟩

/-- **When the normal path consumes what it places.** Over every run of attempts and resets: at each
of its points the minute tokens consumed are the orders placed, and the decisions are those of a
limiter with the same windows, exactly when each attempt of the run that finds a minute token finds
a second token as well. -/
theorem normalPath_conserves_iff (second minute : AutoResetCounter) (es : List OrderEvent) :
    (∀ es', es' <+: es →
      (Run.after normalStep (.init second minute) es').minuteConsumed =
          (Run.after normalStep (.init second minute) es').ordersPlaced ∧
        (Run.after normalStep (.init second minute) es').decisions =
          (Run.after limiterStep ⟨⟨second, minute⟩, []⟩ es').decisions) ↔
      Run.Every normalStep (.init second minute) TokensPaired es := by
  constructor
  · rintro h before e hbefore rfl hminute
    by_contra hsecond
    -- the token this attempt burns is one that no order was placed for
    have hthen := (h before ((List.prefix_append before [.attempt]).trans hbefore)).1
    have hafter := (h (before ++ [.attempt]) hbefore).1
    rw [Run.after_snoc] at hafter
    rcases (Run.after normalStep (.init second minute) before).attempt_cases with
      ⟨hno, -⟩ | ⟨-, -, he⟩ | ⟨-, hyes, -⟩
    · exact hno hminute
    · simp only [normalStep, he] at hafter
      omega
    · exact hsecond hyes
  · intro h es' hprefix
    have hstart : Agrees (.init second minute) ⟨⟨second, minute⟩, []⟩ := ⟨rfl, rfl, rfl, rfl⟩
    have hstep : ∀ s t e, Agrees s t → TokensPaired s e →
        Agrees (normalStep s e) (limiterStep t e) :=
      fun _ _ _ hagrees hpaired => hagrees.step hpaired
    have hagrees := Run.after_related hstart hstep (h.of_prefix hprefix)
    exact ⟨hagrees.consumed, hagrees.decisions⟩

/-- One order a second and two a minute: the second attempt is refused and burns a minute token, so
that the third one is refused where a limiter grants it. -/
theorem normalPath_burns_token :
    ¬ ∀ es', es' <+: [.attempt, .attempt, .resetSecond 10000, .attempt] →
      (Run.after normalStep (.init (.init 1 10000 0) (.init 2 60000 0)) es').minuteConsumed =
          (Run.after normalStep (.init (.init 1 10000 0) (.init 2 60000 0)) es').ordersPlaced ∧
        (Run.after normalStep (.init (.init 1 10000 0) (.init 2 60000 0)) es').decisions =
          (Run.after limiterStep ⟨⟨.init 1 10000 0, .init 2 60000 0⟩, []⟩ es').decisions := by
  intro h
  have hconsumed := (h _ List.prefix_rfl).1
  revert hconsumed
  decide

/-! ## Asks apart -/

/-- The counters with scans between their two asks: how many there are, how many of them were there
at the last reset of the minute counter, and how many asked in vain for their second token since. -/
structure AskPath where
  path : NormalPath
  waiting : ℕ := 0
  carried : ℕ := 0
  refused : ℕ := 0

/-- What happens to the counters when a scan can be overtaken between its asks. -/
inductive AskEvent
  | askMinute
  | askSecond
  | resetSecond (now : ℕ)
  | resetMinute (now : ℕ)

/-- One event; the second ask is one of a scan that waits. -/
def askStep (s : AskPath) : AskEvent → AskPath
  | .askMinute =>
    let (path, granted) := s.path.askMinute
    { s with path := path, waiting := if granted then s.waiting + 1 else s.waiting }
  | .askSecond =>
    if s.waiting = 0 then s
    else
      let (path, granted) := s.path.askSecond
      { s with
        path := path
        waiting := s.waiting - 1
        refused := if granted then s.refused else s.refused + 1 }
  | .resetSecond now =>
    { s with path := { s.path with second := s.path.second.resetIfCycleEnd now } }
  | .resetMinute now =>
    { s with
      path := s.path.resetMinute now
      carried := if s.path.minute.cycleEnded now then s.waiting else s.carried
      refused := if s.path.minute.cycleEnded now then 0 else s.refused }

/-- The asks of an event. -/
def OrderEvent.asks : OrderEvent → List AskEvent
  | .attempt => [.askMinute, .askSecond]
  | .resetSecond now => [.resetSecond now]
  | .resetMinute now => [.resetMinute now]

/-- An event of the normal path is its asks, when no scan waits before it; and none waits after. -/
theorem after_asks {s : AskPath} (h : s.waiting = 0) (e : OrderEvent) :
    (Run.after askStep s e.asks).path = normalStep s.path e ∧
      (Run.after askStep s e.asks).waiting = 0 := by
  cases e with
  | attempt =>
    show (askStep (askStep s .askMinute) .askSecond).path = s.path.attempt ∧
      (askStep (askStep s .askMinute) .askSecond).waiting = 0
    unfold NormalPath.attempt
    rcases s.path.askMinute_cases with ⟨-, hask⟩ | ⟨-, hask⟩
    · simp [askStep, hask, h]
    · simp [askStep, hask, h]
  | resetSecond now => exact ⟨rfl, h⟩
  | resetMinute now => exact ⟨rfl, h⟩

/-- **A run of attempts is a run of asks**, in which no scan is overtaken. -/
theorem after_flatMap_asks (second minute : AutoResetCounter) (es : List OrderEvent) :
    (Run.after askStep { path := .init second minute } (es.flatMap OrderEvent.asks)).path =
      Run.after normalStep (.init second minute) es := by
  suffices H : (Run.after askStep { path := .init second minute }
      (es.flatMap OrderEvent.asks)).path = Run.after normalStep (.init second minute) es ∧
      (Run.after askStep { path := .init second minute }
        (es.flatMap OrderEvent.asks)).waiting = 0 from H.1
  induction es using List.reverseRecOn with
  | nil => exact ⟨rfl, rfl⟩
  | append_singleton es e ih =>
    obtain ⟨hpath, hwaiting⟩ := ih
    obtain ⟨hpath', hwaiting'⟩ := after_asks hwaiting e
    rw [Run.after_snoc, ← hpath, List.flatMap_append, Run.after_append]
    simpa using ⟨hpath', hwaiting'⟩

/-- The minute tokens consumed and those carried over a reset went into orders, were refused their
second token, or are in a scan's hands. -/
def AskPath.Accounted (s : AskPath) : Prop :=
  s.path.minuteConsumed + s.carried = s.path.ordersPlaced + s.refused + s.waiting

/-- **Where every minute token went.** With asks and resets in any order, the tokens consumed since
the last reset of the minute counter, and those that scans held over it, are the orders placed
since, those refused their second token, and those of the scans between their asks. -/
theorem asks_accounted (second minute : AutoResetCounter) (es : List AskEvent) :
    (Run.after askStep { path := .init second minute } es).Accounted := by
  have hstart : AskPath.Accounted { path := .init second minute } := rfl
  refine Run.after_invariant hstart (fun s e h => ?_) es
  unfold AskPath.Accounted at h ⊢
  cases e with
  | askMinute =>
    rcases s.path.askMinute_cases with ⟨-, hask⟩ | ⟨-, hask⟩
    · simp only [askStep, hask]
      exact h
    · simp only [askStep, hask, if_true]
      omega
  | askSecond =>
    unfold askStep
    split_ifs with hnone
    · exact h
    · rcases s.path.askSecond_cases with ⟨-, hask⟩ | ⟨-, hask⟩
      · simp only [hask, Bool.false_eq_true, if_false]
        omega
      · simp only [hask, if_true]
        omega
  | resetSecond now => exact h
  | resetMinute now =>
    simp only [askStep, NormalPath.resetMinute]
    split_ifs
    · omega
    · exact h

end UmTaker.Trader
