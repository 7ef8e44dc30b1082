import UmTaker.General.ProducerQueue
import UmTaker.General.Run
import Mathlib.Data.Int.Notation

/-!
# The publisher of order statistics

A thread takes the records of filled orders from a channel, into which several threads put them, and
sends each through a zmq socket. An exception takes it back to the bind of the same socket, after a
wait of five seconds.

## Main definitions

* `StatOrderLite`, `StatOrderMessage`: a record, and the message made of it
* `PublisherState`, `publisherStep`: the thread and its channel, one turn after the other
* `RebindFails`: what is relied on of libzmq
* `LosesNothing`: what was dequeued was sent or is in hand, and a failed send is recovered from

## Main results

* `losesNothing_iff`: the publisher loses nothing exactly while no send fails
* `Stuck.sent_after`: after a failed send nothing is sent any more
-/

namespace UmTaker.Actuary

/-! ## Records and messages -/

/-- A record of the channel, with the numbers as texts. -/
structure StatOrderLite where
  accountFlag : String
  symbol : String
  orderSide : String
  clientOrderId : String
  averagePrice : String
  filledSize : String
  commissionRate : String
  systemTimestamp : ℕ
  deriving DecidableEq

/-- The members of the JSON text that is sent. -/
structure StatOrderMessage where
  accountFlag : String
  symbol : String
  orderSide : String
  clientOrderId : String
  averagePrice : String
  filledSize : String
  systemTimestamp : ℕ
  commissionRate : String
  messageTimestampMills : ℕ

/-- The message of a record. -/
def StatOrderLite.message (orderLite : StatOrderLite) (now : ℕ) : StatOrderMessage where
  accountFlag := orderLite.accountFlag
  symbol := orderLite.symbol
  orderSide := orderLite.orderSide
  clientOrderId := orderLite.clientOrderId
  averagePrice := orderLite.averagePrice
  filledSize := orderLite.filledSize
  systemTimestamp := orderLite.systemTimestamp
  commissionRate := orderLite.commissionRate
  messageTimestampMills := now

/-- The record of a message. -/
def StatOrderMessage.record (message : StatOrderMessage) : StatOrderLite where
  accountFlag := message.accountFlag
  symbol := message.symbol
  orderSide := message.orderSide
  clientOrderId := message.clientOrderId
  averagePrice := message.averagePrice
  filledSize := message.filledSize
  commissionRate := message.commissionRate
  systemTimestamp := message.systemTimestamp

/-! ## The thread -/

/-- Where the thread is. -/
inductive PublisherStage
  | binding
  | receiving
  | sending (orderLite : StatOrderLite)
  | waiting

/-- Another thread tries to enqueue a record, or the publisher takes a turn: with the value that
libzmq returns, if the turn calls it, and a clock reading. -/
inductive PublisherEvent (P : Type)
  | enqueue (producer : P) (orderLite : StatOrderLite)
  | turn (ret : ℤ) (now : ℕ)

section Publisher

variable {P : Type} [DecidableEq P]

/-- The thread, whether its socket is bound, the channel, and the records that entered it, those
dequeued and the messages sent so far. -/
structure PublisherState (queue : ProducerQueue P StatOrderLite) where
  stage : PublisherStage := .binding
  bound : Bool := false
  channel : queue.Q
  enqueued : List (P × StatOrderLite) := []
  dequeued : List StatOrderLite := []
  sent : List StatOrderMessage := []

variable {queue : ProducerQueue P StatOrderLite}

/-- `stat_zmq_server_listen`, one turn. -/
def PublisherState.turn (ret : ℤ) (now : ℕ) (s : PublisherState queue) : PublisherState queue :=
  match s.stage with
  | .binding =>
    if ret ≠ 0 then { s with stage := .waiting }
    else { s with stage := .receiving, bound := true }
  | .receiving =>
    let (found, channel) := queue.tryDequeue s.channel
    match found with
    | none => { s with channel := channel }
    | some orderLite =>
      { s with
        stage := .sending orderLite
        channel := channel
        dequeued := s.dequeued ++ [orderLite] }
  | .sending orderLite =>
    -- `Send`; the record is a variable of the inner loop, which an exception leaves
    if ret = -1 then { s with stage := .waiting }
    else { s with stage := .receiving, sent := s.sent ++ [orderLite.message now] }
  | .waiting => { s with stage := .binding }

/-- One event. -/
def publisherStep (s : PublisherState queue) : PublisherEvent P → PublisherState queue
  | .enqueue producer orderLite =>
    let (accepted, channel) := queue.tryEnqueue producer orderLite s.channel
    { s with
      channel := channel
      -- a record that is refused is logged by its producer
      enqueued := if accepted then s.enqueued ++ [(producer, orderLite)] else s.enqueued }
  | .turn ret now => s.turn ret now

/-- What is relied on of libzmq: a socket that is bound to the endpoint is not bound to it again. -/
def RebindFails (s : PublisherState queue) : PublisherEvent P → Prop
  | .enqueue _ _ => True
  | .turn ret _ => match s.stage with
    | .binding => s.bound = true → ret ≠ 0
    | _ => True

/-- The event is a send that does not fail, or no send. -/
def SendSucceeds (s : PublisherState queue) : PublisherEvent P → Prop
  | .enqueue _ _ => True
  | .turn ret _ => match s.stage with
    | .sending _ => ret ≠ -1
    | _ => True

/-- The record that was dequeued and waits for its send. -/
def PublisherState.inHand (s : PublisherState queue) : List StatOrderLite :=
  match s.stage with
  | .sending orderLite => [orderLite]
  | _ => []

/-- The records sent are those dequeued, in their order, up to the one in hand. -/
def PublisherState.AllSent (s : PublisherState queue) : Prop :=
  s.sent.map (·.record) ++ s.inHand = s.dequeued

/-- Some continuation without failing sends sends another message. -/
def PublisherState.CanSend (s : PublisherState queue) : Prop :=
  ∃ es, Run.Every publisherStep s RebindFails es ∧ Run.Every publisherStep s SendSucceeds es ∧
    (Run.after publisherStep s es).sent ≠ s.sent

/-- After the run, the records of each producer were dequeued in the order in which they entered the
channel, all dequeued were sent in their order or are in hand, and if a send has failed, the
publisher can send again. -/
structure LosesNothing (s : PublisherState queue) (es : List (PublisherEvent P)) : Prop where
  inOrder : queue.Delivers s.channel (Run.after publisherStep s es).enqueued
    (Run.after publisherStep s es).dequeued (Run.after publisherStep s es).channel
  allSent : (Run.after publisherStep s es).AllSent
  recovers : ¬ Run.Every publisherStep s SendSucceeds es →
    (Run.after publisherStep s es).CanSend

/-! ## Before and after the first failure -/

/-- The thread as long as no send has failed. -/
structure Running (s : PublisherState queue) : Prop where
  allSent : s.AllSent
  bound : ∀ orderLite, s.stage = .sending orderLite ∨ s.stage = .receiving → s.bound = true

/-- The thread once a send has failed: its socket is bound, it tries to bind it, and a record that
it dequeued is neither sent nor in hand. -/
structure Stuck (s : PublisherState queue) : Prop where
  bound : s.bound = true
  stage : s.stage = .waiting ∨ s.stage = .binding
  lost : s.sent.length < s.dequeued.length

theorem Stuck.not_allSent {s : PublisherState queue} (h : Stuck s) : ¬ s.AllSent := by
  intro hall
  have hhand : s.inHand = [] := by
    unfold PublisherState.inHand
    rcases h.stage with hstage | hstage <;> rw [hstage]
  have hlength := congrArg List.length hall
  rw [hhand, List.append_nil, List.length_map] at hlength
  have hlost := h.lost
  omega

section Steps

variable {s : PublisherState queue}

theorem turn_binding (hstage : s.stage = .binding) (ret : ℤ) (now : ℕ) :
    s.turn ret now = if ret ≠ 0 then { s with stage := .waiting }
      else { s with stage := .receiving, bound := true } := by
  rw [PublisherState.turn, hstage]

theorem turn_receiving (hstage : s.stage = .receiving) (ret : ℤ) (now : ℕ) :
    s.turn ret now = (queue.tryDequeue s.channel).1.elim
      { s with channel := (queue.tryDequeue s.channel).2 } fun orderLite =>
        { s with
          stage := .sending orderLite
          channel := (queue.tryDequeue s.channel).2
          dequeued := s.dequeued ++ [orderLite] } := by
  rw [PublisherState.turn, hstage]
  dsimp only
  split <;> rename_i hfound <;> rw [hfound] <;> rfl

theorem turn_sending {orderLite : StatOrderLite} (hstage : s.stage = .sending orderLite) (ret : ℤ)
    (now : ℕ) : s.turn ret now = if ret = -1 then { s with stage := .waiting }
      else { s with stage := .receiving, sent := s.sent ++ [orderLite.message now] } := by
  rw [PublisherState.turn, hstage]

theorem turn_waiting (hstage : s.stage = .waiting) (ret : ℤ) (now : ℕ) :
    s.turn ret now = { s with stage := .binding } := by
  rw [PublisherState.turn, hstage]

theorem sendSucceeds_sending {orderLite : StatOrderLite} (hstage : s.stage = .sending orderLite)
    (ret : ℤ) (now : ℕ) : SendSucceeds s (.turn ret now) ↔ ret ≠ -1 := by
  simp only [SendSucceeds, hstage]

theorem allSent_sending {orderLite : StatOrderLite} (hstage : s.stage = .sending orderLite) :
    s.AllSent ↔ s.sent.map (·.record) ++ [orderLite] = s.dequeued := by
  rw [PublisherState.AllSent, PublisherState.inHand, hstage]

/-- At no other stage a send can fail, and nothing is in hand. -/
theorem other_stage (hstage : ∀ orderLite, s.stage ≠ .sending orderLite) (ret : ℤ) (now : ℕ) :
    SendSucceeds s (.turn ret now) ∧ (s.AllSent ↔ s.sent.map (·.record) = s.dequeued) := by
  unfold SendSucceeds PublisherState.AllSent PublisherState.inHand
  cases hs : s.stage with
  | sending orderLite => exact absurd hs (hstage orderLite)
  | binding => simp
  | receiving => simp
  | waiting => simp

/-- A turn that is not a send keeps a running thread running. -/
theorem Running.turn (h : Running s) (hstage : ∀ orderLite, s.stage ≠ .sending orderLite)
    (ret : ℤ) (now : ℕ) : Running (s.turn ret now) := by
  have hall := (other_stage hstage ret now).2.mp h.allSent
  cases hs : s.stage with
  | sending orderLite => exact absurd hs (hstage orderLite)
  | binding =>
    rw [turn_binding hs]
    split_ifs
    · exact ⟨(other_stage (by simp) ret now).2.mpr hall, by simp⟩
    · exact ⟨(other_stage (by simp) ret now).2.mpr hall, fun _ _ => rfl⟩
  | receiving =>
    rw [turn_receiving hs]
    cases (queue.tryDequeue s.channel).1 with
    | none => exact ⟨(other_stage (by simp [hs]) ret now).2.mpr hall, h.bound⟩
    | some orderLite =>
      refine ⟨(allSent_sending rfl).mpr (congrArg (· ++ [orderLite]) hall), fun _ _ => ?_⟩
      exact h.bound orderLite (Or.inr hs)
  | waiting =>
    rw [turn_waiting hs]
    exact ⟨(other_stage (by simp) ret now).2.mpr hall, by simp⟩

/-- **A step of a running thread** keeps it running, unless it is a send that fails. -/
theorem Running.step (h : Running s) (e : PublisherEvent P) :
    (SendSucceeds s e → Running (publisherStep s e)) ∧
      (¬ SendSucceeds s e → Stuck (publisherStep s e)) := by
  cases e with
  | enqueue producer orderLite =>
    exact ⟨fun _ => ⟨h.allSent, h.bound⟩, fun hnot => absurd trivial hnot⟩
  | turn ret now =>
    show (_ → Running (s.turn ret now)) ∧ (_ → Stuck (s.turn ret now))
    by_cases hstage : ∃ orderLite, s.stage = .sending orderLite
    · obtain ⟨orderLite, hs⟩ := hstage
      have hall := (allSent_sending hs).mp h.allSent
      have hbound := h.bound orderLite (Or.inl hs)
      rw [sendSucceeds_sending hs, turn_sending hs]
      constructor
      · intro hret
        rw [if_neg hret]
        refine ⟨(other_stage (by simp) ret now).2.mpr ?_, fun _ _ => hbound⟩
        rw [← hall, List.map_append]
        rfl
      · intro hret
        rw [if_pos (not_not.mp hret)]
        refine ⟨hbound, Or.inl rfl, ?_⟩
        show s.sent.length < s.dequeued.length
        rw [← hall]
        simp
    · have hstage : ∀ orderLite, s.stage ≠ .sending orderLite := not_exists.mp hstage
      exact ⟨fun _ => h.turn hstage ret now,
        fun hnot => absurd (other_stage hstage ret now).1 hnot⟩

/-- Once stuck the thread stays stuck, and sends nothing. -/
theorem Stuck.step (h : Stuck s) {e : PublisherEvent P} (he : RebindFails s e) :
    Stuck (publisherStep s e) ∧ (publisherStep s e).sent = s.sent := by
  cases e with
  | enqueue producer orderLite => exact ⟨⟨h.bound, h.stage, h.lost⟩, rfl⟩
  | turn ret now =>
    show Stuck (s.turn ret now) ∧ (s.turn ret now).sent = s.sent
    rcases h.stage with hstage | hstage
    · rw [turn_waiting hstage]
      exact ⟨⟨h.bound, Or.inr rfl, h.lost⟩, rfl⟩
    · have hret : ret ≠ 0 := by
        simp only [RebindFails, hstage] at he
        exact he h.bound
      rw [turn_binding hstage, if_pos hret]
      exact ⟨⟨h.bound, Or.inl rfl, h.lost⟩, rfl⟩

/-- **Once stuck** the publisher never sends again. -/
theorem Stuck.sent_after (h : Stuck s) {es : List (PublisherEvent P)}
    (hes : Run.Every publisherStep s RebindFails es) :
    Stuck (Run.after publisherStep s es) ∧ (Run.after publisherStep s es).sent = s.sent := by
  apply hes.after_invariant (P := fun s' => Stuck s' ∧ s'.sent = s.sent) ⟨h, rfl⟩
  rintro s' e ⟨hstuck, hsent⟩ he
  obtain ⟨hstuck', hsent'⟩ := hstuck.step he
  exact ⟨hstuck', hsent'.trans hsent⟩

/-- **A run** from a running thread leaves it running if no send fails, and stuck if one does. -/
theorem running_or_stuck (h : Running s) {es : List (PublisherEvent P)}
    (hes : Run.Every publisherStep s RebindFails es) :
    (Run.Every publisherStep s SendSucceeds es → Running (Run.after publisherStep s es)) ∧
      (¬ Run.Every publisherStep s SendSucceeds es → Stuck (Run.after publisherStep s es)) := by
  induction es using List.reverseRecOn with
  | nil => exact ⟨fun _ => h, fun hnot => absurd Run.every_nil hnot⟩
  | append_singleton es e ih =>
    obtain ⟨hbefore, he⟩ := Run.every_snoc.mp hes
    obtain ⟨hrunning, hstuck⟩ := ih hbefore
    rw [Run.after_snoc, Run.every_snoc]
    by_cases hsucceeds : Run.Every publisherStep s SendSucceeds es
    · obtain ⟨hkeep, hfail⟩ := (hrunning hsucceeds).step e
      exact ⟨fun h => hkeep h.2, fun hnot => hfail fun he => hnot ⟨hsucceeds, he⟩⟩
    · exact ⟨fun h => absurd h.1 hsucceeds, fun _ => ((hstuck hsucceeds).step he).1⟩

/-- The records of each producer leave the channel in the order they entered it. -/
theorem delivers_step {first : queue.Q}
    (h : queue.Delivers first s.enqueued s.dequeued s.channel) (e : PublisherEvent P) :
    queue.Delivers first (publisherStep s e).enqueued (publisherStep s e).dequeued
      (publisherStep s e).channel := by
  cases e with
  | enqueue producer orderLite => exact h.enqueue producer orderLite
  | turn ret now =>
    show queue.Delivers first (s.turn ret now).enqueued (s.turn ret now).dequeued
      (s.turn ret now).channel
    cases hs : s.stage with
    | binding =>
      rw [turn_binding hs]
      split_ifs <;> exact h
    | receiving =>
      rw [turn_receiving hs]
      cases hfound : (queue.tryDequeue s.channel).1 with
      | none => exact h.dequeue_none hfound
      | some orderLite => exact h.dequeue_some hfound
    | sending orderLite =>
      rw [turn_sending hs]
      split_ifs <;> exact h
    | waiting =>
      rw [turn_waiting hs]
      exact h

end Steps

/-- **The publisher loses nothing** exactly while no send fails. -/
theorem losesNothing_iff (queue : ProducerQueue P StatOrderLite) (channel : queue.Q)
    (es : List (PublisherEvent P))
    (hzmq : Run.Every publisherStep { channel := channel : PublisherState queue } RebindFails es) :
    LosesNothing { channel := channel : PublisherState queue } es ↔
      Run.Every publisherStep { channel := channel : PublisherState queue } SendSucceeds es := by
  have hinit : Running { channel := channel : PublisherState queue } := ⟨rfl, by simp⟩
  obtain ⟨hrunning, hstuck⟩ := running_or_stuck hinit hzmq
  constructor
  · intro h
    by_contra hfails
    exact (hstuck hfails).not_allSent h.allSent
  · intro hsucceeds
    have hinOrder := Run.after_invariant
      (P := fun s : PublisherState queue => queue.Delivers channel s.enqueued s.dequeued s.channel)
      (s := { channel := channel }) .refl (fun _ e h => delivers_step h e) es
    exact ⟨hinOrder, (hrunning hsucceeds).allSent, fun hfails => absurd hsucceeds hfails⟩

end Publisher

/-- A filled order. -/
def sampleStatOrder : StatOrderLite where
  accountFlag := "um"
  symbol := "BTCUSDT"
  orderSide := "BUY"
  clientOrderId := "N1700000000000"
  averagePrice := "50000"
  filledSize := "0.01"
  commissionRate := "0.0002"
  systemTimestamp := 1700000000000

/-- The publisher over a channel that keeps its records in one order. -/
abbrev sampleStart : PublisherState (.inOneLine Bool StatOrderLite) where
  channel := ([] : List (Bool × StatOrderLite))

/-- A filled order is taken from the channel and sent. -/
theorem losesNothing_sent :
    LosesNothing sampleStart
      [.turn 0 0, .enqueue true sampleStatOrder, .turn 0 0, .turn 300 1700000000001] := by
  refine (losesNothing_iff _ _ _ ?_).mpr ?_
  · simp [Run.every_cons, RebindFails, publisherStep, PublisherState.turn]
  · simp [Run.every_cons, SendSucceeds, publisherStep, PublisherState.turn]

/-- A filled order whose send fails is neither sent nor in hand. -/
theorem losesNothing_dropped :
    ¬ ∀ es : List (PublisherEvent Bool),
      Run.Every publisherStep sampleStart RebindFails es → LosesNothing sampleStart es := by
  intro h
  have hzmq : Run.Every publisherStep sampleStart RebindFails
      [.enqueue true sampleStatOrder, .turn 0 0, .turn 0 0, .turn (-1) 0] := by
    simp [Run.every_cons, RebindFails, publisherStep, PublisherState.turn]
  have hsent := (h _ hzmq).allSent
  revert hsent
  simp [Run.after, publisherStep, PublisherState.turn, PublisherState.AllSent,
    PublisherState.inHand]

end UmTaker.Actuary
