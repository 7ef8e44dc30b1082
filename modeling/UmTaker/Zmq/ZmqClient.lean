import UmTaker.General.CString
import Mathlib.Data.Int.Notation
import Mathlib.Tactic.SplitIfs

/-!
# The ZMQ client

`Send` hands the bytes of a string to libzmq. `Receive` has libzmq copy a message into a buffer on
the stack, ends it with a zero byte at the size that libzmq returns, and makes a string of the
buffer up to its first zero byte.

## Main definitions

* `Libzmq`, `Libzmq.Documented`: `zmq_recv`, and what is relied on of it
* `send`, `receive`: the two sides of the transport

## Main results

* `receive_send_iff`: a message is received as it was sent exactly when it is shorter than the
  buffer and has no zero byte
-/

namespace UmTaker.Zmq

open CString

/-- `zmq_recv` on a message, with the number of bytes to copy at most and the buffer: the buffer
afterwards, and the size returned. -/
structure Libzmq where
  zmqRecv : List UInt8 → ℕ → List UInt8 → List UInt8 × ℤ

/-- What is relied on of `zmq_recv`: it copies at most the given length, and returns the size of
the whole message. -/
structure Libzmq.Documented (zmq : Libzmq) : Prop where
  copies : ∀ message len buffer, len ≤ buffer.length →
    (zmq.zmqRecv message len buffer).1 =
      message.take len ++ buffer.drop (min len message.length)
  returns : ∀ message len buffer, (zmq.zmqRecv message len buffer).2 = message.length

/-- `Send`: the bytes `zmq_send` is given, as many as the string has. -/
def send (msg : List UInt8) : List UInt8 := (terminated msg).take msg.length

/-- How `Receive` ends; a byte written outside the buffer has no defined effect. -/
inductive Received
  | returned (message : List UInt8)
  | thrown
  | undefined
  deriving DecidableEq

/-- `Receive`, from what the buffer's memory holds and the message that is delivered. -/
def receive (zmq : Libzmq) (memory : Vector UInt8 1024) (delivered : List UInt8) : Received :=
  let r := zmq.zmqRecv delivered (1024 - 1) memory.toList
  let messageSize := r.2
  if messageSize = -1 then
    .thrown
  else if 0 ≤ messageSize ∧ messageSize < 1024 then
    .returned (cString (r.1.set messageSize.toNat 0))
  else
    .undefined

/-- **A message is received as it was sent** exactly when it is shorter than the buffer and has no
zero byte. -/
theorem receive_send_iff {zmq : Libzmq} (hzmq : zmq.Documented) (memory : Vector UInt8 1024)
    (msg : List UInt8) :
    receive zmq memory (send msg) = .returned msg ↔ msg.length < 1024 ∧ 0 ∉ msg := by
  have hsend : send msg = msg := terminated_take msg
  have hmemory : memory.toList.length = 1024 := Vector.length_toList
  have hsize := hzmq.returns msg (1024 - 1) memory.toList
  have hne : ¬ ((msg.length : ℤ) = -1) := by omega
  unfold receive
  rw [hsend]
  simp only [hsize, if_neg hne]
  split_ifs with hfits
  · have hlength : msg.length < memory.toList.length := by omega
    have hbuffer : (zmq.zmqRecv msg (1024 - 1) memory.toList).1 =
        msg ++ memory.toList.drop msg.length := by
      rw [hzmq.copies msg _ _ (by omega), List.take_of_length_le (by omega),
        Nat.min_eq_right (by omega)]
    rw [hbuffer, Int.toNat_natCast, set_append_of_length hlength, Received.returned.injEq,
      cString_append_zero_iff]
    exact ⟨fun h => ⟨by omega, h⟩, fun h => h.2⟩
  · simp only [false_iff]
    rintro ⟨hlt, -⟩
    omega

/-- A `zmq_recv` as documented. -/
def documentedZmq : Libzmq where
  zmqRecv message len buffer :=
    (message.take len ++ buffer.drop (min len message.length), message.length)

theorem documentedZmq_documented : documentedZmq.Documented where
  copies _ _ _ _ := rfl
  returns _ _ _ := rfl

/-- A text of two bytes. -/
theorem receive_send_text :
    receive documentedZmq (Vector.replicate 1024 7) (send [123, 125]) = .returned [123, 125] :=
  (receive_send_iff documentedZmq_documented _ _).mpr ⟨by decide, by decide⟩

/-- A ticker whose only field is a best bid of 1: the field's tag, and the bytes of the double. -/
def tickerMessage : List UInt8 := [0x11, 0, 0, 0, 0, 0, 0, 0xF0, 0x3F]

/-- Of the ticker only the tag is received. -/
theorem ticker_cut :
    receive documentedZmq (Vector.replicate 1024 7) (send tickerMessage) = .returned [0x11] ∧
      tickerMessage ≠ [0x11] := by
  decide +kernel

end UmTaker.Zmq
