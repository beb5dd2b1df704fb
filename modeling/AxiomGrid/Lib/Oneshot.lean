import Mathlib.Data.Option.Basic

/-!
# One-shot channels

A channel over which one value can be sent. The receiver can be dropped before the value arrives,
and the sender can be dropped without sending; both are seen at the other end.
-/

/-- A one-shot channel: whether its two ends are alive, and the value sent. -/
structure Oneshot (α : Type*) where
  sender : Bool := true
  receiver : Bool := true
  value : Option α := none
  deriving DecidableEq, Repr

namespace Oneshot

variable {α : Type*} (ch : Oneshot α)

/-- Send consumes the sender. It succeeds when the receiver is alive. -/
def send (a : α) : Bool × Oneshot α :=
  if ch.receiver then (true, { ch with sender := false, value := some a })
  else (false, { ch with sender := false })

def dropSender : Oneshot α := { ch with sender := false }

def dropReceiver : Oneshot α := { ch with receiver := false }

/-- Whether waiting on the receiver ends: a value is there, or none can come. -/
def isReady : Bool := ch.value.isSome || !ch.sender

@[simp] lemma send_receiver (a : α) : (ch.send a).2.receiver = ch.receiver := by
  unfold send
  split <;> rfl

@[simp] lemma dropSender_receiver : ch.dropSender.receiver = ch.receiver := rfl

@[simp] lemma dropSender_value : ch.dropSender.value = ch.value := rfl

@[simp] lemma dropReceiver_receiver : ch.dropReceiver.receiver = false := rfl

@[simp] lemma dropReceiver_value : ch.dropReceiver.value = ch.value := rfl

@[simp] lemma dropReceiver_sender : ch.dropReceiver.sender = ch.sender := rfl

variable {ch}

/-- A send that succeeds reached a live receiver. -/
lemma receiver_of_send {a : α} (h : (ch.send a).1 = true) : ch.receiver = true := by
  unfold send at h
  split at h
  · assumption
  · cases h

lemma send_value {a : α} (h : ch.receiver = true) : (ch.send a).2.value = some a := by
  simp [send, h]

/-- A value that is there after a send was there before or is the one sent. -/
lemma value_of_send {a b : α} (h : (ch.send a).2.value = some b) : ch.value = some b ∨ a = b := by
  unfold send at h
  split at h
  · exact .inr (by simpa using h)
  · exact .inl h

end Oneshot
