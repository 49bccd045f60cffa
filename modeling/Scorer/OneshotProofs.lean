import Mathlib.Data.List.Basic

/-! # Oneshot channels

    A channel carries at most one value from its sender to its receiver.  Channels
    live in a table, and an end of a channel is the position of its slot.

    * `send` puts the value into an empty channel, and does nothing once the receiver
      is gone; a dropped sender closes a channel that carries no value;
    * `poll` is what the receiver sees: nothing yet, the value, or the end;
    * `poll_send`: a value that is sent on an empty channel arrives. -/

namespace Oneshot

/-- A channel, from the first of the two ends that did something with it. -/
inductive Slot (α : Type) where
  | empty
  | sent (value : α)
  | senderDropped
  | receiverDropped
  deriving DecidableEq, Repr

/-- The channels that were made, under their numbers. -/
abbrev Channels (α : Type) := List (Slot α)

/-- What a receiver finds. -/
inductive Poll (α : Type) where
  | pending
  | ready (value : α)
  | closed
  deriving DecidableEq, Repr

variable {α : Type} (cs : Channels α) (i : Nat) (v : α)

/-- A new channel; both its ends are its position. -/
def channel : Nat × Channels α :=
  (cs.length, cs ++ [.empty])

/-- The first thing that happens to a channel settles it. -/
def settle (slot : Slot α) : Channels α :=
  match cs[i]? with
  | some .empty => cs.set i slot
  | _ => cs

/-- `Sender::send`, which does nothing once the receiver is gone. -/
def send : Channels α := settle cs i (.sent v)

/-- The sender is dropped unused. -/
def dropSender : Channels α := settle cs i .senderDropped

/-- The receiver is gone, with the value if there was one. -/
def dropReceiver : Channels α := cs.set i .receiverDropped

/-- A receiver that is polled. -/
def poll : Poll α :=
  match cs[i]? with
  | some .empty => .pending
  | some (.sent value) => .ready value
  | _ => .closed

variable {cs i v} {slot : Slot α}

/-- A channel is pending as long as it was not settled. -/
theorem poll_eq_pending : poll cs i = .pending ↔ cs[i]? = some .empty := by
  rw [poll]
  split
  · rename_i h
    exact iff_of_true rfl h
  · rename_i h
    exact iff_of_false (fun h => nomatch h) fun h' => nomatch h.symm.trans h'
  · rename_i h _
    exact iff_of_false (fun h => nomatch h) h

theorem poll_channel : poll (channel cs).2 (channel cs).1 = .pending :=
  poll_eq_pending.mpr (by simp [channel])

theorem settle_self (h : poll cs i = .pending) : (settle cs i slot)[i]? = some slot := by
  have hempty := poll_eq_pending.mp h
  obtain ⟨hlt, -⟩ := List.getElem?_eq_some_iff.mp hempty
  rw [settle]
  rw [hempty]
  exact List.getElem?_set_self hlt

/-- **DELIVERY**: a value sent on an empty channel is what its receiver polls. -/
theorem poll_send (h : poll cs i = .pending) : poll (send cs i v) i = .ready v := by
  rw [poll, send]
  rw [settle_self h]

end Oneshot
