/-! # Broadcasting

Messages go to everyone who listens at the time. Only the newest messages are kept; a receiver that
falls behind them is told how many it has missed and goes on with the oldest one kept. -/

namespace ObjectTracking

/-- What a receiver is given. -/
inductive Received (β : Type) where
  | message (message : β)
  /-- This many messages were lost. -/
  | lagged (missed : Nat)
  /-- There is nothing new yet. -/
  | empty
  /-- There is nothing new, and never will be. -/
  | closed
  deriving DecidableEq, Repr

/-- A stream of messages with its receivers. -/
structure Broadcast (β : Type) where
  /-- How many messages are kept. -/
  capacity : Nat
  sent : Nat
  /-- The newest of them, the oldest first. -/
  kept : List β
  /-- The number of the message each receiver gets next; none for one that has gone away. -/
  receivers : List (Option Nat)
  isClosed : Bool

namespace Broadcast
variable {β : Type}

/-- The least power of two that is not below `n`. -/
def powerAbove (n : Nat) : Nat := if n ≤ 1 then 1 else 1 <<< ((n - 1).log2 + 1)

/-- A stream without receivers. It keeps at least as many messages as asked for, and one at least.
-/
def start (capacity : Nat) : Broadcast β := ⟨powerAbove capacity, 0, [], [], false⟩

def listening (b : Broadcast β) : Nat := (b.receivers.filter Option.isSome).length

/-- A new receiver, which gets what is sent from now on. It is numbered by its place. -/
def subscribe (b : Broadcast β) : Broadcast β :=
  { b with receivers := b.receivers ++ [some b.sent] }

def leave (b : Broadcast β) (receiver : Nat) : Broadcast β :=
  { b with receivers := b.receivers.set receiver none }

/-- Sends a message. Nobody ever sees one that is sent when nobody listens. -/
def send (b : Broadcast β) (message : β) : Broadcast β :=
  if b.listening = 0 then b
  else
    let all := b.kept ++ [message]
    { b with sent := b.sent + 1, kept := all.drop (all.length - b.capacity) }

def close (b : Broadcast β) : Broadcast β := { b with isClosed := true }

/-- The number of the oldest message kept. -/
def oldest (b : Broadcast β) : Nat := b.sent - b.kept.length

/-- What a receiver that waits for message number `next` gets, and the number it waits for then. -/
def deliver (b : Broadcast β) (next : Nat) : Nat × Received β :=
  if next < b.oldest then (b.oldest, .lagged (b.oldest - next))
  else
    match b.kept[next - b.oldest]? with
    | some message => (next + 1, .message message)
    | none => (next, if b.isClosed then .closed else .empty)

/-- A receiver asks for its next message. One that has gone away gets none. -/
def receive (b : Broadcast β) (receiver : Nat) : Broadcast β × Received β :=
  match b.receivers[receiver]?.join with
  | none => (b, .closed)
  | some next =>
    let (next, received) := b.deliver next
    ({ b with receivers := b.receivers.set receiver (some next) }, received)

end Broadcast

end ObjectTracking
