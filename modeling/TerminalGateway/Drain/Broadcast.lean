/-!
Values sent to any number of subscribers, each at its own pace. A subscriber that falls behind
by more than the buffer holds is told once how many values it missed and goes on with the oldest
value still there.
-/

namespace TerminalGateway.Drain

structure Broadcast (α : Type) where
  sent : List α := []
  deriving DecidableEq, Repr

/-- How many values a subscriber has taken or missed. -/
structure Subscription where
  position : Nat
  deriving DecidableEq, Repr

/-- What a subscriber gets: a value, or word of the values it missed. -/
inductive Reception (α : Type)
  | value (x : α)
  | lagged (missed : Nat)
  deriving DecidableEq, Repr

namespace Broadcast

variable {α : Type}

def capacity : Nat := 16

def send (b : Broadcast α) (x : α) : Broadcast α := ⟨b.sent ++ [x]⟩

/-- A subscription to the values sent from now on. -/
def subscribe (b : Broadcast α) : Subscription := ⟨b.sent.length⟩

def oldest (b : Broadcast α) : Nat := b.sent.length - capacity

def take? (b : Broadcast α) (s : Subscription) : Option (Reception α × Subscription) :=
  if s.position < b.oldest then some (.lagged (b.oldest - s.position), ⟨b.oldest⟩)
  else (b.sent[s.position]?).map fun x => (.value x, ⟨s.position + 1⟩)

/-- A subscription hears nothing of what was sent before it. -/
theorem take?_subscribe (b : Broadcast α) : b.take? b.subscribe = none := by
  simp [take?, subscribe, oldest]

def takeWithin (b : Broadcast α) : Nat → Subscription → List (Reception α) × Subscription
  | 0, s => ([], s)
  | steps + 1, s =>
      match b.take? s with
      | none => ([], s)
      | some (r, s) =>
          let (rs, s) := takeWithin b steps s
          (r :: rs, s)

def takeAll (b : Broadcast α) (s : Subscription) : List (Reception α) × Subscription :=
  b.takeWithin (capacity + 2) s

end Broadcast

end TerminalGateway.Drain
