import Mathlib.Data.List.Basic

/-!
# Bounded channels

A bounded multi-producer single-consumer queue: senders append at the back while there is room,
the receiver takes from the front, and a receiver that goes away drops what is queued and closes
the channel.
-/

namespace RustUma.Found

variable {α : Type*}

structure Channel (α : Type*) where
  capacity : ℕ
  items : List α
  closed : Bool
  deriving DecidableEq

namespace Channel

def new (capacity : ℕ) : Channel α := ⟨capacity, [], false⟩

def HasRoom (c : Channel α) : Prop := c.closed = false ∧ c.items.length < c.capacity

instance (c : Channel α) : Decidable c.HasRoom := inferInstanceAs (Decidable (_ ∧ _))

def push (c : Channel α) (x : α) : Channel α := { c with items := c.items ++ [x] }

def trySend (c : Channel α) (x : α) : Option (Channel α) :=
  if c.HasRoom then some (c.push x) else none

def recv (c : Channel α) : Option (α × Channel α) :=
  match c.items with
  | [] => none
  | x :: rest => some (x, { c with items := rest })

def close (c : Channel α) : Channel α := { c with items := [], closed := true }

@[simp] lemma push_items (c : Channel α) (x : α) : (c.push x).items = c.items ++ [x] := rfl

lemma recv_eq_some {c c' : Channel α} {x : α} (h : c.recv = some (x, c')) :
    c.items = x :: c'.items ∧ c'.closed = c.closed ∧ c'.capacity = c.capacity := by
  unfold recv at h
  grind

end Channel

end RustUma.Found
