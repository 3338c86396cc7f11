/-!
# Windows

The end of a growing sequence: an item keeps the number that it got when it was added, and of all
items only the latest ones are kept. A reader is the number of the next item that it has not seen;
when that item is gone already, it goes on at the oldest one kept.
-/

namespace Observatory

/-- The latest items of a sequence. -/
structure Window (α : Type) where
  /-- The number of items that are gone. -/
  base : Nat
  items : List α
  deriving Repr, Inhabited, DecidableEq

namespace Window

variable {α : Type}

def empty : Window α := ⟨0, []⟩

def head (w : Window α) : Nat :=
  w.base + w.items.length

/-- Adds an item, and keeps no more than `limit` items. -/
def push (w : Window α) (limit : Nat) (a : α) : Window α :=
  let items := w.items ++ [a]
  let surplus := items.length - limit
  ⟨w.base + surplus, items.drop surplus⟩

def missed (w : Window α) (offset : Nat) : Nat :=
  w.base - offset

def unread (w : Window α) (offset : Nat) : List α :=
  w.items.drop (offset - w.base)

@[simp]
theorem head_empty : (empty : Window α).head = 0 := rfl

@[simp]
theorem head_push (w : Window α) (limit : Nat) (a : α) : (w.push limit a).head = w.head + 1 := by
  simp only [push, head, List.length_drop, List.length_append, List.length_singleton]
  omega

theorem length_push_le (w : Window α) (limit : Nat) (a : α) :
    (w.push limit a).items.length ≤ limit := by
  simp only [push, List.length_drop]
  omega

@[simp]
theorem unread_head (w : Window α) : w.unread w.head = [] := by
  simp [unread, head]

end Window

end Observatory
