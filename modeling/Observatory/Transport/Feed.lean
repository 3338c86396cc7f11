import Observatory.Store

/-!
# Feeds

A feed follows several channels at once. It asks its channels in turn: a channel that gave an
event is asked again after the others, and one that had none is left out until something is
published on it.
-/

namespace Observatory

abbrev ReaderId := Nat

structure Reading where
  skipped : Nat
  offset : Nat
  event : Option Stamped

inductive Poll (α : Type) where
  | item (a : α)
  /-- Nothing now, and perhaps something later. -/
  | pending
  | ended
  deriving Repr, DecidableEq

/-- A reader's place on the channels named by `χ` that it follows. -/
structure Feed (χ : Type) where
  offsets : Table χ Nat
  /-- The channels to ask, in turn. -/
  ready : List χ

structure Pull (χ : Type) where
  result : Poll Stamped
  skipped : Nat
  feed : Feed χ

namespace Feed

variable {χ : Type} [DecidableEq χ]

def start (offsets : List (χ × Nat)) : Feed χ :=
  ⟨⟨offsets⟩, offsets.map Prod.fst⟩

def follows (f : Feed χ) (channel : χ) : Bool :=
  f.offsets.contains channel

/-- Puts a channel that the feed follows back among those to ask. -/
def wake (f : Feed χ) (channel : χ) : Feed χ :=
  if f.follows channel && !f.ready.contains channel then
    { f with ready := f.ready ++ [channel] }
  else f

/-- Asks the channels of a list in turn until one has an event. -/
def pull (read : χ → Nat → Reading) (offsets : Table χ Nat) : List χ → Pull χ
  | [] => ⟨.pending, 0, ⟨offsets, []⟩⟩
  | channel :: ready =>
    let reading := read channel ((offsets.get? channel).getD 0)
    let offsets := offsets.insert channel reading.offset
    match reading.event with
    | some event => ⟨.item event, reading.skipped, ⟨offsets, ready ++ [channel]⟩⟩
    | none =>
      let later := pull read offsets ready
      { later with skipped := reading.skipped + later.skipped }

def isQuiet (f : Feed χ) : Bool :=
  !f.offsets.isEmpty && f.ready.isEmpty

/-- Takes the next event of a feed. A feed that follows no channel has ended. -/
def next (f : Feed χ) (read : χ → Nat → Reading) : Pull χ :=
  if f.offsets.isEmpty then ⟨.ended, 0, f⟩ else pull read f.offsets f.ready

end Feed

end Observatory
