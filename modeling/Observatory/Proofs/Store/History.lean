import Mathlib
import Observatory.Store

/-!
# The history of a store

A store is changed by puts, by undoing them, and by being emptied. The counter only goes forward,
so a stamp names one put for ever, whereas an undone put takes the entry of its key back to an older
stamp. What ties the two together is that a put tells what it replaced: whatever an entry goes back
to was written on the same key.
-/

namespace Observatory.Store

variable {s : Store} {key key' : EventKey} {failed : EventId} {previous : Option Stamped}
  {w current : Stamped}

/-! ## Entries -/

theorem get?_put (s : Store) (key key' : EventKey) (event : Event) :
    (s.put key event).2.entries.get? key' =
      if key' = key then some ⟨s.lastStamp + 1, event⟩ else s.entries.get? key' := by
  by_cases h : key' = key
  · subst h
    simp [put]
  · simp [put, h]

theorem get?_restore_of_ne (h : key' ≠ key) :
    (s.restore key failed previous).entries.get? key' = s.entries.get? key' := by
  unfold restore
  split
  · rfl
  · split
    · split
      · exact Table.get?_insert_of_ne _ _ h
      · exact Table.get?_erase_of_ne _ h
    · rfl

theorem get?_restore_self (hcurrent : s.entries.get? key = some current)
    (hid : current.event.id = failed) :
    (s.restore key failed previous).entries.get? key = previous := by
  unfold restore
  simp only [hcurrent, if_pos hid]
  cases previous with
  | none => exact Table.get?_erase_self _ _
  | some previous => exact Table.get?_insert_self _ _ _

theorem restore_of_ne (hcurrent : s.entries.get? key = some current)
    (hid : current.event.id ≠ failed) : s.restore key failed previous = s := by
  unfold restore
  simp only [hcurrent, if_neg hid]

theorem restore_of_none (hnone : s.entries.get? key = none) :
    s.restore key failed previous = s := by
  unfold restore
  simp only [hnone]

/-- An undone write leaves an entry as it was, or makes it what is given back. -/
theorem get?_restore_cases (h : (s.restore key failed previous).entries.get? key' = some w) :
    s.entries.get? key' = some w ∨ (key' = key ∧ previous = some w) := by
  by_cases hkey : key' = key
  · subst hkey
    cases hcurrent : s.entries.get? key' with
    | none =>
      rw [restore_of_none hcurrent, hcurrent] at h
      cases h
    | some current =>
      by_cases hid : current.event.id = failed
      · rw [get?_restore_self hcurrent hid] at h
        exact .inr ⟨rfl, h⟩
      · rw [restore_of_ne hcurrent hid, hcurrent] at h
        exact .inl h
  · rw [get?_restore_of_ne hkey] at h
    exact .inl h

/-! ## Operations -/

/-- A put that was made: its key, what it wrote, and what it replaced. -/
structure Put where
  key : EventKey
  write : Write

/-- A change of a store. -/
inductive Op where
  | put (key : EventKey) (event : Event)
  | restore (key : EventKey) (failed : EventId) (previous : Option Stamped)
  | clear

namespace Op

def run (s : Store) : Op → Store
  | .put key event => (s.put key event).2
  | .restore key failed previous => s.restore key failed previous
  | .clear => s.clear

/-- The puts that a change makes, which is one at most. -/
def puts (s : Store) : Op → List Put
  | .put key event => [⟨key, (s.put key event).1⟩]
  | .restore .. | .clear => []

/-- Whether a change may concern the entry of a key. -/
def Touches (key : EventKey) : Op → Prop
  | .put key' _ => key' = key
  | .restore key' _ _ => key' = key
  | .clear => True

/-- What is given back was replaced by a put on the same key. Which event is to be undone is left
open: it may be that of any put, or of none. -/
def Backed (made : List Put) : Op → Prop
  | .restore key _ previous => ∃ put ∈ made, put.key = key ∧ put.write.previous = previous
  | .put .. | .clear => True

end Op

/-- The store `s` has come about by changes that made the puts `made`, the oldest first. -/
inductive History : List Put → Store → Prop where
  | start : History [] empty
  | step {made : List Put} {s : Store} (history : History made s) (op : Op)
      (h : op.Backed made) : History (made ++ op.puts s) (op.run s)

/-- A put on the key wrote `w`. -/
def Made (made : List Put) (key : EventKey) (w : Stamped) : Prop :=
  ∃ put ∈ made, put.key = key ∧ put.write.written = w

/-- What the puts that were made tell of a store. -/
structure Ledger (made : List Put) (s : Store) : Prop where
  counted : s.lastStamp = made.length
  /-- The first put has the stamp 1, and every other the next one after the put before it. -/
  numbered : made.map (fun put => put.write.written.stamp) = List.range' 1 made.length
  replaced : ∀ put ∈ made, ∀ w, put.write.previous = some w → Made made put.key w
  owned : ∀ key w, s.entries.get? key = some w → Made made key w

theorem Made.append {made : List Put} (h : Made made key w) (more : List Put) :
    Made (made ++ more) key w := by
  obtain ⟨put, hput, hkey, hwritten⟩ := h
  exact ⟨put, List.mem_append_left more hput, hkey, hwritten⟩

namespace Ledger

variable {made : List Put}

theorem put (h : Ledger made s) (key : EventKey) (event : Event) :
    Ledger (made ++ [⟨key, (s.put key event).1⟩]) (s.put key event).2 where
  counted := by
    rw [lastStamp_put, h.counted, List.length_append, List.length_singleton]
  numbered := by
    rw [List.map_append, h.numbered, List.length_append, List.length_singleton,
      List.range'_concat, ← h.counted]
    simp only [Store.put, List.map_singleton, Nat.one_mul, Nat.add_comm]
  replaced := by
    intro put hput w hprevious
    rcases List.mem_append.1 hput with hold | hnew
    · exact (h.replaced put hold w hprevious).append _
    · -- The new put replaced an entry of the store, which some put made.
      rw [List.mem_singleton] at hnew
      subst hnew
      exact (h.owned key w hprevious).append _
  owned := by
    intro key' w hentry
    rw [get?_put] at hentry
    split at hentry
    next hkey =>
      refine ⟨_, List.mem_append_right made List.mem_cons_self, hkey.symm, ?_⟩
      exact Option.some.inj hentry
    next => exact (h.owned key' w hentry).append _

theorem restore (h : Ledger made s) {put : Put} (hput : put ∈ made) (failed : EventId) :
    Ledger made (s.restore put.key failed put.write.previous) where
  counted := by rw [lastStamp_restore, h.counted]
  numbered := h.numbered
  replaced := h.replaced
  owned := by
    intro key w hentry
    rcases get?_restore_cases hentry with hold | ⟨rfl, hback⟩
    · exact h.owned key w hold
    · exact h.replaced put hput w hback

theorem clear (h : Ledger made s) : Ledger made s.clear where
  counted := h.counted
  numbered := h.numbered
  replaced := h.replaced
  owned := by
    intro key w hentry
    cases hentry

theorem eq_of_stamp (h : Ledger made s) {a b : Put} (ha : a ∈ made) (hb : b ∈ made)
    (hstamp : a.write.written.stamp = b.write.written.stamp) : a = b := by
  have hnodup : (made.map fun put => put.write.written.stamp).Nodup := by
    rw [h.numbered]
    exact List.nodup_range'
  exact List.inj_on_of_nodup_map hnodup ha hb hstamp

theorem stamp_bounds (h : Ledger made s) (hmade : Made made key w) :
    1 ≤ w.stamp ∧ w.stamp ≤ s.lastStamp := by
  obtain ⟨put, hput, -, rfl⟩ := hmade
  have hmem : put.write.written.stamp ∈ List.range' 1 made.length := by
    rw [← h.numbered]
    exact List.mem_map_of_mem hput
  rw [List.mem_range'_1] at hmem
  rw [h.counted]
  omega

theorem ascending (h : Ledger made s) :
    made.Pairwise fun a b => a.write.written.stamp < b.write.written.stamp := by
  have hsorted : (made.map fun put => put.write.written.stamp).Pairwise (· < ·) := by
    rw [h.numbered]
    exact List.pairwise_lt_range'
  exact List.pairwise_map.1 hsorted

/-- Entries of different keys were made by different puts. -/
theorem stamp_ne (h : Ledger made s) {w' : Stamped} (hkey : key ≠ key') (hmade : Made made key w)
    (hmade' : Made made key' w') : w.stamp ≠ w'.stamp := by
  obtain ⟨put, hput, rfl, rfl⟩ := hmade
  obtain ⟨put', hput', rfl, rfl⟩ := hmade'
  intro hstamp
  apply hkey
  rw [h.eq_of_stamp hput hput' hstamp]

end Ledger

theorem History.ledger {made : List Put} (history : History made s) : Ledger made s := by
  induction history with
  | start =>
    refine ⟨rfl, rfl, ?_, ?_⟩
    · intro put hput
      cases hput
    · intro key w hentry
      cases hentry
  | @step made s _ op h ih =>
    cases op with
    | put key event => exact ih.put key event
    | restore key failed previous =>
      obtain ⟨put, hput, rfl, rfl⟩ := h
      rw [Op.puts, List.append_nil]
      exact ih.restore hput failed
    | clear =>
      rw [Op.puts, List.append_nil]
      exact ih.clear

/-! ## Undoing a put -/

theorem get?_run_of_untouched {op : Op} (h : ¬op.Touches key) :
    (op.run s).entries.get? key = s.entries.get? key := by
  cases op with
  | put key' event =>
    rw [Op.run, get?_put, if_neg]
    exact fun heq => h heq.symm
  | restore key' failed previous => exact get?_restore_of_ne fun heq => h heq.symm
  | clear => exact absurd trivial h

theorem get?_foldl_of_untouched {ops : List Op} (h : ∀ op ∈ ops, ¬op.Touches key) :
    (ops.foldl Op.run s).entries.get? key = s.entries.get? key := by
  induction ops generalizing s with
  | nil => rfl
  | cons op ops ih =>
    rw [List.foldl_cons, ih fun op' hop' => h op' (List.mem_cons_of_mem op hop')]
    exact get?_run_of_untouched (h op List.mem_cons_self)

/-- A store with a put on a key, other changes, and the put undone. -/
def putAndUndo (s : Store) (key : EventKey) (event : Event) (ops : List Op) : Store :=
  (ops.foldl Op.run (s.put key event).2).restore key event.id (s.put key event).1.previous

theorem get?_putAndUndo_self {event : Event} {ops : List Op} (h : ∀ op ∈ ops, ¬op.Touches key) :
    (s.putAndUndo key event ops).entries.get? key = s.entries.get? key := by
  have hcurrent : (ops.foldl Op.run (s.put key event).2).entries.get? key =
      some ⟨s.lastStamp + 1, event⟩ := by
    rw [get?_foldl_of_untouched h, get?_put, if_pos rfl]
  exact get?_restore_self hcurrent rfl

/-- Stamps number the puts of a store, whatever is undone or thrown away in between: every entry is
a put on its own key, and no stamp is used for two. A put that is undone, with any changes on other
keys in between, leaves its key as it was before, and all other keys as those changes left them. -/
theorem History.accounts {made : List Put} (history : History made s) :
    (s.lastStamp = made.length ∧
      made.map (fun put => put.write.written.stamp) = List.range' 1 made.length ∧
      made.Pairwise fun a b => a.write.written.stamp < b.write.written.stamp) ∧
    (∀ key w, s.entries.get? key = some w →
      Made made key w ∧ 1 ≤ w.stamp ∧ w.stamp ≤ s.lastStamp) ∧
    (∀ key key' w w', key ≠ key' → s.entries.get? key = some w → s.entries.get? key' = some w' →
      w.stamp ≠ w'.stamp) ∧
    ∀ key event ops, (∀ op ∈ ops, ¬op.Touches key) →
      (s.putAndUndo key event ops).entries.get? key = s.entries.get? key ∧
        ∀ key', key' ≠ key → (s.putAndUndo key event ops).entries.get? key' =
          (ops.foldl Op.run (s.put key event).2).entries.get? key' := by
  have hledger := history.ledger
  refine ⟨⟨hledger.counted, hledger.numbered, hledger.ascending⟩, ?entries, ?apart, ?undo⟩
  case entries =>
    intro key w hentry
    have hmade := hledger.owned key w hentry
    exact ⟨hmade, hledger.stamp_bounds hmade⟩
  case apart =>
    intro key key' w w' hkey hentry hentry'
    exact hledger.stamp_ne hkey (hledger.owned key w hentry) (hledger.owned key' w' hentry')
  case undo =>
    intro key event ops hops
    refine ⟨get?_putAndUndo_self hops, fun key' hkey => ?_⟩
    exact get?_restore_of_ne hkey

def keyOf (name : String) : EventKey :=
  ⟨⟨.csw, "history"⟩, ⟨name⟩⟩

def eventOf (name id : String) : Event :=
  .create .system (keyOf name) ⟨id⟩ .epoch

/-- Two puts on a key, a third one after the store was emptied, and the third one undone with what
the second one had replaced: the entry has the first stamp again. Then a put is undone with a put
and an undone put on another key in between. -/
theorem History.accounts_reborn : ∃ made s, History made s ∧
    s.entries.get? (keyOf "a") = some ⟨1, eventOf "a" "x"⟩ ∧
    (s.lastStamp = 3 ∧ made.map (fun put => put.write.written.stamp) = [1, 2, 3]) ∧
    Made made (keyOf "a") ⟨1, eventOf "a" "x"⟩ ∧
    (s.putAndUndo (keyOf "a") (eventOf "a" "z")
      [.put (keyOf "b") (eventOf "b" "x"), .restore (keyOf "b") ⟨"x"⟩ none]).entries.get?
        (keyOf "a") = some ⟨1, eventOf "a" "x"⟩ := by
  have first := History.start.step (.put (keyOf "a") (eventOf "a" "x")) trivial
  have second := first.step (.put (keyOf "a") (eventOf "a" "y")) trivial
  have third := (second.step .clear trivial).step (.put (keyOf "a") (eventOf "a" "y")) trivial
  have undone := third.step (.restore (keyOf "a") ⟨"y"⟩ (some ⟨1, eventOf "a" "x"⟩))
    ⟨⟨keyOf "a", ⟨⟨2, eventOf "a" "y"⟩, some ⟨1, eventOf "a" "x"⟩⟩⟩, .tail _ (.head _), rfl, rfl⟩
  obtain ⟨⟨hcounted, hnumbered, -⟩, hentries, -, hundo⟩ := undone.accounts
  refine ⟨_, _, undone, rfl, ⟨hcounted, hnumbered⟩, (hentries _ _ rfl).1, ?_⟩
  apply (hundo (keyOf "a") (eventOf "a" "z") _ ?_).1.trans
  · rfl
  · simp [Op.Touches, keyOf]

end Observatory.Store
