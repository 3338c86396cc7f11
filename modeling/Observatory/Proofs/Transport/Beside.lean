import Observatory.Proofs.Transport.Closed
import Observatory.Proofs.Transport.Inbox

/-!
# Backends that differ in one reader

A reader leaves its traces on a keyspace: it makes channels, keeps them alive, and lets the channel
of all keys fill. Two keyspaces of which only one has the reader are not the same for that, but they
have the same inboxes before all other readers, and go on to. Two logs differ in the reader itself
only.
-/

namespace Observatory

variable {a id : ReaderId}

/-! ## Registering -/

namespace Target

variable {t : Keyspace} {limit : Nat} {boxes : ReaderId → Option Inbox}

def inbox : Target → Inbox
  | .keys ks => .ofKeys (EventKey.sortDistinct ks)
  | .pattern p _ => .pattern p []

theorem register_keyspace (h : t.Keeps limit boxes) (target : Target) (id : ReaderId) :
    ∃ t', target.register id (.keyspace t) = .ok (.keyspace t') ∧
      t'.Keeps limit (Function.update boxes id (some target.inbox)) := by
  cases target with
  | keys ks =>
    obtain ⟨t', ht', htaken⟩ := h.subscribe id ks
    refine ⟨t', ?_, htaken⟩
    rw [register, Backend.subscribe, ht']
    rfl
  | pattern p observeOnly =>
    obtain ⟨t', ht', htaken⟩ := h.patternSubscribe id p
    refine ⟨t', ?_, htaken⟩
    rw [register, Backend.patternSubscribe, ht']
    rfl

/-- Only keys can be read from a log. -/
theorem exists_of_register_log {t : Log} {target : Target} {c : Backend}
    (h : target.register id (.log t) = .ok c) : ∃ ks, c = .log { t with
      readers := t.readers.insert id (.start ((EventKey.sortDistinct ks).map fun key =>
        (key, (t.partition key).head))) } := by
  cases target with
  | keys ks =>
    simp only [register, Backend.subscribe, Log.subscribe] at h
    split at h
    · cases h
    · cases h
      exact ⟨ks, rfl⟩
  | pattern p observeOnly => cases h

end Target

/-! ## Backends -/

namespace Backend

/-- The backends differ in the reader `a` at most. -/
inductive Beside (a : ReaderId) : Backend → Backend → Prop where
  | keyspace {t t' : Keyspace} {limit : Nat} {boxes boxes' : ReaderId → Option Inbox}
      (here : t.Keeps limit boxes) (there : t'.Keeps limit boxes')
      (same : ∀ id, id ≠ a → boxes' id = boxes id) : Beside a (.keyspace t) (.keyspace t')
  | closed {t t' : Keyspace} (here : t.closed = true) (there : t'.closed = true) :
      Beside a (.keyspace t) (.keyspace t')
  | log {t : Log} {readers : Table ReaderId (Feed EventKey)}
      (same : ∀ id, id ≠ a → readers.get? id = t.readers.get? id) :
      Beside a (.log t) (.log { t with readers })

/-- The answers are the same, and the backends differ in the reader `a` at most. -/
inductive Agree (a : ReaderId) :
    Except TransportError Backend → Except TransportError Backend → Prop where
  | ok {b b' : Backend} (h : Beside a b b') : Agree a (.ok b) (.ok b')
  | error (error : TransportError) : Agree a (.error error) (.error error)

variable {b b' c : Backend} {w : Stamped}

theorem update_same {boxes boxes' : ReaderId → Option Inbox} {x : Option Inbox}
    (same : ∀ id, id ≠ a → boxes' id = boxes id) :
    ∀ id', id' ≠ a → Function.update boxes' id x id' = Function.update boxes id x id' := by
  intro id' hid
  rw [Function.update_apply, Function.update_apply, same id' hid]

theorem get?_insert_same {ν : Type} {readers readers' : Table ReaderId ν} {x : ν}
    (same : ∀ id, id ≠ a → readers'.get? id = readers.get? id) :
    ∀ id', id' ≠ a → (readers'.insert id x).get? id' = (readers.insert id x).get? id' := by
  intro id' hid
  by_cases heq : id' = id
  · rw [heq, Table.get?_insert_self, Table.get?_insert_self]
  · rw [Table.get?_insert_of_ne _ _ heq, Table.get?_insert_of_ne _ _ heq, same id' hid]

namespace Beside

theorem publish (h : Beside a b b') (w : Stamped) : Agree a (b.publish w) (b'.publish w) := by
  cases h with
  | keyspace here there same =>
    obtain ⟨t, ht, htaken⟩ := here.publish w
    obtain ⟨t', ht', htaken'⟩ := there.publish w
    simp only [Backend.publish, ht, ht']
    exact .ok (.keyspace htaken htaken' fun id hid => by rw [same id hid])
  | @closed t t' here there =>
    have ht : t.publish w = .error (.closed Keyspace.name) := if_pos here
    have ht' : t'.publish w = .error (.closed Keyspace.name) := if_pos there
    simp only [Backend.publish, ht, ht']
    exact .error _
  | @log t readers same =>
    simp only [Backend.publish, Log.publish]
    cases t.closed with
    | true => exact .error _
    | false => exact .ok (.log fun id hid => by rw [Table.get?_map, Table.get?_map, same id hid])

theorem register (h : Beside a b b') (target : Target) (id : ReaderId) :
    Agree a (target.register id b) (target.register id b') := by
  cases h with
  | keyspace here there same =>
    obtain ⟨t, ht, htaken⟩ := target.register_keyspace here id
    obtain ⟨t', ht', htaken'⟩ := target.register_keyspace there id
    rw [ht, ht']
    exact .ok (.keyspace htaken htaken' (update_same same))
  | closed here there =>
    rw [Target.register_closed here, Target.register_closed there]
    exact .error _
  | @log t readers same =>
    cases target with
    | keys ks =>
      simp only [Target.register, Backend.subscribe, Log.subscribe]
      cases t.closed with
      | true => exact .error _
      | false => exact .ok (.log (get?_insert_same same))
    | pattern p observeOnly => exact .error _

theorem next (h : Beside a b b') (hid : id ≠ a) :
    (b'.next id).result = (b.next id).result ∧ (b'.next id).skipped = (b.next id).skipped ∧
      Beside a (b.next id).backend (b'.next id).backend := by
  cases h with
  | @keyspace t t' limit boxes boxes' here there same =>
    cases hbox : boxes id with
    | none =>
      have ht : (Backend.keyspace t).next id = ⟨.ended, 0, .keyspace t⟩ := by
        rw [Backend.next, here.next_of_none hbox]
      have ht' : (Backend.keyspace t').next id = ⟨.ended, 0, .keyspace t'⟩ := by
        rw [Backend.next, there.next_of_none ((same id hid).trans hbox)]
      rw [ht, ht']
      exact ⟨rfl, rfl, .keyspace here there same⟩
    | some inbox =>
      obtain ⟨hresult, hskipped, htaken⟩ := here.next hbox
      obtain ⟨hresult', hskipped', htaken'⟩ := there.next ((same id hid).trans hbox)
      exact ⟨hresult'.trans hresult.symm, hskipped'.trans hskipped.symm,
        .keyspace htaken htaken' (update_same same)⟩
  | closed here there =>
    rw [next_of_closed here, next_of_closed there]
    exact ⟨rfl, rfl, .closed here there⟩
  | @log t readers same =>
    rw [Backend.next, Backend.next, Log.next, Log.next]
    by_cases hclosed : t.closed = true
    · rw [if_pos hclosed, if_pos hclosed]
      exact ⟨rfl, rfl, .log same⟩
    · rw [if_neg hclosed, if_neg hclosed, same id hid]
      cases t.readers.get? id with
      | none => exact ⟨rfl, rfl, .log same⟩
      | some feed => exact ⟨rfl, rfl, .log (get?_insert_same same)⟩

theorem isQuiet (h : Beside a b b') (hid : id ≠ a) : b'.isQuiet id = b.isQuiet id := by
  cases h with
  | keyspace here there same =>
    simp only [Backend.isQuiet, here.isQuiet_eq, there.isQuiet_eq, same id hid]
  | closed here there =>
    simp only [Backend.isQuiet, Keyspace.isQuiet, here, there, Bool.not_true, Bool.false_and]
  | log same => simp only [Backend.isQuiet, Log.isQuiet, same id hid]

theorem drop (h : Beside a b b') (id : ReaderId) : Beside a (b.drop id) (b'.drop id) := by
  cases h with
  | keyspace here there same => exact .keyspace (here.drop id) (there.drop id) (update_same same)
  | closed here there => exact .closed here there
  | @log t readers same =>
    change Beside a (.log (t.drop id)) (.log { t.drop id with readers := readers.erase id })
    refine .log fun id' hid => ?_
    by_cases heq : id' = id
    · rw [heq, Log.drop, Table.get?_erase_self, Table.get?_erase_self]
    · rw [Log.drop, Table.get?_erase_of_ne _ heq, Table.get?_erase_of_ne _ heq, same id' hid]

theorem shutdown (h : Beside a b b') : Beside a b.shutdown b'.shutdown := by
  cases h with
  | keyspace here there same =>
    simp only [Backend.shutdown, Keyspace.shutdown, here.isOpen, there.isOpen]
    exact .closed rfl rfl
  | closed here there =>
    simp only [Backend.shutdown, Keyspace.shutdown, here, there]
    exact .closed here there
  | @log t readers same => exact .log (t := t.shutdown) same

/-! What the reader `a` does on one side only -/

theorem update_own {boxes boxes' : ReaderId → Option Inbox} {x : Option Inbox}
    (same : ∀ id, id ≠ a → boxes' id = boxes id) :
    ∀ id, id ≠ a → boxes' id = Function.update boxes a x id := by
  intro id hid
  rw [Function.update_of_ne hid, same id hid]

theorem register_own (h : Beside a b b') {target : Target}
    (hregister : target.register a b = .ok c) : Beside a c b' := by
  cases h with
  | keyspace here there same =>
    obtain ⟨t, ht, htaken⟩ := target.register_keyspace here a
    cases ht.symm.trans hregister
    exact .keyspace htaken there (update_own same)
  | closed here there => cases (target.register_closed here a).symm.trans hregister
  | log same =>
    obtain ⟨ks, rfl⟩ := Target.exists_of_register_log hregister
    refine .log fun id hid => ?_
    rw [Table.get?_insert_of_ne _ _ hid, same id hid]

theorem next_own (h : Beside a b b') : Beside a (b.next a).backend b' := by
  cases h with
  | @keyspace t t' limit boxes boxes' here there same =>
    cases hbox : boxes a with
    | none =>
      rw [Backend.next, here.next_of_none hbox]
      exact .keyspace here there same
    | some inbox => exact .keyspace (here.next hbox).2.2 there (update_own same)
  | closed here there =>
    rw [next_of_closed here]
    exact .closed here there
  | @log t readers same =>
    rw [Backend.next, Log.next]
    split
    · exact .log same
    · split
      · exact .log same
      · refine .log fun id hid => ?_
        rw [Table.get?_insert_of_ne _ _ hid, same id hid]

theorem drop_own (h : Beside a b b') : Beside a (b.drop a) b' := by
  cases h with
  | keyspace here there same => exact .keyspace (here.drop a) there (update_own same)
  | closed here there => exact .closed here there
  | @log t readers same =>
    change Beside a (.log (t.drop a)) (.log { t.drop a with readers })
    refine .log fun id hid => ?_
    rw [Log.drop, Table.get?_erase_of_ne _ hid, same id hid]

end Beside

end Backend

end Observatory
