import Observatory.Proofs.Transport.Beside

/-!
# Idle readers

A reader that has nothing before it gets nothing, and as long as nothing is published it has nothing
before it, whatever it and all other readers do.
-/

namespace Observatory

variable {id : ReaderId}

@[simp]
theorem kept_nil (limit : Nat) : kept limit [] = [] := by
  simp [kept]

/-! ## Inboxes -/

namespace Inbox

variable {limit : Nat} {backlogs : Table EventKey (List Stamped)}

def Empty : Inbox → Prop
  | .keys backlogs _ => ∀ key backlog, backlogs.get? key = some backlog → backlog = []
  | .pattern _ backlog => backlog = []

theorem empty_ofKeys (keys : List EventKey) : (ofKeys keys).Empty := by
  intro key backlog hbacklog
  obtain ⟨key', -, heq⟩ := List.mem_map.1 (Table.mem_entries_of_get? hbacklog)
  cases heq
  rfl

theorem empty_ask (limit : Nat) {ready : List EventKey} (h : (Inbox.keys backlogs ready).Empty) :
    (ask limit backlogs ready).result = .pending ∧ (ask limit backlogs ready).inbox.Empty := by
  induction ready generalizing backlogs with
  | nil => exact ⟨rfl, h⟩
  | cons key ready ih =>
    have hnone : (backlogs.get? key).getD [] = [] := by
      cases hbacklog : backlogs.get? key with
      | none => rfl
      | some backlog => exact h key backlog hbacklog
    have hrest : (Inbox.keys (backlogs.insert key []) ready).Empty := by
      intro key' backlog hbacklog
      by_cases heq : key' = key
      · rw [heq, Table.get?_insert_self] at hbacklog
        exact (Option.some.inj hbacklog).symm
      · rw [Table.get?_insert_of_ne _ _ heq] at hbacklog
        exact h key' backlog hbacklog
    rw [ask, hnone, kept_nil]
    exact ih hrest

theorem empty_take {inbox : Inbox} (h : inbox.Empty) :
    (∀ w, (inbox.take limit).result ≠ .item w) ∧ (inbox.take limit).inbox.Empty := by
  cases inbox with
  | keys backlogs ready =>
    unfold take
    dsimp only
    split
    · exact ⟨by simp, h⟩
    · obtain ⟨hresult, hempty⟩ := empty_ask limit h
      exact ⟨by simp [hresult], hempty⟩
  | pattern p backlog =>
    obtain rfl : backlog = [] := h
    exact ⟨by simp [take], by simp [take, Empty]⟩

end Inbox

theorem Target.empty_inbox (target : Target) : target.inbox.Empty := by
  cases target with
  | keys ks => exact Inbox.empty_ofKeys _
  | pattern p observeOnly => rfl

/-! ## Partitions -/

namespace Log

variable {t : Log} {feed : Feed EventKey}

/-- The reader is at the end of all partitions that it follows. -/
structure Caught (t : Log) (feed : Feed EventKey) : Prop where
  ready : ∀ key ∈ feed.ready, feed.offsets.contains key = true
  ends : ∀ key place, feed.offsets.get? key = some place → place = (t.partition key).head

theorem Caught.withReaders (h : t.Caught feed) (readers : Table ReaderId (Feed EventKey)) :
    { t with readers }.Caught feed :=
  ⟨h.ready, h.ends⟩

theorem readPartition_head (window : Window LogEntry) :
    (readPartition window window.head).event = none ∧
      (readPartition window window.head).offset = window.head := by
  have hbase : max window.head window.base = window.head :=
    Nat.max_eq_left (Nat.le_add_right _ _)
  rw [readPartition, hbase, Window.unread_head]
  exact ⟨rfl, rfl⟩

theorem Caught.pull {offsets : Table EventKey Nat} {ready : List EventKey}
    (h : t.Caught ⟨offsets, ready⟩) :
    let pull := Feed.pull (fun key => readPartition (t.partition key)) offsets ready
    pull.result = .pending ∧ t.Caught pull.feed := by
  induction ready generalizing offsets with
  | nil => exact ⟨rfl, h⟩
  | cons key ready ih =>
    obtain ⟨place, hplace⟩ := Option.isSome_iff_exists.1 (h.ready key List.mem_cons_self)
    obtain rfl := h.ends key place hplace
    obtain ⟨hevent, hoffset⟩ := readPartition_head (t.partition key)
    have hrest : t.Caught ⟨offsets.insert key (t.partition key).head, ready⟩ := by
      constructor
      · intro key' hkey'
        have hold := h.ready key' (List.mem_cons_of_mem key hkey')
        rw [Table.contains_insert]
        exact Bool.or_eq_true_iff.2 (.inr hold)
      · intro key' place hplace'
        by_cases heq : key' = key
        · subst heq
          rw [Table.get?_insert_self] at hplace'
          exact (Option.some.inj hplace').symm
        · rw [Table.get?_insert_of_ne _ _ heq] at hplace'
          exact h.ends key' place hplace'
    simp only [Feed.pull, hplace, Option.getD_some, hevent, hoffset]
    exact ih hrest

theorem Caught.next (h : t.Caught feed) :
    let next := feed.next fun key => readPartition (t.partition key)
    (∀ w, next.result ≠ .item w) ∧ t.Caught next.feed := by
  unfold Feed.next
  split
  · exact ⟨by simp, h⟩
  · obtain ⟨hresult, hcaught⟩ := h.pull
    exact ⟨by simp [hresult], hcaught⟩

theorem caught_start (t : Log) (keys : List EventKey) :
    t.Caught (.start (keys.map fun key => (key, (t.partition key).head))) where
  ready key hkey := by
    rw [Table.contains_iff_mem_keys]
    exact hkey
  ends key place hplace := by
    obtain ⟨key', -, heq⟩ := List.mem_map.1 (Table.mem_entries_of_get? hplace)
    cases heq
    rfl

end Log

/-! ## Backends -/

namespace Backend

/-- The backend is one that has come about by its own operations. -/
inductive Sound (limit : Nat) : Backend → Prop where
  | keyspace {t : Keyspace} {boxes : ReaderId → Option Inbox} (h : t.Keeps limit boxes) :
      Sound limit (.keyspace t)
  | closed {t : Keyspace} (h : t.closed = true) : Sound limit (.keyspace t)
  | log (t : Log) : Sound limit (.log t)

/-- The reader, if it is there, has nothing before it. -/
inductive Idle (id : ReaderId) : Backend → Prop where
  | keyspace {t : Keyspace} {limit : Nat} {boxes : ReaderId → Option Inbox}
      (h : t.Keeps limit boxes) (hempty : ∀ inbox, boxes id = some inbox → inbox.Empty) :
      Idle id (.keyspace t)
  | closed {t : Keyspace} (h : t.closed = true) : Idle id (.keyspace t)
  | log {t : Log} (h : ∀ feed, t.readers.get? id = some feed → t.Caught feed) : Idle id (.log t)

variable {b c : Backend} {id' : ReaderId} {limit : Nat}

namespace Sound

theorem publish (h : b.Sound limit) {w : Stamped} (hpublish : b.publish w = .ok c) :
    c.Sound limit := by
  cases h with
  | keyspace h =>
    obtain ⟨t, ht, htaken⟩ := h.publish w
    simp only [Backend.publish, ht] at hpublish
    cases hpublish
    exact .keyspace htaken
  | closed h =>
    simp only [Backend.publish, Keyspace.publish, h] at hpublish
    cases hpublish
  | log t =>
    simp only [Backend.publish, Log.publish] at hpublish
    split at hpublish
    · cases hpublish
    · cases hpublish
      exact .log _

theorem register (h : b.Sound limit) {target : Target} (hregister : target.register id b = .ok c) :
    c.Sound limit := by
  cases h with
  | keyspace h =>
    obtain ⟨t, ht, htaken⟩ := target.register_keyspace h id
    cases ht.symm.trans hregister
    exact .keyspace htaken
  | closed h => cases (target.register_closed h id).symm.trans hregister
  | log t =>
    obtain ⟨ks, rfl⟩ := Target.exists_of_register_log hregister
    exact .log _

theorem next (h : b.Sound limit) (id : ReaderId) : (b.next id).backend.Sound limit := by
  cases h with
  | @keyspace t boxes h =>
    cases hbox : boxes id with
    | none =>
      rw [Backend.next, h.next_of_none hbox]
      exact .keyspace h
    | some inbox => exact .keyspace (h.next hbox).2.2
  | closed h =>
    rw [next_of_closed h]
    exact .closed h
  | log t => exact .log _

theorem drop (h : b.Sound limit) (id : ReaderId) : (b.drop id).Sound limit := by
  cases h with
  | keyspace h => exact .keyspace (h.drop id)
  | closed h => exact .closed h
  | log t => exact .log _

theorem shutdown (h : b.Sound limit) : b.shutdown.Sound limit := by
  cases h with
  | keyspace h =>
    rw [Backend.shutdown, Keyspace.shutdown, if_neg (by simp [h.isOpen])]
    exact .closed rfl
  | closed h =>
    rw [Backend.shutdown, Keyspace.shutdown, if_pos h]
    exact .closed h
  | log t => exact .log _

end Sound

namespace Idle

theorem start (h : b.Sound limit) {target : Target} (hregister : target.register id b = .ok c) :
    c.Idle id := by
  cases h with
  | keyspace h =>
    obtain ⟨t, ht, htaken⟩ := target.register_keyspace h id
    cases ht.symm.trans hregister
    refine .keyspace htaken fun inbox hinbox => ?_
    rw [Function.update_self] at hinbox
    exact Option.some.inj hinbox ▸ target.empty_inbox
  | closed h => cases (target.register_closed h id).symm.trans hregister
  | log t =>
    obtain ⟨ks, rfl⟩ := Target.exists_of_register_log hregister
    refine .log fun feed hfeed => ?_
    rw [Table.get?_insert_self] at hfeed
    cases hfeed
    exact (Log.caught_start t _).withReaders _

theorem register (h : b.Idle id) {target : Target} (hregister : target.register id' b = .ok c) :
    c.Idle id := by
  cases h with
  | keyspace h hempty =>
    obtain ⟨t, ht, htaken⟩ := target.register_keyspace h id'
    cases ht.symm.trans hregister
    refine .keyspace htaken fun inbox hinbox => ?_
    rw [Function.update_apply] at hinbox
    split at hinbox
    · exact Option.some.inj hinbox ▸ target.empty_inbox
    · exact hempty inbox hinbox
  | closed h => cases (target.register_closed h id').symm.trans hregister
  | @log t h =>
    obtain ⟨ks, rfl⟩ := Target.exists_of_register_log hregister
    refine .log fun feed hfeed => ?_
    by_cases hid : id = id'
    · rw [hid, Table.get?_insert_self] at hfeed
      cases hfeed
      exact (Log.caught_start t _).withReaders _
    · rw [Table.get?_insert_of_ne _ _ hid] at hfeed
      exact (h feed hfeed).withReaders _

/-- Nobody gives an idle reader an event. -/
theorem result_next (h : b.Idle id) (w : Stamped) : (b.next id).result ≠ .item w := by
  cases h with
  | @keyspace t limit boxes h hempty =>
    cases hbox : boxes id with
    | none =>
      rw [Backend.next, h.next_of_none hbox]
      simp
    | some inbox =>
      change (t.next id).result ≠ _
      rw [(h.next hbox).1]
      exact (Inbox.empty_take (hempty inbox hbox)).1 w
  | closed h =>
    rw [next_of_closed h]
    simp
  | @log t h =>
    change (t.next id).result ≠ _
    unfold Log.next
    split
    · simp
    · cases hfeed : t.readers.get? id with
      | none => simp
      | some feed => exact (h feed hfeed).next.1 w

theorem next (h : b.Idle id) (id' : ReaderId) : (b.next id').backend.Idle id := by
  cases h with
  | @keyspace t limit boxes h hempty =>
    cases hbox : boxes id' with
    | none =>
      rw [Backend.next, h.next_of_none hbox]
      exact .keyspace h hempty
    | some inbox =>
      refine .keyspace (h.next hbox).2.2 fun inbox' hinbox' => ?_
      -- An inbox that had nothing to give has nothing after it was asked.
      rw [Function.update_apply] at hinbox'
      split at hinbox'
      next hid =>
        rw [← Option.some.inj hinbox']
        exact (Inbox.empty_take (hempty inbox (hid ▸ hbox))).2
      next => exact hempty inbox' hinbox'
  | closed h =>
    rw [next_of_closed h]
    exact .closed h
  | @log t h =>
    change Idle id (.log (t.next id').transport)
    unfold Log.next
    split
    · exact .log h
    · cases hfeed : t.readers.get? id' with
      | none => exact .log h
      | some feed =>
        refine .log fun feed' hfeed' => ?_
        by_cases hid : id = id'
        · rw [hid, Table.get?_insert_self] at hfeed'
          cases hfeed'
          exact (h feed (hid ▸ hfeed)).next.2.withReaders _
        · rw [Table.get?_insert_of_ne _ _ hid] at hfeed'
          exact (h feed' hfeed').withReaders _

theorem drop (h : b.Idle id) (id' : ReaderId) : (b.drop id').Idle id := by
  cases h with
  | keyspace h hempty =>
    refine .keyspace (h.drop id') fun inbox hinbox => ?_
    rw [Function.update_apply] at hinbox
    split at hinbox
    · cases hinbox
    · exact hempty inbox hinbox
  | closed h => exact .closed h
  | log h =>
    refine .log fun feed hfeed => ?_
    by_cases hid : id = id'
    · rw [hid, Log.drop, Table.get?_erase_self] at hfeed
      cases hfeed
    · rw [Log.drop, Table.get?_erase_of_ne _ hid] at hfeed
      exact (h feed hfeed).withReaders _

theorem shutdown (h : b.Idle id) : b.shutdown.Idle id := by
  cases h with
  | keyspace h =>
    rw [Backend.shutdown, Keyspace.shutdown, if_neg (by simp [h.isOpen])]
    exact .closed rfl
  | closed h =>
    rw [Backend.shutdown, Keyspace.shutdown, if_pos h]
    exact .closed h
  | log h => exact .log fun feed hfeed => ⟨(h feed hfeed).ready, (h feed hfeed).ends⟩

end Idle

end Backend

end Observatory
