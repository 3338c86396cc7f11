import Observatory.Proofs.Transport.Backlog
import Observatory.Transport.Basic

/-!
# What transports hold

A backend holds the writes that it has taken and no others, and gives its readers only what it
holds. The log holds writes as bytes; it gives them back because the bytes of an event that fits
are read as that event, at the time that the text of its time names.
-/

namespace Observatory

/-- The write as the readers of a backend get it. -/
def Backend.given : Backend → Stamped → Stamped
  | .keyspace _ => id
  | .log _ => Stamped.reread

variable {P : Stamped → Prop} {given : Stamped → Stamped}

/-- All items of the window are among the writes. -/
def Window.Within (P : Stamped → Prop) (window : Window Stamped) : Prop :=
  ∀ w ∈ window.items, P w

/-- All entries of the partition stand for writes. -/
def Window.Stands (P : Stamped → Prop) (window : Window LogEntry) : Prop :=
  ∀ entry ∈ window.items, ∃ w, P w ∧ entry = w.toEntry

/-- The backend holds no other writes than these, and gives them out like this. -/
def Backend.Holds (given : Stamped → Stamped) (P : Stamped → Prop) : Backend → Prop
  | .keyspace t =>
    given = id ∧ (∀ channel window, t.windows.get? channel = some window → window.Within P) ∧
      t.stream.Within P
  | .log t =>
    given = Stamped.reread ∧ ∀ key window, t.partitions.get? key = some window → window.Stands P

theorem Window.mem_push {α : Type} {window : Window α} {limit : Nat} {a b : α}
    (h : b ∈ (window.push limit a).items) : b ∈ window.items ∨ b = a := by
  have hmem := List.mem_of_mem_drop h
  rcases List.mem_append.1 hmem with hmem | hmem
  · exact .inl hmem
  · exact .inr (List.mem_singleton.1 hmem)

theorem Window.mem_unread {α : Type} {window : Window α} {offset : Nat} {a : α}
    (h : a ∈ window.unread offset) : a ∈ window.items :=
  List.mem_of_mem_drop h

theorem Window.Within.push {window : Window Stamped} (h : window.Within P) (limit : Nat)
    {w : Stamped} (hw : P w) : (window.push limit w).Within P := by
  intro x hx
  rcases mem_push hx with hx | rfl
  · exact h x hx
  · exact hw

theorem Window.Stands.push {window : Window LogEntry} (h : window.Stands P) (limit : Nat)
    {w : Stamped} (hw : P w) : (window.push limit w.toEntry).Stands P := by
  intro entry hentry
  rcases mem_push hentry with hentry | rfl
  · exact h entry hentry
  · exact ⟨w, hw, rfl⟩

namespace Feed

variable {χ : Type} [DecidableEq χ]

/-- What a feed gives, one of its channels gave. -/
theorem pull_item {read : χ → Nat → Reading} {offsets : Table χ Nat} {ready : List χ}
    {w : Stamped} (h : (pull read offsets ready).result = .item w) :
    ∃ channel offset, (read channel offset).event = some w := by
  induction ready generalizing offsets with
  | nil => cases h
  | cons channel ready ih =>
    unfold pull at h
    cases hevent : (read channel ((offsets.get? channel).getD 0)).event with
    | none =>
      simp only [hevent] at h
      exact ih h
    | some event =>
      simp only [hevent] at h
      cases h
      exact ⟨channel, _, hevent⟩

theorem next_item {f : Feed χ} {read : χ → Nat → Reading} {w : Stamped}
    (h : (f.next read).result = .item w) :
    ∃ channel offset, (read channel offset).event = some w := by
  unfold next at h
  split at h
  · cases h
  · exact pull_item h

end Feed

namespace Keyspace

variable {t : Keyspace}

theorem within_readChannel {channel : ChannelId} {offset : Nat} {w : Stamped}
    (hwindows : ∀ channel window, t.windows.get? channel = some window → window.Within P)
    (h : (t.readChannel channel offset).event = some w) : P w := by
  unfold readChannel readWindow at h
  cases hwindow : t.windows.get? channel with
  | none =>
    rw [hwindow] at h
    simp [Window.unread, Window.empty] at h
  | some window =>
    simp only [hwindow, Option.getD_some] at h
    cases hunread : window.unread offset with
    | nil =>
      rw [hunread] at h
      cases h
    | cons x rest =>
      rw [hunread] at h
      cases h
      exact hwindows channel window hwindow w (Window.mem_unread (hunread ▸ List.mem_cons_self))

theorem mem_of_firstAccepted {pattern : KeyPattern} {offset : Nat} {ws : List Stamped}
    {w : Stamped} (h : (firstAccepted pattern offset ws).2 = some w) : w ∈ ws := by
  induction ws generalizing offset with
  | nil => cases h
  | cons x ws ih =>
    unfold firstAccepted at h
    split at h
    · cases h
      exact List.mem_cons_self
    · exact List.mem_cons_of_mem x (ih h)

theorem within_readStream {pattern : KeyPattern} {offset : Nat} {w : Stamped}
    (hstream : t.stream.Within P) (h : (t.readStream pattern offset).event = some w) : P w :=
  hstream w (Window.mem_unread (mem_of_firstAccepted h))

theorem holds_openChannel {key : EventKey} (h : (Backend.keyspace t).Holds given P) :
    (Backend.keyspace (t.openChannel key).2).Holds given P := by
  unfold openChannel
  split
  · exact h
  · refine ⟨h.1, fun channel window hwindow => ?_, h.2.2⟩
    by_cases hchannel : channel = t.nextChannel
    · -- A new channel is empty.
      subst hchannel
      rw [Table.get?_insert_self] at hwindow
      cases hwindow
      exact fun w hw => absurd hw List.not_mem_nil
    · rw [Table.get?_insert_of_ne _ _ hchannel] at hwindow
      exact h.2.1 channel window hwindow

theorem holds_openChannels {keys : List EventKey} (h : (Backend.keyspace t).Holds given P) :
    (Backend.keyspace (t.openChannels keys).2).Holds given P := by
  induction keys generalizing t with
  | nil => exact h
  | cons key keys ih => exact ih (holds_openChannel h)

theorem holds_publishOnKey {w : Stamped} (h : (Backend.keyspace t).Holds given P) (hw : P w) :
    (Backend.keyspace (t.publishOnKey w)).Holds given P := by
  unfold publishOnKey
  split
  next => exact h
  next channel _ =>
    split
    · exact h
    · refine ⟨h.1, fun channel' window hwindow => ?_, h.2.2⟩
      by_cases hchannel : channel' = channel
      · subst hchannel
        rw [Table.get?_modify_self] at hwindow
        obtain ⟨before, hbefore, rfl⟩ := Option.map_eq_some_iff.1 hwindow
        exact (h.2.1 channel' before hbefore).push t.depth hw
      · rw [Table.get?_modify_of_ne _ _ hchannel] at hwindow
        exact h.2.1 channel' window hwindow

theorem holds_publishOnStream {w : Stamped} (h : (Backend.keyspace t).Holds given P) (hw : P w) :
    (Backend.keyspace (t.publishOnStream w)).Holds given P := by
  unfold publishOnStream
  split
  · exact h
  · exact ⟨h.1, h.2.1, h.2.2.push t.depth hw⟩

end Keyspace

namespace Log

variable {t : Log}

/-- An entry that stands for a write is read as the log gives that write back. -/
theorem of_firstReadable {offset : Nat} {entries : List LogEntry} {w : Stamped}
    (hentries : ∀ entry ∈ entries, ∃ x, P x ∧ entry = x.toEntry)
    (hfits : ∀ x, P x → x.event.toBytes.length < 2 ^ 64)
    (h : (firstReadable offset entries).2 = some w) : ∃ x, P x ∧ w = x.reread := by
  cases entries with
  | nil => cases h
  | cons entry rest =>
    obtain ⟨x, hx, rfl⟩ := hentries entry List.mem_cons_self
    have hbytes : Event.ofBytes x.toEntry.bytes = .ok x.event.reread :=
      Event.ofBytes_toBytes (hfits x hx)
    unfold firstReadable at h
    rw [hbytes] at h
    cases h
    exact ⟨x, hx, rfl⟩

theorem stands_readPartition {key : EventKey} {offset : Nat} {w : Stamped}
    (hpartitions : ∀ key window, t.partitions.get? key = some window → window.Stands P)
    (hfits : ∀ x, P x → x.event.toBytes.length < 2 ^ 64)
    (h : (readPartition (t.partition key) offset).event = some w) :
    ∃ x, P x ∧ w = x.reread := by
  refine of_firstReadable (fun entry hentry => ?_) hfits h
  have hmem := Window.mem_unread hentry
  unfold partition at hmem
  cases hwindow : t.partitions.get? key with
  | none =>
    rw [hwindow] at hmem
    exact absurd hmem List.not_mem_nil
  | some window =>
    rw [hwindow] at hmem
    exact hpartitions key window hwindow entry hmem

end Log

namespace Backend.Holds

variable {Q : Stamped → Prop} {backend after : Backend} {id : ReaderId} {w : Stamped}

theorem mono (h : backend.Holds given P) (hPQ : ∀ w, P w → Q w) : backend.Holds given Q := by
  cases backend with
  | keyspace t =>
    exact ⟨h.1, fun channel window hwindow w hw => hPQ w (h.2.1 channel window hwindow w hw),
      fun w hw => hPQ w (h.2.2 w hw)⟩
  | log t =>
    refine ⟨h.1, fun key window hwindow entry hentry => ?_⟩
    obtain ⟨w, hw, rfl⟩ := h.2 key window hwindow entry hentry
    exact ⟨w, hPQ w hw, rfl⟩

/-- A backend holds what was published on it, besides what it held before. -/
theorem publish (h : backend.Holds given P) (hw : P w) (hpublish : backend.publish w = .ok after) :
    after.Holds given P := by
  cases backend with
  | keyspace t =>
    simp only [Backend.publish, Keyspace.publish] at hpublish
    split at hpublish
    · cases hpublish
    · cases hpublish
      exact Keyspace.holds_publishOnStream (Keyspace.holds_publishOnKey h hw) hw
  | log t =>
    simp only [Backend.publish, Log.publish] at hpublish
    split at hpublish
    · cases hpublish
    · cases hpublish
      refine ⟨h.1, fun key window hwindow => ?_⟩
      by_cases hkey : key = w.key
      · subst hkey
        rw [Table.get?_insert_self] at hwindow
        cases hwindow
        refine Window.Stands.push (fun entry hentry => ?_) t.retention hw
        unfold Log.partition at hentry
        -- A key without a partition gets an empty one first.
        cases hbefore : t.partitions.get? w.key with
        | none =>
          rw [hbefore] at hentry
          exact absurd hentry List.not_mem_nil
        | some before =>
          rw [hbefore] at hentry
          exact h.2 w.key before hbefore entry hentry
      · rw [Table.get?_insert_of_ne _ _ hkey] at hwindow
        exact h.2 key window hwindow

theorem subscribe {keys : List EventKey} (h : backend.Holds given P)
    (hsubscribe : backend.subscribe id keys = .ok after) : after.Holds given P := by
  cases backend with
  | keyspace t =>
    simp only [Backend.subscribe, Keyspace.subscribe] at hsubscribe
    split at hsubscribe
    · cases hsubscribe
    · cases hsubscribe
      exact Keyspace.holds_openChannels h
  | log t =>
    simp only [Backend.subscribe, Log.subscribe] at hsubscribe
    split at hsubscribe
    · cases hsubscribe
    · cases hsubscribe
      exact h

theorem patternSubscribe {pattern : KeyPattern} (h : backend.Holds given P)
    (hsubscribe : backend.patternSubscribe id pattern = .ok after) : after.Holds given P := by
  cases backend with
  | keyspace t =>
    simp only [Backend.patternSubscribe, Keyspace.patternSubscribe] at hsubscribe
    split at hsubscribe
    · cases hsubscribe
    · cases hsubscribe
      exact h
  | log t => cases hsubscribe

theorem drop (h : backend.Holds given P) : (backend.drop id).Holds given P := by
  cases backend with
  | keyspace t => exact h
  | log t => exact h

theorem shutdown (h : backend.Holds given P) : backend.shutdown.Holds given P := by
  cases backend with
  | keyspace t =>
    unfold Backend.shutdown Keyspace.shutdown
    dsimp only
    split
    · exact h
    · exact h
  | log t => exact h

/-- Reading moves readers, and changes nothing of what is held. -/
theorem next (h : backend.Holds given P) : (backend.next id).backend.Holds given P := by
  cases backend with
  | keyspace t =>
    simp only [Backend.next, Keyspace.next]
    split
    · exact h
    · split
      · exact h
      · exact h
      · exact h
  | log t =>
    simp only [Backend.next, Log.next]
    split
    · exact h
    · split
      · exact h
      · exact h

/-- What a reader gets, the backend holds, and it is given as the backend gives it. -/
theorem of_next (h : backend.Holds given P) (hfits : ∀ x, P x → x.event.toBytes.length < 2 ^ 64)
    (hnext : (backend.next id).result = .item w) : ∃ x, P x ∧ w = given x := by
  cases backend with
  | keyspace t =>
    obtain ⟨rfl, hwindows, hstream⟩ := h
    simp only [Backend.next, Keyspace.next] at hnext
    split at hnext
    · cases hnext
    · split at hnext
      · cases hnext
      · obtain ⟨channel, offset, hread⟩ := Feed.next_item hnext
        exact ⟨w, Keyspace.within_readChannel hwindows hread, rfl⟩
      · split at hnext
        next event hread =>
          cases hnext
          exact ⟨w, Keyspace.within_readStream hstream hread, rfl⟩
        next => cases hnext
  | log t =>
    obtain ⟨rfl, hpartitions⟩ := h
    simp only [Backend.next, Log.next] at hnext
    split at hnext
    · cases hnext
    · split at hnext
      · cases hnext
      · obtain ⟨key, offset, hread⟩ := Feed.next_item hnext
        exact Log.stands_readPartition hpartitions hfits hread

end Backend.Holds

theorem Keyspace.holds_create {slot capacity : Nat} {t : Keyspace}
    (h : create? slot capacity = some t) : (Backend.keyspace t).Holds id P := by
  unfold create? at h
  split at h
  · cases h
    exact ⟨rfl, fun _ _ hwindow => (nomatch hwindow), fun w hw => absurd hw List.not_mem_nil⟩
  · cases h

theorem Log.holds_create (retention : Nat) :
    (Backend.log (.create retention)).Holds Stamped.reread P :=
  ⟨rfl, fun _ _ hwindow => nomatch hwindow⟩

end Observatory
