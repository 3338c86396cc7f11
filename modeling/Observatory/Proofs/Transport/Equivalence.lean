import Observatory.Proofs.Transport.Backlog
import Observatory.Proofs.Transport.Wiring
import Observatory.Transport.Basic

/-!
# The keyspace and the log

To those who use exact keys only, the keyspace and the log are the same transport: a log that keeps
as many events as a channel does answers every sequence of queries as the keyspace does. What the
two have in common is the backlog of every reader on every key that it follows.

There is one exception. The log carries events as bytes, and bytes have no form for a leap second
that does not end a minute, so an event at such a time comes back from the log at another time.
-/

namespace Observatory

/-! ## Queries -/

/-- What is asked of a backend by those who use exact keys only. -/
inductive Query where
  | publish (w : Stamped)
  | subscribe (id : ReaderId) (keys : List EventKey)
  | read (id : ReaderId)
  | drop (id : ReaderId)
  | shutdown

/-- What comes back. -/
inductive Answer where
  | done
  | refused (error : TransportError)
  /-- What a reader got, and how many events it missed. -/
  | got (result : Poll Stamped) (skipped : Nat)
  deriving DecidableEq

/-- The error as it reads in a transport of another name. -/
def TransportError.under (name : String) : TransportError → TransportError
  | .closed _ => .closed name
  | error => error

/-- The answer as it reads in a transport of another name. -/
def Answer.under (name : String) : Answer → Answer
  | .refused error => .refused (error.under name)
  | answer => answer

namespace Backend

def change (before : Backend) : Except TransportError Backend → Answer × Backend
  | .ok after => (.done, after)
  | .error error => (.refused error, before)

def ask (backend : Backend) : Query → Answer × Backend
  | .publish w => backend.change (backend.publish w)
  | .subscribe id keys => backend.change (backend.subscribe id keys)
  | .read id =>
    let next := backend.next id
    (.got next.result next.skipped, next.backend)
  | .drop id => (.done, backend.drop id)
  | .shutdown => (.done, backend.shutdown)

def answers (backend : Backend) : List Query → List Answer
  | [] => []
  | query :: queries => (backend.ask query).1 :: (backend.ask query).2.answers queries

end Backend

/-! ## Readers -/

/-- The log gives the write back as it took it. -/
structure Stamped.Preserved (w : Stamped) : Prop where
  fits : w.Fits
  reread : w.reread = w

variable {limit : Nat} {t t' : Keyspace} {l l' : Log} {a : Table ChannelId Nat}
  {b : Table EventKey Nat} {key : EventKey} {channel : ChannelId} {backlog : List Stamped}

/-- A reader at these places has the same backlog on a key in both transports. -/
structure Shares (limit : Nat) (t : Keyspace) (l : Log) (a : Table ChannelId Nat)
    (b : Table EventKey Nat) (key : EventKey) (channel : ChannelId) (backlog : List Stamped) :
    Prop where
  wired : t.channels.get? key = some channel
  preserved : ∀ w ∈ backlog, w.Preserved
  keyspace : ∃ window offset, t.windows.get? channel = some window ∧
    a.get? channel = some offset ∧ window.Lags limit offset backlog
  log : ∃ offset, b.get? key = some offset ∧
    (l.partition key).Lags limit offset (backlog.map Stamped.toEntry)

/-- A reader at these places follows the same keys in both transports, with the same backlogs. -/
structure Places (limit : Nat) (t : Keyspace) (l : Log) (a : Table ChannelId Nat)
    (b : Table EventKey Nat) : Prop where
  there : ∀ key, b.contains key = true → ∃ channel backlog, Shares limit t l a b key channel backlog
  here : ∀ channel, a.contains channel = true →
    ∃ key, b.contains key = true ∧ t.channels.get? key = some channel

/-- The channel is the one of a key that is followed. -/
def Follows (t : Keyspace) (b : Table EventKey Nat) (channel : ChannelId) (key : EventKey) : Prop :=
  b.contains key = true ∧ t.channels.get? key = some channel

/-- The feeds are those of one reader: they have the same backlogs, and ask in the same order. -/
structure Alike (limit : Nat) (t : Keyspace) (l : Log) (f : Feed ChannelId) (g : Feed EventKey) :
    Prop where
  places : Places limit t l f.offsets g.offsets
  ready : List.Forall₂ (Follows t g.offsets) f.ready g.ready

namespace Places

/-- Only what happens on the keys that are followed matters. -/
theorem frame (h : Places limit t l a b)
    (hkeys : ∀ key channel, b.contains key = true → t.channels.get? key = some channel →
      t'.channels.get? key = some channel ∧ t'.windows.get? channel = t.windows.get? channel ∧
        l'.partition key = l.partition key) : Places limit t' l' a b where
  there key hkey := by
    obtain ⟨channel, backlog, hchannel, hpreserved, ⟨window, offset, hwindow, hoffset, hlags⟩,
      hlog⟩ :=
      h.there key hkey
    obtain ⟨hchannel', hwindow', hpartition⟩ := hkeys key channel hkey hchannel
    exact ⟨channel, backlog, hchannel', hpreserved,
      ⟨window, offset, hwindow'.trans hwindow, hoffset, hlags⟩, hpartition.symm ▸ hlog⟩
  here channel hchannel := by
    obtain ⟨key, hkey, hsame⟩ := h.here channel hchannel
    exact ⟨key, hkey, (hkeys key channel hkey hsame).1⟩

theorem contains_eq (h : Places limit t l a b) (hwired : t.Wired)
    (hkey : t.channels.get? key = some channel) : a.contains channel = b.contains key := by
  rw [Bool.eq_iff_iff]
  constructor
  · intro hchannel
    obtain ⟨key', hkey', hsame⟩ := h.here channel hchannel
    rwa [hwired.apart hkey hsame]
  · intro hcontains
    obtain ⟨channel', _, hchannel', _, ⟨_, _, _, hoffset, _⟩, _⟩ := h.there key hcontains
    obtain rfl := Option.some.inj (hkey.symm.trans hchannel')
    exact Table.contains_of_get? hoffset

theorem isEmpty_eq (h : Places limit t l a b) : a.isEmpty = b.isEmpty := by
  rw [Bool.eq_iff_iff, Table.isEmpty_iff, Table.isEmpty_iff]
  constructor
  · intro hnone key
    by_contra hkey
    obtain ⟨channel, _, _, _, ⟨_, _, _, hoffset, _⟩, _⟩ := h.there key (by simpa using hkey)
    simpa [hnone channel] using Table.contains_of_get? hoffset
  · intro hnone channel
    by_contra hchannel
    obtain ⟨key, hkey, _⟩ := h.here channel (by simpa using hchannel)
    simp [hnone key] at hkey

/-- Moving on at one key leaves the backlogs of all others as they are. -/
theorem move (h : Places limit t l a b) (hwired : t.Wired) {x y : Nat}
    (hshares : Shares limit t l (a.insert channel x) (b.insert key y) key channel backlog) :
    Places limit t l (a.insert channel x) (b.insert key y) where
  there key' hkey' := by
    by_cases heq : key' = key
    · subst heq
      exact ⟨channel, backlog, hshares⟩
    · simp only [Table.contains_insert, heq, decide_false, Bool.false_or] at hkey'
      obtain ⟨channel', backlog', hchannel, hpreserved, ⟨window, offset, hwindow, hoffset, hlags⟩,
        ⟨place, hplace, hlags'⟩⟩ := h.there key' hkey'
      have hne : channel' ≠ channel := by
        rintro rfl
        exact heq (hwired.apart hchannel hshares.wired)
      refine ⟨channel', backlog', hchannel, hpreserved, ⟨window, offset, hwindow, ?_, hlags⟩,
        ⟨place, ?_, hlags'⟩⟩
      · rw [Table.get?_insert_of_ne _ _ hne, hoffset]
      · rw [Table.get?_insert_of_ne _ _ heq, hplace]
  here channel' hchannel' := by
    rw [Table.contains_insert, Bool.or_eq_true, decide_eq_true_eq] at hchannel'
    rcases hchannel' with rfl | hchannel'
    · exact ⟨key, by simp, hshares.wired⟩
    · obtain ⟨key', hkey', hsame⟩ := h.here channel' hchannel'
      exact ⟨key', by simp [hkey'], hsame⟩

end Places

/-! ## Reading -/

/-- Asking the same channels in the same order gives the same. -/
theorem pull_alike (hlimit : 0 < limit) (hwired : t.Wired) {channels : List ChannelId}
    {keys : List EventKey} (hplaces : Places limit t l a b)
    (hready : List.Forall₂ (Follows t b) channels keys) :
    let here := Feed.pull t.readChannel a channels
    let there := Feed.pull (fun key => Log.readPartition (l.partition key)) b keys
    here.result = there.result ∧ here.skipped = there.skipped ∧
      Alike limit t l here.feed there.feed := by
  induction channels generalizing a b keys with
  | nil =>
    cases hready
    exact ⟨rfl, rfl, hplaces, .nil⟩
  | cons channel channels ih =>
    cases hready with | @cons _ key _ keys hfollows hready
    obtain ⟨channel', backlog, hchannel, hpreserved, ⟨window, offset, hwindow, hoffset, hlags⟩,
      ⟨place, hplace, hlags'⟩⟩ := hplaces.there key hfollows.1
    obtain rfl := Option.some.inj (hchannel.symm.trans hfollows.2)
    -- Both ask for the same key first. They give its event, or go on with the same backlogs.
    have hhere := Keyspace.readWindow_of hlimit hlags
    have hthere := Log.readPartition_of hlimit (fun w hw => (hpreserved w hw).fits) hlags'
    have hread : t.readChannel channel' ((a.get? channel').getD 0) =
        Keyspace.readWindow window offset := by
      simp [Keyspace.readChannel, hwindow, hoffset]
    have hshares : Shares limit t l
        (a.insert channel' (Keyspace.readWindow window offset).offset)
        (b.insert key (Log.readPartition (l.partition key) place).offset) key channel'
        (kept limit backlog).tail :=
      ⟨hchannel, fun w hw => hpreserved w (List.mem_of_mem_drop (List.mem_of_mem_tail hw)),
        ⟨window, _, hwindow, Table.get?_insert_self .., by simpa using hhere.after⟩,
        ⟨_, Table.get?_insert_self .., hthere.after⟩⟩
    have hmoved := hplaces.move hwired hshares
    have hstill : ∀ {channel key'}, Follows t b channel key' →
        Follows t (b.insert key (Log.readPartition (l.partition key) place).offset) channel key' :=
      fun hfollows => ⟨by simp [hfollows.1], hfollows.2⟩
    have hevent : (Keyspace.readWindow window offset).event =
        (Log.readPartition (l.partition key) place).event := by
      rw [hhere.event, hthere.event]
      refine Option.map_congr fun w hw => ?_
      exact (hpreserved w (List.mem_of_mem_drop (List.mem_of_mem_head? hw))).reread.symm
    have hskipped : (Keyspace.readWindow window offset).skipped =
        (Log.readPartition (l.partition key) place).skipped :=
      hhere.skipped.trans hthere.skipped.symm
    simp only [Feed.pull, hread, hplace, Option.getD_some, hevent]
    cases (Log.readPartition (l.partition key) place).event with
    | some w =>
      refine ⟨rfl, hskipped, hmoved, ?_⟩
      exact List.rel_append (hready.imp fun _ _ => hstill) (.cons (hstill hfollows) .nil)
    | none =>
      obtain ⟨hresult, hlater, halike⟩ := ih hmoved (hready.imp fun _ _ => hstill)
      exact ⟨hresult, by rw [hskipped, hlater], halike⟩

variable {w : Stamped} {f : Feed ChannelId} {g : Feed EventKey}

theorem Alike.next (h : Alike limit t l f g) (hlimit : 0 < limit) (hwired : t.Wired) :
    let here := f.next t.readChannel
    let there := g.next fun key => Log.readPartition (l.partition key)
    here.result = there.result ∧ here.skipped = there.skipped ∧
      Alike limit t l here.feed there.feed := by
  unfold Feed.next
  rw [h.places.isEmpty_eq]
  split
  · exact ⟨rfl, rfl, h⟩
  · exact pull_alike hlimit hwired h.places h.ready

/-! ## Publishing -/

theorem contains_ready (hwired : t.Wired) {channels : List ChannelId} {keys : List EventKey}
    (hready : List.Forall₂ (Follows t b) channels keys)
    (hkey : t.channels.get? key = some channel) :
    channels.contains channel = keys.contains key := by
  induction hready with
  | nil => rfl
  | @cons channel' key' _ _ hfollows _ ih =>
    have hsame : channel = channel' ↔ key = key' := by
      constructor
      · rintro rfl
        exact hwired.apart hkey hfollows.2
      · rintro rfl
        exact Option.some.inj (hkey.symm.trans hfollows.2)
    simp only [List.contains_cons, ih, beq_eq_decide, hsame]

/-- Publishing on a key adds to the backlog of everyone who follows it. -/
theorem Places.push (h : Places limit t l a b) (hwired : t.Wired) (hlimit : 0 < limit)
    (hpreserved : w.Preserved) (hkey : t.channels.get? w.key = some channel)
    (hchannels : t'.channels = t.channels)
    (hwindows : t'.windows = t.windows.modify channel fun window => window.push limit w)
    (hpartition : ∀ key, l'.partition key =
      if key = w.key then (l.partition key).push limit w.toEntry else l.partition key) :
    Places limit t' l' a b where
  there key hcontains := by
    obtain ⟨channel', backlog, hchannel, hall, ⟨window, offset, hwindow, hoffset, hlags⟩,
      ⟨place, hplace, hlags'⟩⟩ := h.there key hcontains
    by_cases heq : key = w.key
    · subst heq
      obtain rfl := Option.some.inj (hkey.symm.trans hchannel)
      refine ⟨channel, backlog ++ [w], hchannels ▸ hchannel, ?_,
        ⟨window.push limit w, offset, ?_, hoffset, hlags.push hlimit w⟩, ⟨place, hplace, ?_⟩⟩
      · intro x hx
        rcases List.mem_append.1 hx with hx | hx
        · exact hall x hx
        · exact List.mem_singleton.1 hx ▸ hpreserved
      · rw [hwindows, Table.get?_modify_self, hwindow]
        rfl
      · rw [hpartition, if_pos rfl, List.map_append]
        exact hlags'.push hlimit w.toEntry
    -- Another key has another channel, so neither window changes.
    · have hne : channel' ≠ channel := by
        rintro rfl
        exact heq (hwired.apart hchannel hkey)
      refine ⟨channel', backlog, hchannels ▸ hchannel, hall,
        ⟨window, offset, ?_, hoffset, hlags⟩, ⟨place, hplace, ?_⟩⟩
      · rw [hwindows, Table.get?_modify_of_ne _ _ hne, hwindow]
      · rwa [hpartition, if_neg heq]
  here channel' hcontains := by
    obtain ⟨key, hfollowed, hsame⟩ := h.here channel' hcontains
    exact ⟨key, hfollowed, hchannels ▸ hsame⟩

namespace Alike

theorem frame (h : Alike limit t l f g)
    (hkeys : ∀ key channel, g.offsets.contains key = true → t.channels.get? key = some channel →
      t'.channels.get? key = some channel ∧ t'.windows.get? channel = t.windows.get? channel ∧
        l'.partition key = l.partition key) : Alike limit t' l' f g where
  places := h.places.frame hkeys
  ready := h.ready.imp fun channel key hfollows =>
    ⟨hfollows.1, (hkeys key channel hfollows.1 hfollows.2).1⟩

theorem wake (h : Alike limit t l f g) (hwired : t.Wired)
    (hkey : t.channels.get? key = some channel) :
    Alike limit t l (f.wake channel) (g.wake key) := by
  have hfollows := h.places.contains_eq hwired hkey
  have hready := contains_ready hwired h.ready hkey
  unfold Feed.wake Feed.follows
  rw [hfollows, hready]
  split
  next hboth =>
    rw [Bool.and_eq_true] at hboth
    exact ⟨h.places, List.rel_append h.ready (.cons ⟨hboth.1, hkey⟩ .nil)⟩
  next => exact h

theorem push (h : Alike limit t l f g) (hwired : t.Wired) (hlimit : 0 < limit)
    (hpreserved : w.Preserved) (hkey : t.channels.get? w.key = some channel)
    (hchannels : t'.channels = t.channels)
    (hwindows : t'.windows = t.windows.modify channel fun window => window.push limit w)
    (hpartition : ∀ key, l'.partition key =
      if key = w.key then (l.partition key).push limit w.toEntry else l.partition key) :
    Alike limit t' l' (f.wake channel) (g.wake w.key) := by
  have hwoken := h.wake hwired hkey
  refine ⟨hwoken.places.push hwired hlimit hpreserved hkey hchannels hwindows hpartition, ?_⟩
  exact hwoken.ready.imp fun channel' key hfollows => ⟨hfollows.1, hchannels ▸ hfollows.2⟩

end Alike

/-! ## Both transports -/

/-- The reader is in neither transport, or the same one in both. -/
def SameReader (limit : Nat) (t : Keyspace) (l : Log) (id : ReaderId) : Prop :=
  (t.readers.get? id = none ∧ l.readers.get? id = none) ∨
    ∃ f g, t.readers.get? id = some (.keys f) ∧ l.readers.get? id = some g ∧ Alike limit t l f g

/-- The transports have the same readers with the same backlogs, as long as they are open. -/
structure Twins (limit : Nat) (t : Keyspace) (l : Log) : Prop where
  positive : 0 < limit
  depth : t.depth = limit
  retention : l.retention = limit
  closed : l.closed = t.closed
  wired : t.Wired
  bounded : ∀ key, (l.partition key).items.length ≤ limit
  readers : t.closed = false → ∀ id, SameReader limit t l id

/-- The log after it has taken a write. -/
structure Log.Appended (l : Log) (w : Stamped) (l' : Log) : Prop where
  retention : l'.retention = l.retention
  closed : l'.closed = l.closed
  readers : l'.readers = l.readers.map fun feed => feed.wake w.key
  partition : ∀ key, l'.partition key =
    if key = w.key then (l.partition key).push l.retention w.toEntry else l.partition key

theorem Log.publish_of_open (hopen : l.closed = false) (w : Stamped) :
    ∃ l', l.publish w = .ok l' ∧ l.Appended w l' := by
  unfold Log.publish
  rw [if_neg (by simp [hopen])]
  refine ⟨_, rfl, rfl, rfl, rfl, fun key => ?_⟩
  by_cases hkey : key = w.key
  · subst hkey
    simp [Log.partition, Stamped.toEntry]
  · simp [Log.partition, hkey]

namespace Twins

theorem bounded_appended (h : Twins limit t l) (happended : l.Appended w l') (key : EventKey) :
    (l'.partition key).items.length ≤ limit := by
  rw [happended.partition, h.retention]
  split
  · exact Window.length_push_le _ _ _
  · exact h.bounded key

/-- A publish that nobody hears, where the key has no channel, or none afterwards. -/
theorem skip (h : Twins limit t l) (happended : l.Appended w l')
    {channels : Table EventKey ChannelId} (hchannels : ∀ key, channels.get? key =
      if key = w.key then none else t.channels.get? key)
    (hunheard : ∀ id f, t.readers.get? id = some (.keys f) →
      ∀ channel, t.channels.get? w.key = some channel → f.offsets.contains channel = false) :
    Twins limit { t with channels } l' := by
  refine ⟨h.positive, h.depth, happended.retention.trans h.retention,
    happended.closed.trans h.closed, h.wired.without hchannels, h.bounded_appended happended, ?_⟩
  intro hopen id
  rcases h.readers hopen id with ⟨hhere, hthere⟩ | ⟨f, g, hhere, hthere, halike⟩
  · exact .inl ⟨hhere, by simp [happended.readers, hthere]⟩
  · -- A reader that followed the key would have been on its channel.
    have hnot : ∀ key, g.offsets.contains key = true → key ≠ w.key := by
      rintro _ hkey rfl
      obtain ⟨channel, _, hshares⟩ := halike.places.there w.key hkey
      have hnone := hunheard id f hhere channel hshares.wired
      rw [halike.places.contains_eq h.wired hshares.wired, hkey] at hnone
      cases hnone
    have hquiet : g.wake w.key = g := by
      unfold Feed.wake Feed.follows
      rw [if_neg]
      intro hboth
      exact hnot w.key (Bool.and_eq_true_iff.1 hboth).1 rfl
    refine .inr ⟨f, g, hhere, by simp [happended.readers, hthere, hquiet], ?_⟩
    refine halike.frame fun key channel hkey hchannel => ?_
    have hne := hnot key hkey
    exact ⟨by rw [hchannels, if_neg hne, hchannel], rfl, by rw [happended.partition, if_neg hne]⟩

/-- A publish that the readers on the key hear. -/
theorem push (h : Twins limit t l) (happended : l.Appended w l') (hpreserved : w.Preserved)
    (hkey : t.channels.get? w.key = some channel) :
    Twins limit
      { t with
        windows := t.windows.modify channel fun window => window.push t.depth w
        readers := t.readers.map (KeyspaceReader.wake channel) } l' := by
  refine ⟨h.positive, h.depth, happended.retention.trans h.retention,
    happended.closed.trans h.closed, ⟨h.wired.apart, h.wired.named, ?window⟩,
    h.bounded_appended happended, ?readers⟩
  case window =>
    intro key channel' hchannel
    obtain ⟨window, hwindow, hlength⟩ := h.wired.window hchannel
    by_cases heq : channel' = channel
    · subst heq
      exact ⟨window.push t.depth w, by simp [Table.get?_modify_self, hwindow],
        Window.length_push_le _ _ _⟩
    · exact ⟨window, by simp [Table.get?_modify_of_ne _ _ heq, hwindow], hlength⟩
  case readers =>
    intro hopen id
    rcases h.readers hopen id with ⟨hhere, hthere⟩ | ⟨f, g, hhere, hthere, halike⟩
    · exact .inl ⟨by simp [hhere], by simp [happended.readers, hthere]⟩
    · refine .inr ⟨f.wake channel, g.wake w.key, by simp [hhere, KeyspaceReader.wake],
        by simp [happended.readers, hthere], ?_⟩
      exact halike.push h.wired h.positive hpreserved hkey rfl (by rw [h.depth])
        (h.retention ▸ happended.partition)

theorem publishOnKey (h : Twins limit t l) (happended : l.Appended w l')
    (hpreserved : w.Preserved) :
    Twins limit (t.publishOnKey w) l' := by
  unfold Keyspace.publishOnKey
  cases hkey : t.channels.get? w.key with
  | none =>
    refine h.skip happended (fun key => ?_) fun _ _ _ channel hchannel => ?_
    · split
      next heq => rw [heq, hkey]
      next => rfl
    · rw [hkey] at hchannel
      cases hchannel
  | some channel =>
    dsimp only
    split
    next hreceivers =>
      -- The channel goes, as it has no receivers.
      refine h.skip happended (fun key => ?_) fun id f hreader channel' hchannel => ?_
      · by_cases heq : key = w.key
        · subst heq
          simp
        · simp [heq]
      · obtain rfl := Option.some.inj (hkey.symm.trans hchannel)
        rw [Keyspace.receivers, List.countP_eq_zero] at hreceivers
        simpa [KeyspaceReader.follows, Feed.follows] using
          hreceivers _ (Table.mem_values_of_get? hreader)
    next => exact h.push happended hpreserved hkey

/-- What is kept for the readers of patterns does not matter. -/
theorem withStream (h : Twins limit t l) (stream : Window Stamped) :
    Twins limit { t with stream } l where
  positive := h.positive
  depth := h.depth
  retention := h.retention
  closed := h.closed
  wired := ⟨h.wired.apart, h.wired.named, h.wired.window⟩
  bounded := h.bounded
  readers hopen id := by
    refine (h.readers hopen id).imp_right ?_
    rintro ⟨f, g, hhere, hthere, halike⟩
    exact ⟨f, g, hhere, hthere, halike.frame fun key channel _ hchannel => ⟨hchannel, rfl, rfl⟩⟩

theorem publish (h : Twins limit t l) (hopen : t.closed = false) (hpreserved : w.Preserved) :
    ∃ t' l', t.publish w = .ok t' ∧ l.publish w = .ok l' ∧ Twins limit t' l' := by
  obtain ⟨l', hthere, happended⟩ := Log.publish_of_open (h.closed.trans hopen) w
  have honKey := h.publishOnKey happended hpreserved
  refine ⟨(t.publishOnKey w).publishOnStream w, l', by simp [Keyspace.publish, hopen], hthere, ?_⟩
  unfold Keyspace.publishOnStream
  split
  · exact honKey
  · exact honKey.withStream _

/-- A new reader is at the end of every key that it follows. -/
theorem start (h : Twins limit t l) {keys : List EventKey} {opened : List (ChannelId × Nat)}
    (hopened : t.Opened opened keys) :
    Alike limit t l (.start opened)
      (.start (keys.map fun key => (key, (l.partition key).head))) := by
  -- Both readers begin at the heads, so neither has anything to catch up on.
  have hthere : ∀ key, (Feed.start (keys.map fun key =>
      (key, (l.partition key).head))).offsets.contains key = true ↔ key ∈ keys := by
    simp [Feed.start, Table.contains_iff_mem_keys, Table.keys]
  refine ⟨⟨fun key hkey => ?there, fun channel hchannel => ?here⟩, ?ready⟩
  case there =>
    have hmem := (hthere key).1 hkey
    obtain ⟨channel, hopen, hchannel⟩ := hopened.exists_channel hmem
    obtain ⟨window, hwindow, hlength⟩ := h.wired.window hchannel
    have hplace := Table.get?_of_forall (f := fun key => (l.partition key).head)
      (by simp [Feed.start]) (Table.contains_iff_mem_keys.1 hkey)
    exact ⟨channel, [], hchannel, by simp, ⟨window, window.head, hwindow,
      hopened.get?_start hopen hwindow, Window.lags_head (h.depth ▸ hlength)⟩,
      ⟨(l.partition key).head, hplace, Window.lags_head (h.bounded key)⟩⟩
  case here =>
    obtain ⟨key, hkey, hsame⟩ := hopened.exists_key (Table.contains_iff_mem_keys.1 hchannel)
    exact ⟨key, (hthere key).2 hkey, hsame⟩
  case ready =>
    have hready :
        (Feed.start (keys.map fun key => (key, (l.partition key).head))).ready = keys := by
      simp [Feed.start, Function.comp_def]
    rw [hready]
    exact hopened.ready_start.imp fun channel key hturn => ⟨(hthere key).2 hturn.1, hturn.2⟩

/-- New channels change nothing for those who are there. -/
theorem extend (h : Twins limit t l) (hwired : t'.Wired) (hextends : t.Extends t') :
    Twins limit t' l where
  positive := h.positive
  depth := by rw [← h.depth, Keyspace.depth, hextends.capacity, Keyspace.depth]
  retention := h.retention
  closed := h.closed.trans hextends.closed.symm
  wired := hwired
  bounded := h.bounded
  readers hopen id := by
    rw [hextends.closed] at hopen
    refine (h.readers hopen id).imp (fun hnone => ⟨hextends.readers ▸ hnone.1, hnone.2⟩) ?_
    rintro ⟨f, g, hhere, hthere, halike⟩
    refine ⟨f, g, hextends.readers ▸ hhere, hthere, halike.frame fun key channel _ hchannel => ?_⟩
    obtain ⟨hchannel', hwindow⟩ := hextends.channels hchannel
    exact ⟨hchannel', hwindow, rfl⟩

theorem withReaders (h : Twins limit t l) {here : Table ReaderId KeyspaceReader}
    {there : Table ReaderId (Feed EventKey)}
    (hreaders : t.closed = false → ∀ id, (here.get? id = none ∧ there.get? id = none) ∨
      ∃ f g, here.get? id = some (.keys f) ∧ there.get? id = some g ∧ Alike limit t l f g) :
    Twins limit { t with readers := here } { l with readers := there } where
  positive := h.positive
  depth := h.depth
  retention := h.retention
  closed := h.closed
  wired := ⟨h.wired.apart, h.wired.named, h.wired.window⟩
  bounded := h.bounded
  readers hopen id := by
    refine (hreaders hopen id).imp_right ?_
    rintro ⟨f, g, hhere, hthere, halike⟩
    exact ⟨f, g, hhere, hthere, halike.frame fun key channel _ hchannel => ⟨hchannel, rfl, rfl⟩⟩

/-- A reader is added, or goes on elsewhere. -/
theorem withReader (h : Twins limit t l) (id : ReaderId) (halike : Alike limit t l f g) :
    Twins limit { t with readers := t.readers.insert id (.keys f) }
      { l with readers := l.readers.insert id g } := by
  refine h.withReaders fun hopen id' => ?_
  by_cases hid : id' = id
  · subst hid
    exact .inr ⟨f, g, Table.get?_insert_self .., Table.get?_insert_self .., halike⟩
  · rw [Table.get?_insert_of_ne _ _ hid, Table.get?_insert_of_ne _ _ hid]
    exact h.readers hopen id'

theorem subscribe (h : Twins limit t l) (hopen : t.closed = false) (id : ReaderId)
    (keys : List EventKey) : ∃ t' l', t.subscribe id keys = .ok t' ∧
      l.subscribe id keys = .ok l' ∧ Twins limit t' l' := by
  obtain ⟨hwired, hextends, hopened⟩ := h.wired.openChannels (EventKey.sortDistinct keys)
  have hboth := h.extend hwired hextends
  have hthere : ¬l.closed = true := by simp [h.closed, hopen]
  exact ⟨_, _, if_neg (by simp [hopen]), if_neg hthere,
    hboth.withReader id (hboth.start hopened)⟩

theorem drop (h : Twins limit t l) (id : ReaderId) : Twins limit (t.drop id) (l.drop id) := by
  refine h.withReaders fun hopen id' => ?_
  by_cases hid : id' = id
  · subst hid
    exact .inl ⟨Table.get?_erase_self .., Table.get?_erase_self ..⟩
  · rw [Table.get?_erase_of_ne _ hid, Table.get?_erase_of_ne _ hid]
    exact h.readers hopen id'

theorem shutdown (h : Twins limit t l) : Twins limit t.shutdown l.shutdown := by
  unfold Keyspace.shutdown Log.shutdown
  split
  next hclosed =>
    refine ⟨h.positive, h.depth, h.retention, hclosed.symm, h.wired, h.bounded, fun hopen => ?_⟩
    rw [hclosed] at hopen
    cases hopen
  next =>
    refine ⟨h.positive, h.depth, h.retention, rfl, ⟨?_, ?_, ?_⟩, h.bounded, fun hopen => ?_⟩
    · simp
    · simp
    · simp
    · cases hopen

theorem next (h : Twins limit t l) (id : ReaderId) :
    (t.next id).result = (l.next id).result ∧ (t.next id).skipped = (l.next id).skipped ∧
      Twins limit (t.next id).transport (l.next id).transport := by
  unfold Keyspace.next Log.next
  by_cases hclosed : t.closed = true
  · rw [if_pos hclosed, if_pos (h.closed.trans hclosed)]
    exact ⟨rfl, rfl, h⟩
  · have hopen : t.closed = false := by simpa using hclosed
    rw [if_neg hclosed, if_neg (h.closed ▸ hclosed)]
    rcases h.readers hopen id with ⟨hhere, hthere⟩ | ⟨f, g, hhere, hthere, halike⟩
    · rw [hhere, hthere]
      exact ⟨rfl, rfl, h⟩
    · rw [hhere, hthere]
      obtain ⟨hresult, hskipped, hafter⟩ := halike.next h.positive h.wired
      exact ⟨hresult, hskipped, h.withReader id hafter⟩

/-- Twins give the same answers, and are twins afterwards. -/
theorem ask (h : Twins limit t l) (query : Query)
    (hpreserved : ∀ w, query = .publish w → w.Preserved) :
    ((Backend.log l).ask query).1 = ((Backend.keyspace t).ask query).1.under Log.name ∧
      ∃ t' l', ((Backend.keyspace t).ask query).2 = .keyspace t' ∧
        ((Backend.log l).ask query).2 = .log l' ∧ Twins limit t' l' := by
  cases query with
  | publish w =>
    cases hclosed : t.closed with
    | true =>
      have hhere : t.publish w = .error (.closed Keyspace.name) := if_pos hclosed
      have hthere : l.publish w = .error (.closed Log.name) := if_pos (h.closed.trans hclosed)
      simp only [Backend.ask, Backend.publish, hhere, hthere]
      exact ⟨rfl, t, l, rfl, rfl, h⟩
    | false =>
      obtain ⟨t', l', hhere, hthere, hafter⟩ := h.publish hclosed (hpreserved w rfl)
      simp only [Backend.ask, Backend.publish, hhere, hthere]
      exact ⟨rfl, t', l', rfl, rfl, hafter⟩
  | subscribe id keys =>
    cases hclosed : t.closed with
    | true =>
      have hhere : t.subscribe id keys = .error (.closed Keyspace.name) := if_pos hclosed
      have hthere : l.subscribe id keys = .error (.closed Log.name) :=
        if_pos (h.closed.trans hclosed)
      simp only [Backend.ask, Backend.subscribe, hhere, hthere]
      exact ⟨rfl, t, l, rfl, rfl, h⟩
    | false =>
      obtain ⟨t', l', hhere, hthere, hafter⟩ := h.subscribe hclosed id keys
      simp only [Backend.ask, Backend.subscribe, hhere, hthere]
      exact ⟨rfl, t', l', rfl, rfl, hafter⟩
  | read id =>
    obtain ⟨hresult, hskipped, hafter⟩ := h.next id
    refine ⟨?_, _, _, rfl, rfl, hafter⟩
    simp only [Backend.ask, Backend.next, hresult, hskipped]
    rfl
  | drop id => exact ⟨rfl, _, _, rfl, rfl, h.drop id⟩
  | shutdown => exact ⟨rfl, _, _, rfl, rfl, h.shutdown⟩

theorem answers (h : Twins limit t l) {queries : List Query}
    (hpreserved : ∀ w, .publish w ∈ queries → w.Preserved) :
    (Backend.log l).answers queries =
      ((Backend.keyspace t).answers queries).map (Answer.under Log.name) := by
  induction queries generalizing t l with
  | nil => rfl
  | cons query queries ih =>
    obtain ⟨hanswer, t', l', hhere, hthere, hafter⟩ :=
      h.ask query fun w hw => hpreserved w (hw ▸ List.mem_cons_self)
    simp only [Backend.answers, List.map_cons, hanswer, hhere, hthere]
    rw [ih hafter fun w hw => hpreserved w (List.mem_cons_of_mem _ hw)]

/-- A keyspace and a log are twins when nobody has used them. -/
theorem create {slot capacity : Nat} (h : Keyspace.create? slot capacity = some t) :
    Twins capacity.nextPowerOfTwo t (.create capacity.nextPowerOfTwo) := by
  unfold Keyspace.create? at h
  split at h
  · cases h
    have hpositive : 0 < capacity.nextPowerOfTwo := Nat.pos_of_isPowerOfTwo
      (Nat.isPowerOfTwo_nextPowerOfTwo capacity)
    refine ⟨hpositive, rfl, Nat.max_eq_left hpositive, rfl, Keyspace.wired_start capacity, ?_, ?_⟩
    · simp [Log.partition, Log.create, Window.empty]
    · exact fun _ _ => .inl ⟨rfl, rfl⟩
  · cases h

end Twins

/-! ## Times that the log changes -/

/-- The query with the event that the log gives back in place of the one that is published. -/
def Query.reread : Query → Query
  | .publish w => .publish w.reread
  | query => query

namespace Backend

end Backend

/-- A write on one of two keys. -/
def lapOn (other : Bool) (stamp : Nat) : Stamped :=
  ⟨stamp, .invalid ⟨⟨.csw, "lap"⟩, ⟨if other then "b" else "a"⟩⟩⟩

theorem fits_lapOn (other : Bool) (stamp : Nat) : (lapOn other stamp).Fits := by
  change (Event.invalid ⟨⟨.csw, "lap"⟩, ⟨if other then "b" else "a"⟩⟩).toBytes.length < 2 ^ 64
  cases other <;> decide +kernel

end Observatory
