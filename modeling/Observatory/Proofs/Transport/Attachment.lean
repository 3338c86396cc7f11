import Observatory.Proofs.Transport.Patterns
import Observatory.Proofs.Transport.Shelves

/-!
# Readers and their channels

A channel comes with the first subscription to its key and goes with the first publish that finds
nobody on it. Whatever is subscribed, published and dropped in between, a reader stays on the
channel that it was put on, and the channel stays the one of its key: nobody is left on a channel
that no publish reaches. Once the keyspace is shut down, no key has a channel any more.
-/

namespace Observatory

/-! ## Feeds -/

namespace Feed

variable {χ : Type} [DecidableEq χ] {read : χ → Nat → Reading} {offsets : Table χ Nat}
  {ready : List χ} {f : Feed χ}

theorem follows_pull (h : Sound ⟨offsets, ready⟩) (channel : χ) :
    (pull read offsets ready).feed.follows channel = offsets.contains channel := by
  induction ready generalizing offsets with
  | nil => rfl
  | cons first ready ih =>
    have hfirst : offsets.contains first = true := h first List.mem_cons_self
    have hinsert (offset : Nat) :
        (offsets.insert first offset).contains channel = offsets.contains channel := by
      rw [Table.contains_insert]
      by_cases heq : channel = first
      · rw [heq, hfirst, Bool.or_true]
      · rw [decide_eq_false heq, Bool.false_or]
    rw [pull]
    cases hevent : (read first ((offsets.get? first).getD 0)).event with
    | some w => exact hinsert _
    | none => exact (ih (h.rest _)).trans (hinsert _)

theorem follows_next (h : f.Sound) (read : χ → Nat → Reading) (channel : χ) :
    (f.next read).feed.follows channel = f.follows channel := by
  unfold next
  split
  · rfl
  · exact follows_pull h channel

end Feed

@[simp]
theorem KeyspaceReader.follows_wake (reader : KeyspaceReader) (channel channel' : ChannelId) :
    (reader.wake channel).follows channel' = reader.follows channel' := by
  cases reader with
  | keys feed => rw [wake, follows, follows, Feed.follows, Feed.offsets_wake, Feed.follows]
  | pattern => rfl

namespace Keyspace

variable {t : Keyspace} {limit : Nat} {boxes : ReaderId → Option Inbox} {id : ReaderId}
  {key : EventKey} {channel : ChannelId} {request : Request} {requests : List Request}

/-- Whether a reader is on a channel. -/
def hears (t : Keyspace) (id : ReaderId) (channel : ChannelId) : Bool :=
  (t.readers.get? id).any (KeyspaceReader.follows channel)

/-! ## What requests come to -/

theorem serve_publish (h : t.closed = false) (w : Stamped) :
    t.serve (.publish w) = (t.publishOnKey w).publishOnStream w := by
  rw [serve, publish, h]
  rfl

theorem serve_subscribe (h : t.closed = false) (id : ReaderId) (keys : List EventKey) :
    t.serve (.subscribe id keys) =
      let (opened, t) := t.openChannels (EventKey.sortDistinct keys)
      { t with readers := t.readers.insert id (.keys (.start opened)) } := by
  rw [serve, subscribe, h]
  rfl

theorem serve_watch (h : t.closed = false) (id : ReaderId) (p : KeyPattern) :
    t.serve (.watch id p) =
      { t with readers := t.readers.insert id (.pattern p t.stream.head) } := by
  rw [serve, patternSubscribe, h]
  rfl

@[simp]
theorem channels_publishOnStream (t : Keyspace) (w : Stamped) :
    (t.publishOnStream w).channels = t.channels := by
  unfold publishOnStream
  split
  · rfl
  · rfl

@[simp]
theorem readers_publishOnStream (t : Keyspace) (w : Stamped) :
    (t.publishOnStream w).readers = t.readers := by
  unfold publishOnStream
  split
  · rfl
  · rfl

@[simp]
theorem channels_next (t : Keyspace) (id : ReaderId) :
    (t.next id).transport.channels = t.channels := by
  unfold next
  split
  · rfl
  · split
    · rfl
    · rfl
    · rfl

theorem Keeps.feed_sound (h : t.Keeps limit boxes) {feed : Feed ChannelId}
    (hreader : t.readers.get? id = some (.keys feed)) : feed.Sound := by
  have hrel := h.readers id
  rw [hreader] at hrel
  generalize boxes id = x at hrel
  cases hrel with | some hbacks
  cases hbacks with | keys tracks turns
  intro channel hready
  obtain ⟨key, -, hnames⟩ := exists_of_mem turns hready
  exact tracks.contains_of_names hnames

theorem hears_insert (readers : Table ReaderId KeyspaceReader) (reader : KeyspaceReader)
    (id id' : ReaderId) (channel : ChannelId) :
    { t with readers := readers.insert id' reader }.hears id channel =
      if id = id' then reader.follows channel else { t with readers }.hears id channel := by
  unfold hears
  split
  next heq =>
    rw [heq, Table.get?_insert_self]
    rfl
  next hne => rw [Table.get?_insert_of_ne _ _ hne]

/-- Asking for an event puts nobody on another channel. -/
theorem Keeps.hears_next (h : t.Keeps limit boxes) (id id' : ReaderId) (channel : ChannelId) :
    (t.next id').transport.hears id channel = t.hears id channel := by
  have hsame {reader reader' : KeyspaceReader} (hreader : t.readers.get? id' = some reader)
      (hfollows : reader'.follows channel = reader.follows channel) :
      { t with readers := t.readers.insert id' reader' }.hears id channel = t.hears id channel := by
    rw [hears_insert]
    split
    next heq => rw [heq, hears, hreader, Option.any_some, hfollows]
    next => rfl
  unfold Keyspace.next
  split
  · rfl
  · split
    next => rfl
    next feed hreader => exact hsame hreader (Feed.follows_next (h.feed_sound hreader) _ channel)
    next hreader => exact hsame hreader rfl

theorem hears_publishOnKey (t : Keyspace) (w : Stamped) (id : ReaderId) (channel : ChannelId) :
    (t.publishOnKey w).hears id channel = t.hears id channel := by
  unfold publishOnKey
  split
  · rfl
  · split
    · rfl
    · unfold hears
      rw [Table.get?_map, Option.any_map]
      simp only [KeyspaceReader.follows_wake]

/-- A publish takes the channel from its key if nobody is on it, and leaves all others. -/
theorem get?_channels_publishOnKey {w : Stamped} :
    (t.publishOnKey w).channels.get? key = some channel ↔
      t.channels.get? key = some channel ∧ (key = w.key → t.receivers channel ≠ 0) := by
  unfold publishOnKey
  cases hkey : t.channels.get? w.key with
  | none =>
    refine ⟨fun h => ⟨h, ?_⟩, And.left⟩
    rintro rfl
    rw [hkey] at h
    cases h
  | some channel' =>
    dsimp only
    split
    next hnobody =>
      by_cases heq : key = w.key
      · subst heq
        rw [Table.get?_erase_self, hkey]
        constructor
        · intro hnone
          cases hnone
        · rintro ⟨hsame, hsomebody⟩
          rw [Option.some.inj hsame] at hnobody
          exact absurd hnobody (hsomebody rfl)
      · rw [Table.get?_erase_of_ne _ heq]
        exact ⟨fun h => ⟨h, fun h => absurd h heq⟩, And.left⟩
    next hsomebody =>
      refine ⟨fun h => ⟨h, ?_⟩, And.left⟩
      rintro rfl
      rwa [← Option.some.inj (hkey.symm.trans h)]

theorem receivers_ne_zero (hkeys : t.readers.keys.Nodup) :
    t.receivers channel ≠ 0 ↔ ∃ id, t.hears id channel = true := by
  rw [receivers, ← Nat.pos_iff_ne_zero, List.countP_pos_iff]
  constructor
  · rintro ⟨reader, hreader, hfollows⟩
    obtain ⟨id, hid⟩ := Table.exists_of_mem_values hkeys hreader
    exact ⟨id, by rw [hears, hid, Option.any_some, hfollows]⟩
  · rintro ⟨id, hhears⟩
    obtain ⟨reader, hreader, hfollows⟩ := (Option.any_eq_true _ _).1 hhears
    exact ⟨reader, Table.mem_values_of_get? hreader, hfollows⟩

/-! ## Steps -/

/-- No request gives two readers one name. -/
theorem Keeps.nodup_serve (h : t.Keeps limit boxes) (hkeys : t.readers.keys.Nodup)
    (request : Request) : (t.serve request).readers.keys.Nodup := by
  cases request with
  | publish w =>
    rw [serve_publish h.isOpen, readers_publishOnStream, Keyspace.publishOnKey]
    split
    · exact hkeys
    · split
      · exact hkeys
      · rwa [Table.keys_map]
  | subscribe id keys =>
    obtain ⟨-, hextends, -⟩ := h.wired.openChannels (EventKey.sortDistinct keys)
    rw [serve_subscribe h.isOpen]
    exact Table.nodup_keys_insert (hextends.readers ▸ hkeys) _ _
  | watch id p =>
    rw [serve_watch h.isOpen]
    exact Table.nodup_keys_insert hkeys _ _
  | read id =>
    rw [Keyspace.serve, Keyspace.next]
    split
    · exact hkeys
    · split
      · exact hkeys
      · exact Table.nodup_keys_insert hkeys _ _
      · exact Table.nodup_keys_insert hkeys _ _
  | drop id => exact Table.nodup_keys_erase hkeys id

/-- A request that neither removes nor replaces a reader leaves it where it is. -/
theorem Keeps.hears_serve (h : t.Keeps limit boxes) (hstays : request.replaces id = false)
    (channel : ChannelId) : (t.serve request).hears id channel = t.hears id channel := by
  cases request with
  | publish w =>
    rw [serve_publish h.isOpen, hears, readers_publishOnStream]
    exact t.hears_publishOnKey w id channel
  | subscribe id' keys =>
    have hid : id ≠ id' := fun heq => of_decide_eq_false hstays heq.symm
    obtain ⟨-, hextends, -⟩ := h.wired.openChannels (EventKey.sortDistinct keys)
    rw [serve_subscribe h.isOpen, hears_insert, if_neg hid, hears, hextends.readers]
    rfl
  | watch id' p =>
    have hid : id ≠ id' := fun heq => of_decide_eq_false hstays heq.symm
    rw [serve_watch h.isOpen, hears_insert, if_neg hid]
  | read id' => exact h.hears_next id id' channel
  | drop id' =>
    have hid : id ≠ id' := fun heq => of_decide_eq_false hstays heq.symm
    change ((t.readers.erase id').get? id).any _ = _
    rw [Table.get?_erase_of_ne _ hid]
    rfl

/-- A channel stays the one of its key as long as somebody is on it. -/
theorem Keeps.channel_serve (h : t.Keeps limit boxes) (hnodup : t.readers.keys.Nodup)
    (hkey : t.channels.get? key = some channel) (hhears : t.hears id channel = true)
    (request : Request) : (t.serve request).channels.get? key = some channel := by
  cases request with
  | publish w =>
    rw [serve_publish h.isOpen, channels_publishOnStream, get?_channels_publishOnKey]
    exact ⟨hkey, fun _ => (receivers_ne_zero hnodup).2 ⟨id, hhears⟩⟩
  | subscribe id' keys =>
    obtain ⟨-, hextends, -⟩ := h.wired.openChannels (EventKey.sortDistinct keys)
    rw [serve_subscribe h.isOpen]
    exact (hextends.channels hkey).1
  | watch id' p =>
    rw [serve_watch h.isOpen]
    exact hkey
  | read id' =>
    rw [Keyspace.serve, channels_next]
    exact hkey
  | drop id' => exact hkey

/-- A reader is registered on the channels that its keys have afterwards, and on no others. -/
theorem Keeps.hears_subscribe (h : t.Keeps limit boxes) (id : ReaderId) (keys : List EventKey)
    (channel : ChannelId) : (t.serve (.subscribe id keys)).hears id channel = true ↔
      ∃ key ∈ keys, (t.serve (.subscribe id keys)).channels.get? key = some channel := by
  obtain ⟨-, hextends, hopened⟩ := h.wired.openChannels (EventKey.sortDistinct keys)
  have hfollows : (t.serve (.subscribe id keys)).hears id channel = true ↔
      channel ∈ (t.openChannels (EventKey.sortDistinct keys)).1.map Prod.fst := by
    rw [serve_subscribe h.isOpen, hears_insert, if_pos rfl]
    exact Table.contains_iff_mem_keys
  rw [hfollows, serve_subscribe h.isOpen]
  constructor
  · intro hmem
    obtain ⟨key, hkey, hchannel⟩ := hopened.exists_key hmem
    exact ⟨key, EventKey.mem_sortDistinct.1 hkey, hchannel⟩
  · rintro ⟨key, hkey, hchannel⟩
    obtain ⟨channel', hmem, hsame⟩ := hopened.exists_channel (EventKey.mem_sortDistinct.2 hkey)
    rwa [Option.some.inj (hchannel.symm.trans hsame)]

theorem serve_of_closed (h : t.closed = true) (request : Request) :
    (t.serve request).closed = true ∧ (t.serve request).channels = t.channels := by
  cases request with
  | publish w =>
    rw [serve, publish, if_pos h]
    exact ⟨h, rfl⟩
  | subscribe id keys =>
    rw [serve, subscribe, if_pos h]
    exact ⟨h, rfl⟩
  | watch id p =>
    rw [serve, patternSubscribe, if_pos h]
    exact ⟨h, rfl⟩
  | read id =>
    rw [serve, next, if_pos h]
    exact ⟨h, rfl⟩
  | drop id => exact ⟨h, rfl⟩

/-! ## Runs -/

/-- The reader was registered for the key, which had `channel?` as its channel then, and has been
neither removed nor replaced since. -/
inductive Joined (t : Keyspace) (id : ReaderId) (key : EventKey) (channel? : Option ChannelId) :
    List Request → Prop
  | registered (requests : List Request) {keys : List EventKey} : key ∈ keys →
      (t.serveAll (requests ++ [.subscribe id keys])).channels.get? key = channel? →
      Joined t id key channel? (requests ++ [.subscribe id keys])
  | stays {requests : List Request} {request : Request} : Joined t id key channel? requests →
      request.replaces id = false → Joined t id key channel? (requests ++ [request])

/-- What is to hold after some requests if readers and channels are in step. -/
structure InStep (t : Keyspace) (requests : List Request) : Prop where
  /-- A reader of a key is on the channel that it was put on, and this is still the one of the
  key. -/
  reader : ∀ id key channel?, t.Joined id key channel? requests →
    ∃ channel, channel? = some channel ∧
      (t.serveAll requests).channels.get? key = some channel ∧
      (t.serveAll requests).hears id channel = true
  /-- Two readers of a key are on one channel. -/
  shared : ∀ id id' key channel? channel?', t.Joined id key channel? requests →
    t.Joined id' key channel?' requests → channel? = channel?'
  /-- Where a reader is on a channel, it is one of the readers of the key that has the channel. -/
  channel : ∀ id channel, (t.serveAll requests).hears id channel = true →
    ∃ key, t.Joined id key (some channel) requests ∧
      (t.serveAll requests).channels.get? key = some channel
  /-- No two keys have one channel. -/
  apart : ∀ key key' channel, (t.serveAll requests).channels.get? key = some channel →
    (t.serveAll requests).channels.get? key' = some channel → key = key'
  /-- After a publish its key has a channel just if the key has a reader. -/
  published : ∀ w, ∃ t', (t.serveAll requests).publish w = .ok t' ∧
    (t'.channels.contains w.key = true ↔ ∃ id channel?, t.Joined id w.key channel? requests)
  /-- After a shutdown no key has a channel, whatever is requested. -/
  shut : ∀ later, ((t.serveAll requests).shutdown.serveAll later).channels = .empty

theorem serveAll_concat (t : Keyspace) (requests : List Request) (request : Request) :
    t.serveAll (requests ++ [request]) = (t.serveAll requests).serve request :=
  List.foldl_concat serve t request requests

theorem Keeps.nodup_serveAll (h : t.Keeps limit boxes) (hkeys : t.readers.keys.Nodup)
    (requests : List Request) : (t.serveAll requests).readers.keys.Nodup := by
  induction requests generalizing t boxes with
  | nil => exact hkeys
  | cons request requests ih =>
    obtain ⟨boxes', hafter, -⟩ := h.serve request
    exact ih hafter (h.nodup_serve hkeys request)

theorem Keeps.joined (h : t.Keeps limit boxes) (hkeys : t.readers.keys.Nodup)
    {channel? : Option ChannelId} (hjoined : t.Joined id key channel? requests) :
    ∃ channel, channel? = some channel ∧
      (t.serveAll requests).channels.get? key = some channel ∧
      (t.serveAll requests).hears id channel = true := by
  induction hjoined with
  | @registered requests keys hkey hchannel =>
    subst hchannel
    obtain ⟨boxes', hkeeps⟩ := h.serveAll requests
    rw [serveAll_concat]
    obtain ⟨-, -, hopened⟩ := hkeeps.wired.openChannels (EventKey.sortDistinct keys)
    obtain ⟨channel, -, hchannel⟩ := hopened.exists_channel (EventKey.mem_sortDistinct.2 hkey)
    have hhas : ((t.serveAll requests).serve (.subscribe id keys)).channels.get? key =
        some channel := by
      rw [serve_subscribe hkeeps.isOpen]
      exact hchannel
    exact ⟨channel, hhas, hhas, (hkeeps.hears_subscribe id keys channel).2 ⟨key, hkey, hhas⟩⟩
  | @stays requests request _ hstays ih =>
    -- The reader itself is what keeps the channel under its key.
    obtain ⟨boxes', hkeeps⟩ := h.serveAll requests
    obtain ⟨channel, hjoin, hkey, hhears⟩ := ih
    rw [serveAll_concat]
    exact ⟨channel, hjoin,
      hkeeps.channel_serve (h.nodup_serveAll hkeys requests) hkey hhears request,
      (hkeeps.hears_serve hstays channel).trans hhears⟩

theorem Keeps.exists_joined (h : t.Keeps limit boxes) (hempty : t.readers = .empty)
    (requests : List Request) (hhears : (t.serveAll requests).hears id channel = true) :
    ∃ key, t.Joined id key (some channel) requests ∧
      (t.serveAll requests).channels.get? key = some channel := by
  have hkeys : t.readers.keys.Nodup := hempty ▸ List.nodup_nil
  induction requests using List.reverseRecOn with
  | nil =>
    have hnone : t.hears id channel = false := by
      rw [hears, hempty]
      rfl
    exact absurd (hnone.symm.trans hhears) Bool.false_ne_true
  | append_singleton requests request ih =>
    obtain ⟨boxes', hkeeps⟩ := h.serveAll requests
    -- Either the last request leaves the reader where it was, or it puts it where it is now.
    cases hstays : request.replaces id with
    | false =>
      rw [serveAll_concat, hkeeps.hears_serve hstays] at hhears
      obtain ⟨key, hjoined, hkey⟩ := ih hhears
      refine ⟨key, hjoined.stays hstays, ?_⟩
      rw [serveAll_concat]
      exact hkeeps.channel_serve (h.nodup_serveAll hkeys requests) hkey hhears request
    | true =>
      cases request with
      | publish | read => cases hstays
      | subscribe id' keys =>
        obtain rfl : id' = id := of_decide_eq_true hstays
        have hhere := hhears
        rw [serveAll_concat, hkeeps.hears_subscribe] at hhere
        obtain ⟨key, hkey, hchannel⟩ := hhere
        rw [← serveAll_concat] at hchannel
        exact ⟨key, .registered requests hkey hchannel, hchannel⟩
      | watch id' p =>
        obtain rfl : id' = id := of_decide_eq_true hstays
        rw [serveAll_concat, serve_watch hkeeps.isOpen, hears_insert, if_pos rfl] at hhears
        cases hhears
      | drop id' =>
        obtain rfl : id' = id := of_decide_eq_true hstays
        rw [serveAll_concat, hears] at hhears
        change (((t.serveAll requests).readers.erase id').get? id').any _ = true at hhears
        rw [Table.get?_erase_self] at hhears
        cases hhears

theorem serveAll_of_closed (h : t.closed = true) (requests : List Request) :
    (t.serveAll requests).channels = t.channels := by
  induction requests generalizing t with
  | nil => rfl
  | cons request requests ih =>
    obtain ⟨hclosed, hchannels⟩ := serve_of_closed h request
    exact (ih hclosed).trans hchannels

/-- In a keyspace as it is made, readers and channels are in step, whatever is requested. -/
theorem inStep_create {slot capacity : Nat} (hcreate : create? slot capacity = some t)
    (requests : List Request) : t.InStep requests := by
  have hstart := Keeps.create hcreate
  have hempty : t.readers = .empty := by
    unfold create? at hcreate
    split at hcreate
    · rw [← Option.some.inj hcreate]
    · cases hcreate
  have hkeys : t.readers.keys.Nodup := hempty ▸ List.nodup_nil
  obtain ⟨boxes, hkeeps⟩ := hstart.serveAll requests
  have hnodup := hstart.nodup_serveAll hkeys requests
  refine ⟨fun id key channel? => hstart.joined hkeys, ?shared,
    fun id channel => hstart.exists_joined hempty requests,
    fun key key' channel => hkeeps.wired.apart, fun w => ?published, fun later => ?shut⟩
  case shared =>
    intro id id' key channel? channel?' hjoined hjoined'
    obtain ⟨channel, rfl, hkey, -⟩ := hstart.joined hkeys hjoined
    obtain ⟨channel', rfl, hkey', -⟩ := hstart.joined hkeys hjoined'
    exact hkey.symm.trans hkey'
  case published =>
    refine ⟨_, if_neg (by simp [hkeeps.isOpen]), ?_⟩
    rw [channels_publishOnStream, Table.contains, Option.isSome_iff_exists]
    simp only [get?_channels_publishOnKey, true_implies, receivers_ne_zero hnodup]
    constructor
    · rintro ⟨channel, hkey, id, hhears⟩
      -- The channel that somebody hears on is the one of a key that the reader follows.
      obtain ⟨key, hjoined, hsame⟩ := hstart.exists_joined hempty requests hhears
      obtain rfl := hkeeps.wired.apart hsame hkey
      exact ⟨id, some channel, hjoined⟩
    · rintro ⟨id, channel?, hjoined⟩
      obtain ⟨channel, -, hkey, hhears⟩ := hstart.joined hkeys hjoined
      exact ⟨channel, hkey, id, hhears⟩
  case shut =>
    have hshut : (t.serveAll requests).shutdown =
        { t.serveAll requests with closed := true, channels := .empty } :=
      if_neg (by simp [hkeeps.isOpen])
    rw [hshut, serveAll_of_closed rfl]

/-- A position that is observed. -/
def positionKey : EventKey :=
  ⟨⟨.tcs, "pk"⟩, ⟨"pos"⟩⟩

/-- The weather beside it. -/
def weatherKey : EventKey :=
  ⟨⟨.tcs, "ws"⟩, ⟨"wind"⟩⟩

/-- Of two readers the one of both keys goes. A publish takes the channel from the key that has no
reader left, and a third reader comes to that key. -/
def relief : List Request :=
  [.subscribe 1 [positionKey, weatherKey], .subscribe 2 [weatherKey], .drop 1,
    .publish ⟨1, .invalid positionKey⟩, .publish ⟨2, .invalid weatherKey⟩,
    .subscribe 3 [positionKey]]

/-- The second reader is on the channel that the first one was put on with it, and the key keeps the
channel when something is published once more. -/
theorem inStep_create_relief : ∃ t, create? usualSlot 2 = some t ∧
    t.Joined 2 weatherKey (some 1) relief ∧
    (t.serveAll relief).channels.get? weatherKey = some 1 ∧
    (t.serveAll relief).hears 2 1 = true ∧
    (∃ t', (t.serveAll relief).publish ⟨3, .invalid weatherKey⟩ = .ok t' ∧
      t'.channels.contains weatherKey = true) ∧
    ((t.serveAll relief).shutdown.serveAll relief).channels = .empty := by
  have hrun : ((create? usualSlot 2).map fun t =>
      (t.serveAll (relief.take 2)).channels.get? weatherKey) = some (some 1) := by
    decide +kernel
  obtain ⟨t, hcreate, hchannel⟩ := Option.map_eq_some_iff.1 hrun
  have hregistered : t.Joined 2 weatherKey (some 1) (relief.take 2) :=
    .registered [_] (List.mem_singleton_self _) hchannel
  have hjoined : t.Joined 2 weatherKey (some 1) relief :=
    (((hregistered.stays rfl).stays rfl).stays rfl).stays rfl
  obtain ⟨hreader, -, -, -, hpublished, hshut⟩ := inStep_create hcreate relief
  obtain ⟨channel, hsame, hkey, hhears⟩ := hreader _ _ _ hjoined
  obtain rfl := Option.some.inj hsame
  obtain ⟨t', hpublish, hiff⟩ := hpublished ⟨3, .invalid weatherKey⟩
  exact ⟨t, hcreate, hjoined, hkey, hhears, ⟨t', hpublish, hiff.2 ⟨2, some 1, hjoined⟩⟩,
    hshut relief⟩

end Keyspace

end Observatory
