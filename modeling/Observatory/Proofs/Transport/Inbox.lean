import Observatory.Proofs.Transport.Backlog
import Observatory.Proofs.Transport.Wiring

/-!
# Inboxes

What a reader of the keyspace has before it, apart from how the keyspace keeps it: a backlog for
every key that it follows, or one backlog of all keys and a pattern. An inbox grows when something
is published, and shrinks when its own reader takes something. Nothing else changes it.
-/

namespace Observatory

/-- What a reader has before it. -/
inductive Inbox where
  /-- The backlogs of some keys, and the keys to ask, in turn. -/
  | keys (backlogs : Table EventKey (List Stamped)) (ready : List EventKey)
  | pattern (p : KeyPattern) (backlog : List Stamped)

/-- Before the oldest item that is kept, a reader has nothing to read. -/
theorem Window.Lags.catchUp {window : Window Stamped} {limit offset : Nat}
    {backlog : List Stamped} (h : window.Lags limit offset backlog) :
    window.Lags limit (max offset window.base) (kept limit backlog) := by
  have hmissed := h.missed
  have hhead := h.head
  have hunread := h.unread
  simp only [Window.missed, Window.unread] at hmissed hunread
  refine ⟨h.bounded, ?head, ?unread⟩
  case head =>
    simp only [kept, List.length_drop]
    omega
  case unread =>
    have hall : (kept limit backlog).length - limit = 0 := by
      simp only [kept, List.length_drop]
      omega
    have hplace : max offset window.base - window.base = offset - window.base := by omega
    rw [hall, List.drop_zero, Window.unread, hplace, hunread, kept]

theorem length_kept_le (limit : Nat) (backlog : List Stamped) :
    (kept limit backlog).length ≤ limit := by
  simp only [kept, List.length_drop]
  omega

namespace Inbox

/-- What taking an event from an inbox comes to. -/
structure Taken where
  result : Poll Stamped
  skipped : Nat
  inbox : Inbox

def ofKeys (keys : List EventKey) : Inbox :=
  .keys ⟨keys.map fun key => (key, [])⟩ keys

/-- Something is published on the channel of its key. -/
def arriveOnKey (w : Stamped) : Inbox → Inbox
  | .keys backlogs ready =>
    .keys (backlogs.modify w.key (· ++ [w]))
      (if backlogs.contains w.key && !ready.contains w.key then ready ++ [w.key] else ready)
  | inbox => inbox

/-- Something is published on the channel of all keys. -/
def arriveOnStream (w : Stamped) : Inbox → Inbox
  | .pattern p backlog => .pattern p (backlog ++ [w])
  | inbox => inbox

def arrive (w : Stamped) (inbox : Inbox) : Inbox :=
  (inbox.arriveOnKey w).arriveOnStream w

/-- Asks the keys of a list in turn until one has an event. -/
def ask (limit : Nat) (backlogs : Table EventKey (List Stamped)) : List EventKey → Taken
  | [] => ⟨.pending, 0, .keys backlogs []⟩
  | key :: ready =>
    let backlog := (backlogs.get? key).getD []
    let rest := backlogs.insert key (kept limit backlog).tail
    match (kept limit backlog).head? with
    | some w => ⟨.item w, backlog.length - limit, .keys rest (ready ++ [key])⟩
    | none =>
      let later := ask limit rest ready
      { later with skipped := backlog.length - limit + later.skipped }

/-- Takes an event from an inbox of which at most `limit` events are kept for each key. -/
def take (limit : Nat) : Inbox → Taken
  | .keys backlogs ready =>
    if backlogs.isEmpty then ⟨.ended, 0, .keys backlogs ready⟩ else ask limit backlogs ready
  | .pattern p backlog =>
    let found := (kept limit backlog).dropWhile fun w => !p.accepts w.key
    ⟨found.head?.elim .pending .item, backlog.length - limit, .pattern p found.tail⟩

/-- Whether there is nothing to take until something is published. -/
def isQuiet : Inbox → Bool
  | .keys backlogs ready => !backlogs.isEmpty && ready.isEmpty
  | .pattern _ backlog => backlog.isEmpty

end Inbox

namespace Keyspace

variable {t t' : Keyspace} {places : Table ChannelId Nat}
  {backlogs : Table EventKey (List Stamped)} {backlog : List Stamped} {key : EventKey}
  {channel : ChannelId} {reader : KeyspaceReader} {inbox : Inbox} {w : Stamped}

/-! ## Readers -/

/-- A reader at these places has the backlog before it on the channel of the key. -/
structure Awaits (t : Keyspace) (places : Table ChannelId Nat) (key : EventKey)
    (channel : ChannelId) (backlog : List Stamped) : Prop where
  wired : t.channels.get? key = some channel
  lags : ∃ window offset, t.windows.get? channel = some window ∧
    places.get? channel = some offset ∧ window.Lags t.depth offset backlog

/-- The channel is the one of a key that has a backlog. -/
def Names (t : Keyspace) (backlogs : Table EventKey (List Stamped)) (channel : ChannelId)
    (key : EventKey) : Prop :=
  backlogs.contains key = true ∧ t.channels.get? key = some channel

/-- A reader at these places has these backlogs before it, and no others. -/
structure Tracks (t : Keyspace) (places : Table ChannelId Nat)
    (backlogs : Table EventKey (List Stamped)) : Prop where
  there : ∀ {key backlog}, backlogs.get? key = some backlog →
    ∃ channel, t.Awaits places key channel backlog
  here : ∀ {channel}, places.contains channel = true → ∃ key, t.Names backlogs channel key

/-- The reader has the inbox before it. -/
inductive Backs (t : Keyspace) : KeyspaceReader → Inbox → Prop where
  | keys {feed : Feed ChannelId} {backlogs : Table EventKey (List Stamped)}
      {ready : List EventKey} (tracks : t.Tracks feed.offsets backlogs)
      (turns : List.Forall₂ (t.Names backlogs) feed.ready ready) :
      Backs t (.keys feed) (.keys backlogs ready)
  | pattern {p : KeyPattern} {offset : Nat} {backlog : List Stamped}
      (lags : t.stream.Lags t.depth offset backlog) :
      Backs t (.pattern p offset) (.pattern p backlog)

theorem depth_pos (t : Keyspace) : 0 < t.depth :=
  Nat.pos_of_isPowerOfTwo (Nat.isPowerOfTwo_nextPowerOfTwo t.capacity)

theorem depth_eq (h : t'.capacity = t.capacity) : t'.depth = t.depth :=
  congrArg Nat.nextPowerOfTwo h

namespace Tracks

theorem contains_of_names (h : t.Tracks places backlogs) (hnames : t.Names backlogs channel key) :
    places.contains channel = true := by
  obtain ⟨backlog, hbacklog⟩ := Option.isSome_iff_exists.1 hnames.1
  obtain ⟨channel', hchannel', _, _, _, hoffset, _⟩ := h.there hbacklog
  obtain rfl := Option.some.inj (hchannel'.symm.trans hnames.2)
  exact Table.contains_of_get? hoffset

theorem contains_eq (h : t.Tracks places backlogs) (hwired : t.Wired)
    (hkey : t.channels.get? key = some channel) :
    places.contains channel = backlogs.contains key := by
  rw [Bool.eq_iff_iff]
  constructor
  · intro hchannel
    obtain ⟨key', hkey', hsame⟩ := h.here hchannel
    rwa [hwired.apart hkey hsame]
  · exact fun hcontains => h.contains_of_names ⟨hcontains, hkey⟩

theorem isEmpty_eq (h : t.Tracks places backlogs) : places.isEmpty = backlogs.isEmpty := by
  rw [Bool.eq_iff_iff, Table.isEmpty_iff, Table.isEmpty_iff]
  constructor
  · intro hnone key
    by_contra hkey
    rw [Bool.not_eq_false] at hkey
    obtain ⟨backlog, hbacklog⟩ := Option.isSome_iff_exists.1 hkey
    obtain ⟨channel, _, _, _, _, hoffset, _⟩ := h.there hbacklog
    have hplace := Table.contains_of_get? hoffset
    rw [hnone channel] at hplace
    cases hplace
  · intro hnone channel
    by_contra hchannel
    rw [Bool.not_eq_false] at hchannel
    obtain ⟨key, hkey, -⟩ := h.here hchannel
    rw [hnone key] at hkey
    cases hkey

/-- Only the channels that are followed matter. -/
theorem frame (h : t.Tracks places backlogs) (hcapacity : t'.capacity = t.capacity)
    (hkeys : ∀ {key channel}, places.contains channel = true →
      t.channels.get? key = some channel →
        t'.channels.get? key = some channel ∧
          t'.windows.get? channel = t.windows.get? channel) :
    t'.Tracks places backlogs where
  there hbacklog := by
    obtain ⟨channel, hchannel, window, offset, hwindow, hoffset, hlags⟩ := h.there hbacklog
    obtain ⟨hchannel', hwindow'⟩ := hkeys (Table.contains_of_get? hoffset) hchannel
    refine ⟨channel, hchannel', window, offset, hwindow'.trans hwindow, hoffset, ?_⟩
    rwa [depth_eq hcapacity]
  here hcontains := by
    obtain ⟨key, hkey, hchannel⟩ := h.here hcontains
    exact ⟨key, hkey, (hkeys hcontains hchannel).1⟩

/-- Moving on at one key leaves the backlogs of all others as they are. -/
theorem move (h : t.Tracks places backlogs) (hwired : t.Wired) {offset : Nat}
    (hawaits : t.Awaits (places.insert channel offset) key channel backlog) :
    t.Tracks (places.insert channel offset) (backlogs.insert key backlog) where
  there {key' backlog'} hbacklog := by
    by_cases heq : key' = key
    · subst heq
      rw [Table.get?_insert_self] at hbacklog
      cases hbacklog
      exact ⟨channel, hawaits⟩
    · rw [Table.get?_insert_of_ne _ _ heq] at hbacklog
      obtain ⟨channel', hchannel', window, place, hwindow, hplace, hlags⟩ := h.there hbacklog
      have hne : channel' ≠ channel := by
        rintro rfl
        exact heq (hwired.apart hchannel' hawaits.wired)
      refine ⟨channel', hchannel', window, place, hwindow, ?_, hlags⟩
      rw [Table.get?_insert_of_ne _ _ hne, hplace]
  here {channel'} hchannel := by
    rw [Table.contains_insert, Bool.or_eq_true, decide_eq_true_eq] at hchannel
    rcases hchannel with rfl | hchannel
    · exact ⟨key, by simp, hawaits.wired⟩
    · obtain ⟨key', hkey', hsame⟩ := h.here hchannel
      exact ⟨key', by simp [hkey'], hsame⟩

end Tracks

/-! ## Taking -/

/-- The channels of a feed are asked as the keys of the inbox are. -/
theorem backs_pull (hwired : t.Wired) {channels : List ChannelId} {keys : List EventKey}
    (htracks : t.Tracks places backlogs)
    (hready : List.Forall₂ (t.Names backlogs) channels keys) :
    let here := Feed.pull t.readChannel places channels
    let there := Inbox.ask t.depth backlogs keys
    here.result = there.result ∧ here.skipped = there.skipped ∧
      t.Backs (.keys here.feed) there.inbox := by
  -- A channel with nothing new is moved to its end, so the places change along with the backlogs.
  induction channels generalizing places backlogs keys with
  | nil =>
    cases hready
    exact ⟨rfl, rfl, .keys htracks .nil⟩
  | cons channel channels ih =>
    cases hready with | @cons _ key _ keys hnames hready
    obtain ⟨backlog, hbacklog⟩ := Option.isSome_iff_exists.1 hnames.1
    obtain ⟨channel', hchannel, window, offset, hwindow, hoffset, hlags⟩ := htracks.there hbacklog
    obtain rfl := Option.some.inj (hchannel.symm.trans hnames.2)
    have hreads := readWindow_of t.depth_pos hlags
    have hread : t.readChannel channel' ((places.get? channel').getD 0) =
        readWindow window offset := by
      simp [readChannel, hwindow, hoffset]
    have hmoved : t.Tracks (places.insert channel' (readWindow window offset).offset)
        (backlogs.insert key (kept t.depth backlog).tail) := by
      refine htracks.move hwired ⟨hchannel, window, _, hwindow, Table.get?_insert_self .., ?_⟩
      simpa using hreads.after
    have hstill : ∀ {channel key'}, t.Names backlogs channel key' →
        t.Names (backlogs.insert key (kept t.depth backlog).tail) channel key' :=
      fun h => ⟨by simp [h.1], h.2⟩
    simp only [Feed.pull, Inbox.ask, hread, hreads.event, hreads.skipped, hbacklog,
      Option.getD_some, Option.map_id, id_eq]
    cases (kept t.depth backlog).head? with
    | some w =>
      refine ⟨rfl, rfl, .keys hmoved ?_⟩
      exact List.rel_append (hready.imp fun _ _ => hstill) (.cons (hstill hnames) .nil)
    | none =>
      obtain ⟨hresult, hskipped, hbacks⟩ := ih hmoved (hready.imp fun _ _ => hstill)
      exact ⟨hresult, by rw [hskipped], hbacks⟩

/-- The search passes over what the pattern does not accept. -/
theorem lags_firstAccepted {window : Window Stamped} {limit offset : Nat} (p : KeyPattern)
    (hbase : window.base ≤ offset) (h : window.Lags limit offset backlog)
    (hlength : backlog.length ≤ limit) :
    let found := backlog.dropWhile fun w => !p.accepts w.key
    (firstAccepted p offset backlog).2 = found.head? ∧
      window.Lags limit (firstAccepted p offset backlog).1 found.tail := by
  induction backlog generalizing offset with
  | nil => exact ⟨rfl, h⟩
  | cons w rest ih =>
    have hnext : window.Lags limit (offset + 1) rest := by
      have hall : (w :: rest).drop ((w :: rest).length - limit) = w :: rest := by
        rw [Nat.sub_eq_zero_of_le hlength, List.drop_zero]
      simpa [Nat.max_eq_left hbase] using h.next hall
    rw [firstAccepted, List.dropWhile_cons]
    cases haccepts : p.accepts w.key with
    | true => exact ⟨rfl, hnext⟩
    | false => exact ih (Nat.le_succ_of_le hbase) hnext (Nat.le_of_succ_le hlength)

theorem readStream_of (p : KeyPattern) {offset : Nat}
    (h : t.stream.Lags t.depth offset backlog) :
    let found := (kept t.depth backlog).dropWhile fun w => !p.accepts w.key
    (t.readStream p offset).event = found.head? ∧
      (t.readStream p offset).skipped = backlog.length - t.depth ∧
      t.stream.Lags t.depth (t.readStream p offset).offset found.tail := by
  have hunread : t.stream.unread offset = kept t.depth backlog := h.unread
  obtain ⟨hevent, hafter⟩ := lags_firstAccepted p (Nat.le_max_right _ _) h.catchUp
    (length_kept_le t.depth backlog)
  unfold readStream
  rw [hunread]
  exact ⟨hevent, h.missed, hafter⟩

/-! ## All readers -/

/-- The keyspace is open, keeps at most `limit` events on a channel, and has these inboxes before
its readers. -/
structure Keeps (t : Keyspace) (limit : Nat) (boxes : ReaderId → Option Inbox) : Prop where
  isOpen : t.closed = false
  depth : t.depth = limit
  wired : t.Wired
  bounded : t.stream.items.length ≤ limit
  readers : ∀ id, Option.Rel t.Backs (t.readers.get? id) (boxes id)

theorem Backs.frame (h : t.Backs reader inbox) (hcapacity : t'.capacity = t.capacity)
    (hstream : t'.stream = t.stream)
    (hkeys : ∀ {key channel}, reader.follows channel = true →
      t.channels.get? key = some channel →
        t'.channels.get? key = some channel ∧
          t'.windows.get? channel = t.windows.get? channel) : t'.Backs reader inbox := by
  cases h with
  | keys tracks turns =>
    refine .keys (tracks.frame hcapacity hkeys) (turns.imp fun channel key hnames => ?_)
    exact ⟨hnames.1, (hkeys (tracks.contains_of_names hnames) hnames.2).1⟩
  | pattern lags =>
    refine .pattern ?_
    rwa [hstream, depth_eq hcapacity]

theorem rel_map {α β γ δ : Type} {R : α → β → Prop} {Q : γ → δ → Prop} {x : Option α}
    {y : Option β} {f : α → γ} {g : β → δ} (h : Option.Rel R x y)
    (himp : ∀ a b, x = some a → R a b → Q (f a) (g b)) : Option.Rel Q (x.map f) (y.map g) := by
  cases h with
  | some hab => exact .some (himp _ _ rfl hab)
  | none => exact .none

theorem rel_imp {α β : Type} {R Q : α → β → Prop} {x : Option α} {y : Option β}
    (h : Option.Rel R x y) (himp : ∀ a b, x = some a → R a b → Q a b) : Option.Rel Q x y := by
  cases h with
  | some hab => exact .some (himp _ _ rfl hab)
  | none => exact .none

namespace Keeps

variable {limit : Nat} {boxes : ReaderId → Option Inbox} {id : ReaderId}

theorem withReaders (h : t.Keeps limit boxes) {readers : Table ReaderId KeyspaceReader}
    {boxes' : ReaderId → Option Inbox}
    (hreaders : ∀ id, Option.Rel t.Backs (readers.get? id) (boxes' id)) :
    { t with readers }.Keeps limit boxes' where
  isOpen := h.isOpen
  depth := h.depth
  wired := ⟨h.wired.apart, h.wired.named, h.wired.window⟩
  bounded := h.bounded
  readers id := by
    refine rel_imp (hreaders id) fun reader inbox _ hbacks => ?_
    exact hbacks.frame rfl rfl fun _ hchannel => ⟨hchannel, rfl⟩

/-- A reader is added, or goes on elsewhere. -/
theorem withReader (h : t.Keeps limit boxes) (id : ReaderId) (hbacks : t.Backs reader inbox) :
    { t with readers := t.readers.insert id reader }.Keeps limit
      (Function.update boxes id (some inbox)) := by
  refine h.withReaders fun id' => ?_
  by_cases hid : id' = id
  · subst hid
    rw [Table.get?_insert_self, Function.update_self]
    exact .some hbacks
  · rw [Table.get?_insert_of_ne _ _ hid, Function.update_of_ne hid]
    exact h.readers id'

theorem drop (h : t.Keeps limit boxes) (id : ReaderId) :
    (t.drop id).Keeps limit (Function.update boxes id none) := by
  refine h.withReaders fun id' => ?_
  by_cases hid : id' = id
  · subst hid
    rw [Table.get?_erase_self, Function.update_self]
    exact .none
  · rw [Table.get?_erase_of_ne _ hid, Function.update_of_ne hid]
    exact h.readers id'

/-! ## Taking -/

theorem next_of_none (h : t.Keeps limit boxes) (hnone : boxes id = none) :
    t.next id = ⟨.ended, 0, t⟩ := by
  have hrel := h.readers id
  rw [hnone] at hrel
  unfold Keyspace.next
  rw [if_neg (by simp [h.isOpen])]
  generalize t.readers.get? id = x at hrel
  cases hrel
  rfl

/-- A reader gets what its inbox gives, and no other reader notices. -/
theorem next (h : t.Keeps limit boxes) (hbox : boxes id = some inbox) :
    (t.next id).result = (inbox.take limit).result ∧
      (t.next id).skipped = (inbox.take limit).skipped ∧
      (t.next id).transport.Keeps limit
        (Function.update boxes id (some (inbox.take limit).inbox)) := by
  have hrel := h.readers id
  rw [hbox] at hrel
  have hdepth := h.depth
  subst hdepth
  unfold Keyspace.next
  rw [if_neg (by simp [h.isOpen])]
  cases hreader : t.readers.get? id with
  | none =>
    rw [hreader] at hrel
    cases hrel
  | some reader =>
    rw [hreader] at hrel
    cases hrel with | some hbacks
    cases hbacks with
    | @keys feed backlogs ready tracks turns =>
      have hpull : let pull := feed.next t.readChannel
          let taken := (Inbox.keys backlogs ready).take t.depth
          pull.result = taken.result ∧ pull.skipped = taken.skipped ∧
            t.Backs (.keys pull.feed) taken.inbox := by
        simp only [Feed.next, Inbox.take, tracks.isEmpty_eq]
        split
        · exact ⟨rfl, rfl, .keys tracks turns⟩
        · exact backs_pull h.wired tracks turns
      exact ⟨hpull.1, hpull.2.1, h.withReader id hpull.2.2⟩
    | @pattern p offset backlog lags =>
      obtain ⟨hevent, hskipped, hafter⟩ := readStream_of p lags
      refine ⟨?_, hskipped, h.withReader id (.pattern hafter)⟩
      simp only [hevent, Inbox.take]
      cases ((kept t.depth backlog).dropWhile fun w => !p.accepts w.key).head? with
      | some w => rfl
      | none => rfl

theorem isQuiet_eq (h : t.Keeps limit boxes) (id : ReaderId) :
    t.isQuiet id = (boxes id).any Inbox.isQuiet := by
  have hrel := h.readers id
  unfold Keyspace.isQuiet
  rw [h.isOpen, Bool.not_false, Bool.true_and]
  cases hreader : t.readers.get? id with
  | none =>
    rw [hreader] at hrel
    generalize boxes id = x at hrel
    cases hrel
    rfl
  | some reader =>
    rw [hreader] at hrel
    generalize boxes id = x at hrel
    cases hrel with | some hbacks
    cases hbacks with
    | @keys feed _ _ tracks turns =>
      obtain ⟨places, channels⟩ := feed
      simp only [Feed.isQuiet, tracks.isEmpty_eq, Option.any_some, Inbox.isQuiet]
      cases turns with
      | nil => rfl
      | cons _ _ => rfl
    | @pattern p offset backlog lags =>
      have hhead := lags.head
      rw [Option.any_some, Inbox.isQuiet, Bool.eq_iff_iff, beq_iff_eq, List.isEmpty_iff,
        ← List.length_eq_zero_iff]
      omega

end Keeps

theorem stream_openChannels (t : Keyspace) (keys : List EventKey) :
    (t.openChannels keys).2.stream = t.stream := by
  induction keys generalizing t with
  | nil => rfl
  | cons key keys ih =>
    refine (ih (t.openChannel key).2).trans ?_
    unfold openChannel
    split
    · rfl
    · rfl

/-! ## Publishing -/

/-- What becomes of the channel of a key on which something is published. -/
inductive Told (t : Keyspace) (w : Stamped) : Keyspace → Prop where
  /-- Nobody hears it, and the key has no channel afterwards. -/
  | unheard (channels : Table EventKey ChannelId)
      (hchannels : ∀ key, channels.get? key =
        if key = w.key then none else t.channels.get? key)
      (hnobody : ∀ {id reader channel}, t.readers.get? id = some reader →
        t.channels.get? w.key = some channel → reader.follows channel = false) :
      Told t w { t with channels }
  /-- The readers on the channel hear it. -/
  | heard (channel : ChannelId) (hchannel : t.channels.get? w.key = some channel) :
      Told t w
        { t with
          windows := t.windows.modify channel fun window => window.push t.depth w
          readers := t.readers.map (KeyspaceReader.wake channel) }

theorem told_publishOnKey (t : Keyspace) (w : Stamped) : t.Told w (t.publishOnKey w) := by
  unfold publishOnKey
  cases hkey : t.channels.get? w.key with
  | none =>
    refine .unheard t.channels (fun key => ?_) fun _ hchannel => ?_
    · split
      next heq => rw [heq, hkey]
      next => rfl
    · rw [hkey] at hchannel
      cases hchannel
  | some channel =>
    dsimp only
    split
    next hreceivers =>
      refine .unheard _ (fun key => ?_) fun hreader hchannel => ?_
      · by_cases heq : key = w.key
        · rw [if_pos heq, heq, Table.get?_erase_self]
        · rw [if_neg heq, Table.get?_erase_of_ne _ heq]
      · obtain rfl := Option.some.inj (hkey.symm.trans hchannel)
        rw [receivers, List.countP_eq_zero] at hreceivers
        simpa using hreceivers _ (Table.mem_values_of_get? hreader)
    next => exact .heard channel hkey

theorem contains_turns (hwired : t.Wired) {channels : List ChannelId} {keys : List EventKey}
    (hturns : List.Forall₂ (t.Names backlogs) channels keys)
    (hkey : t.channels.get? key = some channel) :
    channels.contains channel = keys.contains key := by
  induction hturns with
  | nil => rfl
  | @cons channel' key' _ _ hnames _ ih =>
    have hsame : channel = channel' ↔ key = key' := by
      constructor
      · rintro rfl
        exact hwired.apart hkey hnames.2
      · rintro rfl
        exact Option.some.inj (hkey.symm.trans hnames.2)
    simp only [List.contains_cons, ih, beq_eq_decide, hsame]

/-- A publish that is heard goes to the end of the backlog of everyone who follows its key. -/
theorem Tracks.push (h : t.Tracks places backlogs) (hwired : t.Wired)
    (hkey : t.channels.get? w.key = some channel) (hcapacity : t'.capacity = t.capacity)
    (hchannels : t'.channels = t.channels)
    (hwindows : t'.windows = t.windows.modify channel fun window => window.push t.depth w) :
    t'.Tracks places (backlogs.modify w.key (· ++ [w])) where
  there {key backlog'} hbacklog := by
    by_cases heq : key = w.key
    · subst heq
      rw [Table.get?_modify_self] at hbacklog
      obtain ⟨backlog, hbefore, rfl⟩ := Option.map_eq_some_iff.1 hbacklog
      obtain ⟨channel', hchannel, window, offset, hwindow, hoffset, hlags⟩ := h.there hbefore
      obtain rfl := Option.some.inj (hkey.symm.trans hchannel)
      refine ⟨channel, hchannels ▸ hchannel, window.push t.depth w, offset, ?_, hoffset, ?_⟩
      · rw [hwindows, Table.get?_modify_self, hwindow]
        rfl
      · rw [depth_eq hcapacity]
        exact hlags.push t.depth_pos w
    · rw [Table.get?_modify_of_ne _ _ heq] at hbacklog
      obtain ⟨channel', hchannel, window, offset, hwindow, hoffset, hlags⟩ := h.there hbacklog
      have hne : channel' ≠ channel := by
        rintro rfl
        exact heq (hwired.apart hchannel hkey)
      refine ⟨channel', hchannels ▸ hchannel, window, offset, ?_, hoffset, ?_⟩
      · rw [hwindows, Table.get?_modify_of_ne _ _ hne, hwindow]
      · rwa [depth_eq hcapacity]
  here hcontains := by
    obtain ⟨key, hfollowed, hsame⟩ := h.here hcontains
    exact ⟨key, by rw [Table.contains_modify, hfollowed], hchannels ▸ hsame⟩

theorem Backs.unheard (h : t.Backs reader inbox) {channels : Table EventKey ChannelId}
    (hchannels : ∀ key, channels.get? key = if key = w.key then none else t.channels.get? key)
    (hnobody : ∀ {channel}, t.channels.get? w.key = some channel →
      reader.follows channel = false) :
    { t with channels }.Backs reader (inbox.arriveOnKey w) := by
  have hstill : { t with channels }.Backs reader inbox := by
    refine h.frame rfl rfl fun {key channel} hfollows hchannel => ⟨?_, rfl⟩
    rw [hchannels, if_neg, hchannel]
    rintro rfl
    rw [hnobody hchannel] at hfollows
    cases hfollows
  cases h with
  | @keys feed backlogs ready tracks turns =>
    -- A reader that has a backlog on the key would be on its channel.
    have hnone : backlogs.contains w.key = false := by
      by_contra hcontains
      rw [Bool.not_eq_false] at hcontains
      obtain ⟨backlog, hbacklog⟩ := Option.isSome_iff_exists.1 hcontains
      obtain ⟨channel, hchannel, _⟩ := tracks.there hbacklog
      have hfollows := tracks.contains_of_names ⟨hcontains, hchannel⟩
      have hnot : feed.offsets.contains channel = false := hnobody hchannel
      rw [hfollows] at hnot
      cases hnot
    rwa [Inbox.arriveOnKey, Table.modify_of_contains hnone, hnone]
  | pattern _ => exact hstill

theorem Backs.heard (h : t.Backs reader inbox) (hwired : t.Wired)
    (hkey : t.channels.get? w.key = some channel) (hcapacity : t'.capacity = t.capacity)
    (hstream : t'.stream = t.stream) (hchannels : t'.channels = t.channels)
    (hwindows : t'.windows = t.windows.modify channel fun window => window.push t.depth w) :
    t'.Backs (reader.wake channel) (inbox.arriveOnKey w) := by
  cases h with
  | @keys feed backlogs ready tracks turns =>
    have htracks := tracks.push hwired hkey hcapacity hchannels hwindows
    have hnames : ∀ {channel key}, t.Names backlogs channel key →
        t'.Names (backlogs.modify w.key (· ++ [w])) channel key :=
      fun h => ⟨by rw [Table.contains_modify, h.1], hchannels ▸ h.2⟩
    have hturns := turns.imp fun _ _ => hnames
    have hfollows := tracks.contains_eq hwired hkey
    have hready := contains_turns hwired turns hkey
    simp only [KeyspaceReader.wake, Feed.wake, Feed.follows, Inbox.arriveOnKey, hfollows, hready]
    split
    next hboth =>
      rw [Bool.and_eq_true] at hboth
      exact .keys htracks (List.rel_append hturns (.cons (hnames ⟨hboth.1, hkey⟩) .nil))
    next => exact .keys htracks hturns
  | pattern lags =>
    refine .pattern ?_
    rwa [hstream, depth_eq hcapacity]

namespace Keeps

variable {limit : Nat} {boxes : ReaderId → Option Inbox} {id : ReaderId}

theorem publishOnKey (h : t.Keeps limit boxes) (w : Stamped) :
    (t.publishOnKey w).Keeps limit fun id => (boxes id).map (Inbox.arriveOnKey w) := by
  have htold := t.told_publishOnKey w
  generalize t.publishOnKey w = t' at htold
  cases htold with
  | unheard channels hchannels hnobody =>
    refine ⟨h.isOpen, h.depth, h.wired.without hchannels, h.bounded, fun id => ?_⟩
    have hreaders := h.readers id
    cases hreader : t.readers.get? id with
    | none =>
      rw [hreader] at hreaders
      generalize boxes id = x at hreaders
      cases hreaders
      exact .none
    | some reader =>
      rw [hreader] at hreaders
      generalize boxes id = x at hreaders
      cases hreaders with | some hbacks
      exact .some (hbacks.unheard hchannels (hnobody hreader))
  | heard channel hchannel =>
    refine ⟨h.isOpen, h.depth, ⟨h.wired.apart, h.wired.named, ?window⟩, h.bounded, fun id => ?_⟩
    case window =>
      intro key channel' hkey
      obtain ⟨window, hwindow, hlength⟩ := h.wired.window hkey
      by_cases heq : channel' = channel
      · subst heq
        refine ⟨window.push t.depth w, ?_, Window.length_push_le _ _ _⟩
        rw [Table.get?_modify_self, hwindow]
        rfl
      · exact ⟨window, by rw [Table.get?_modify_of_ne _ _ heq, hwindow], hlength⟩
    rw [Table.get?_map]
    exact rel_map (h.readers id) fun reader inbox _ hbacks =>
      hbacks.heard h.wired hchannel rfl rfl rfl rfl

theorem publishOnStream (h : t.Keeps limit boxes) (w : Stamped) :
    (t.publishOnStream w).Keeps limit fun id => (boxes id).map (Inbox.arriveOnStream w) := by
  unfold Keyspace.publishOnStream
  split
  next hnobody =>
    refine ⟨h.isOpen, h.depth, h.wired, h.bounded, fun id => ?_⟩
    rw [patternReceivers, List.countP_eq_zero] at hnobody
    rw [← Option.map_id' (x := t.readers.get? id)]
    refine rel_map (h.readers id) fun reader inbox hreader hbacks => ?_
    cases hbacks with
    | keys tracks turns => exact .keys tracks turns
    | pattern lags => exact absurd rfl (hnobody _ (Table.mem_values_of_get? hreader))
  next =>
    refine ⟨h.isOpen, h.depth, ⟨h.wired.apart, h.wired.named, h.wired.window⟩, ?_, fun id => ?_⟩
    · rw [← h.depth]
      exact Window.length_push_le _ _ _
    · rw [← Option.map_id' (x := t.readers.get? id)]
      refine rel_map (h.readers id) fun reader inbox _ hbacks => ?_
      cases hbacks with
      | keys tracks turns =>
        refine .keys (tracks.frame rfl fun _ hchannel => ⟨hchannel, rfl⟩) ?_
        exact turns.imp fun _ _ hnames => hnames
      | pattern lags => exact .pattern (lags.push t.depth_pos w)

theorem publish (h : t.Keeps limit boxes) (w : Stamped) : ∃ t', t.publish w = .ok t' ∧
    t'.Keeps limit fun id => (boxes id).map (Inbox.arrive w) := by
  refine ⟨_, if_neg (by simp [h.isOpen]), ?_⟩
  have hboth := (h.publishOnKey w).publishOnStream w
  simp only [Option.map_map] at hboth
  exact hboth

/-! ## Registering -/

/-- New channels change nothing for those who are there. -/
theorem extend (h : t.Keeps limit boxes) (hwired : t'.Wired) (hextends : t.Extends t')
    (hstream : t'.stream = t.stream) : t'.Keeps limit boxes where
  isOpen := hextends.closed.trans h.isOpen
  depth := (depth_eq hextends.capacity).trans h.depth
  wired := hwired
  bounded := by
    rw [hstream]
    exact h.bounded
  readers id := by
    rw [hextends.readers]
    refine rel_imp (h.readers id) fun reader inbox _ hbacks => ?_
    exact hbacks.frame hextends.capacity hstream fun _ hchannel => hextends.channels hchannel

theorem backs_start (h : t.Keeps limit boxes) {keys : List EventKey}
    {opened : List (ChannelId × Nat)} (hopened : t.Opened opened keys) :
    t.Backs (.keys (.start opened)) (.ofKeys keys) := by
  have hcontains : ∀ {key}, Table.contains ⟨keys.map fun key => (key, ([] : List Stamped))⟩ key =
      true ↔ key ∈ keys := by
    simp [Table.contains_iff_mem_keys, Table.keys]
  refine .keys ⟨fun {key backlog} hbacklog => ?there, fun {channel} hchannel => ?here⟩ ?turns
  case there =>
    have hentry := Table.mem_entries_of_get? hbacklog
    simp only [List.mem_map, Prod.mk.injEq] at hentry
    obtain ⟨key, hkey, rfl, rfl⟩ := hentry
    -- A reader begins at the head of each channel, with nothing to catch up on.
    obtain ⟨channel, hmem, hchannel⟩ := hopened.exists_channel hkey
    obtain ⟨window, hwindow, hlength⟩ := h.wired.window hchannel
    exact ⟨channel, hchannel, window, window.head, hwindow, hopened.get?_start hmem hwindow,
      Window.lags_head hlength⟩
  case here =>
    obtain ⟨key, hkey, hsame⟩ := hopened.exists_key (Table.contains_iff_mem_keys.1 hchannel)
    exact ⟨key, hcontains.2 hkey, hsame⟩
  case turns =>
    exact hopened.ready_start.imp fun channel key hturn => ⟨hcontains.2 hturn.1, hturn.2⟩

theorem subscribe (h : t.Keeps limit boxes) (id : ReaderId) (keys : List EventKey) :
    ∃ t', t.subscribe id keys = .ok t' ∧
      t'.Keeps limit
        (Function.update boxes id (some (.ofKeys (EventKey.sortDistinct keys)))) := by
  obtain ⟨hwired, hextends, hopened⟩ := h.wired.openChannels (EventKey.sortDistinct keys)
  have hboth := h.extend hwired hextends (stream_openChannels _ _)
  exact ⟨_, if_neg (by simp [h.isOpen]), hboth.withReader id (hboth.backs_start hopened)⟩

theorem patternSubscribe (h : t.Keeps limit boxes) (id : ReaderId) (p : KeyPattern) :
    ∃ t', t.patternSubscribe id p = .ok t' ∧
      t'.Keeps limit (Function.update boxes id (some (.pattern p []))) := by
  have hstart : t.Backs (.pattern p t.stream.head) (.pattern p []) :=
    .pattern (Window.lags_head (h.depth ▸ h.bounded))
  exact ⟨_, if_neg (by simp [h.isOpen]), h.withReader id hstart⟩

theorem create {slot capacity : Nat} (h : create? slot capacity = some t) :
    t.Keeps capacity.nextPowerOfTwo fun _ => none := by
  unfold create? at h
  split at h
  · cases h
    exact ⟨rfl, rfl, wired_start capacity, Nat.zero_le _, fun _ => .none⟩
  · cases h

end Keeps

end Keyspace

end Observatory
