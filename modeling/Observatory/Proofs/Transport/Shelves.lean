import Observatory.Proofs.Identity.Order
import Observatory.Proofs.Transport.Partition

/-!
# The log and its partitions

The log is made of partitions that have nothing to do with each other. Whatever is asked of it comes
to accesses to the partition of each key: a publish appends to the partition of its key, a
subscription follows the partitions of its keys, and a reader that asks for an event reads one
partition after the other until one has something.
-/

namespace Observatory

/-! ## Feeds -/

namespace Feed

variable {χ : Type} [DecidableEq χ]

/-- The channels of a list that are asked until one has an event, with what they give. -/
def asked (read : χ → Nat → Reading) (offsets : Table χ Nat) : List χ → List (χ × Reading)
  | [] => []
  | channel :: ready =>
    let reading := read channel ((offsets.get? channel).getD 0)
    let later := asked read (offsets.insert channel reading.offset) ready
    (channel, reading) :: if reading.event.isSome then [] else later

/-- The channels that a feed asks for its next event, with what they give. -/
def visits (f : Feed χ) (read : χ → Nat → Reading) : List (χ × Reading) :=
  if f.offsets.isEmpty then [] else asked read f.offsets f.ready

/-- The channels to ask are among those that the feed follows. -/
def Sound (f : Feed χ) : Prop :=
  ∀ channel ∈ f.ready, f.follows channel = true

variable {read : χ → Nat → Reading} {offsets : Table χ Nat} {ready : List χ} {channel : χ}
  {f : Feed χ}

theorem pull_asked (read : χ → Nat → Reading) (offsets : Table χ Nat) (ready : List χ) :
    (pull read offsets ready).skipped = Reading.missed ((asked read offsets ready).map Prod.snd) ∧
    (pull read offsets ready).result =
      match (asked read offsets ready).findSome? fun visit => visit.2.event with
      | some w => .item w
      | none => .pending := by
  induction ready generalizing offsets with
  | nil => exact ⟨rfl, rfl⟩
  | cons channel ready ih =>
    rw [pull, asked]
    cases hevent : (read channel ((offsets.get? channel).getD 0)).event with
    | some w => simp [hevent, Reading.missed]
    | none =>
      obtain ⟨hskipped, hresult⟩ := @ih (offsets.insert channel
        (read channel ((offsets.get? channel).getD 0)).offset)
      simp only [hskipped, hresult]
      exact ⟨List.sum_cons.symm, by simp [hevent]⟩

theorem next_visits (f : Feed χ) (read : χ → Nat → Reading) :
    (f.next read).skipped = Reading.missed ((f.visits read).map Prod.snd) ∧
    ∀ w, (f.next read).result = .item w ↔
      ((f.visits read).findSome? fun visit => visit.2.event) = some w := by
  unfold next visits
  split
  · exact ⟨rfl, fun w => ⟨nofun, nofun⟩⟩
  · obtain ⟨hskipped, hresult⟩ := pull_asked read f.offsets f.ready
    refine ⟨hskipped, fun w => ?_⟩
    rw [hresult]
    cases (asked read f.offsets f.ready).findSome? fun visit => visit.2.event with
    | none => exact ⟨nofun, nofun⟩
    | some found => simp

/-! ## Sound feeds -/

theorem Sound.rotate (h : Sound ⟨offsets, channel :: ready⟩) (offset : Nat) :
    Sound ⟨offsets.insert channel offset, ready ++ [channel]⟩ := by
  intro channel' hmem
  rw [follows, Table.contains_insert, Bool.or_eq_true]
  rcases List.mem_append.1 hmem with hmem | hmem
  · exact .inr (h channel' (List.mem_cons_of_mem channel hmem))
  · exact .inl (decide_eq_true (List.mem_singleton.1 hmem))

theorem Sound.rest (h : Sound ⟨offsets, channel :: ready⟩) (offset : Nat) :
    Sound ⟨offsets.insert channel offset, ready⟩ :=
  fun channel' hmem => h.rotate offset channel' (List.mem_append_left _ hmem)

theorem sound_pull (h : Sound ⟨offsets, ready⟩) : (pull read offsets ready).feed.Sound := by
  induction ready generalizing offsets with
  | nil => exact h
  | cons channel ready ih =>
    rw [pull]
    cases hevent : (read channel ((offsets.get? channel).getD 0)).event with
    | some w => exact h.rotate _
    | none => exact ih (h.rest _)

theorem Sound.next (h : f.Sound) : (f.next read).feed.Sound := by
  unfold Feed.next
  split
  · exact h
  · exact sound_pull h

theorem Sound.wake (h : f.Sound) (channel : χ) : (f.wake channel).Sound := by
  unfold Feed.wake
  split
  next hnews =>
    intro channel' hmem
    rcases List.mem_append.1 hmem with hmem | hmem
    · exact h channel' hmem
    · rw [List.mem_singleton.1 hmem]
      exact (Bool.and_eq_true_iff.1 hnews).1
  next => exact h

theorem sound_start (places : List (χ × Nat)) : (start places).Sound :=
  fun _ hmem => Table.contains_iff_mem_keys.2 hmem

@[simp]
theorem offsets_wake (f : Feed χ) (channel : χ) : (f.wake channel).offsets = f.offsets := by
  unfold Feed.wake
  split
  · rfl
  · rfl

end Feed

namespace Log

/-! ## Queries as accesses -/

def ask (t : Log) : Query → Log
  | .publish w =>
    match t.publish w with
    | .ok after => after
    | .error _ => t
  | .subscribe id keys =>
    match t.subscribe id keys with
    | .ok after => after
    | .error _ => t
  | .read id => (t.next id).transport
  | .drop id => t.drop id
  | .shutdown => t.shutdown

def after (t : Log) (queries : List Query) : Log :=
  queries.foldl ask t

/-- The partition of a key, with the places at which readers are on it. -/
def shelf (t : Log) (key : EventKey) : Shelf :=
  ⟨t.partition key, fun id => (t.readers.get? id).bind fun feed => feed.offsets.get? key⟩

def reads (t : Log) (key : EventKey) : Nat → Reading :=
  readPartition (t.partition key)

/-- The partitions that a reader reads for its next event, with what they give. -/
def visits (t : Log) (id : ReaderId) : List (EventKey × Reading) :=
  if t.closed then [] else ((t.readers.get? id).map fun feed => feed.visits t.reads).getD []

/-- What the partition of a key gives among all that are read. -/
def readingsOn (key : EventKey) (visits : List (EventKey × Reading)) : List Reading :=
  (visits.filter fun visit => visit.1 = key).map Prod.snd

/-- What a reader that reads these partitions does to the partition of a key. -/
def readsOn (key : EventKey) (id : ReaderId) (visits : List (EventKey × Reading)) : List Access :=
  (readingsOn key visits).map fun _ => .read id

/-- What a query does to the partition of a key. -/
def accessesOf (t : Log) (key : EventKey) : Query → List Access
  | .publish w => if t.closed = false ∧ w.key = key then [.append w] else []
  | .subscribe id keys =>
    if t.closed then [] else if key ∈ keys then [.follow id] else [.leave id]
  | .read id => readsOn key id (t.visits id)
  | .drop id => [.leave id]
  | .shutdown => []

def accesses (t : Log) (key : EventKey) : List Query → List Access
  | [] => []
  | query :: queries => t.accessesOf key query ++ (t.ask query).accesses key queries

/-- The log with a reader that goes on like this. -/
def withReader (t : Log) (id : ReaderId) (feed : Feed EventKey) : Log :=
  { t with readers := t.readers.insert id feed }

variable {t : Log} {key : EventKey} {id : ReaderId} {s : Shelf}

/-! ## What queries come to -/

theorem ask_publish (t : Log) (w : Stamped) :
    t.closed = true ∧ t.ask (.publish w) = t ∨
      t.closed = false ∧ t.Appended w (t.ask (.publish w)) := by
  cases hclosed : t.closed with
  | true =>
    refine .inl ⟨rfl, ?_⟩
    rw [ask, publish, if_pos hclosed]
  | false =>
    obtain ⟨after, hafter, happended⟩ := publish_of_open hclosed w
    refine .inr ⟨rfl, ?_⟩
    rw [ask, hafter]
    exact happended

/-- The places at which a reader of these keys begins. -/
def ends (t : Log) (keys : List EventKey) : Feed EventKey :=
  .start ((EventKey.sortDistinct keys).map fun key => (key, (t.partition key).head))

theorem ask_subscribe (t : Log) (id : ReaderId) (keys : List EventKey) :
    t.closed = true ∧ t.ask (.subscribe id keys) = t ∨
      t.closed = false ∧ t.ask (.subscribe id keys) = t.withReader id (t.ends keys) := by
  rw [ask, subscribe]
  by_cases hclosed : t.closed = true
  · rw [if_pos hclosed]
    exact .inl ⟨hclosed, rfl⟩
  · rw [if_neg hclosed]
    exact .inr ⟨Bool.eq_false_of_not_eq_true hclosed, rfl⟩

theorem next_cases (t : Log) (id : ReaderId) :
    (t.visits id = [] ∧ (t.next id).skipped = 0 ∧ (t.next id).result = .ended ∧
      (t.next id).transport = t) ∨
    ∃ feed, t.readers.get? id = some feed ∧ t.visits id = feed.visits t.reads ∧
      (t.next id).skipped = (feed.next t.reads).skipped ∧
      (t.next id).result = (feed.next t.reads).result ∧
      (t.next id).transport = t.withReader id (feed.next t.reads).feed := by
  unfold next visits
  split
  · exact .inl ⟨rfl, rfl, rfl, rfl⟩
  · cases hfeed : t.readers.get? id with
    | none => exact .inl ⟨rfl, rfl, rfl, rfl⟩
    | some feed => exact .inr ⟨feed, rfl, rfl, rfl, rfl, rfl⟩

/-! ## Shelves -/

theorem shelf_withReader (t : Log) (id : ReaderId) (feed : Feed EventKey) (key : EventKey) :
    (t.withReader id feed).shelf key = (t.shelf key).move id (feed.offsets.get? key) := by
  refine congrArg (Shelf.mk (t.partition key)) (funext fun id' => ?_)
  by_cases hid : id' = id
  · subst hid
    simp [withReader]
  · simp [shelf, withReader, hid]

theorem shelf_drop (t : Log) (id : ReaderId) (key : EventKey) :
    (t.drop id).shelf key = (t.shelf key).move id none := by
  refine congrArg (Shelf.mk (t.partition key)) (funext fun id' => ?_)
  by_cases hid : id' = id
  · subst hid
    simp [drop]
  · simp [shelf, drop, hid]

theorem Appended.shelf_eq {after : Log} {w : Stamped} (h : t.Appended w after) (key : EventKey) :
    after.shelf key = if w.key = key then (t.shelf key).access t.retention (.append w)
      else t.shelf key := by
  have hplaces : (after.shelf key).places = (t.shelf key).places := by
    funext id
    simp only [shelf, h.readers, Table.get?_map, Option.bind_map, Function.comp_def,
      Feed.offsets_wake]
  have hafter : after.shelf key = ⟨after.partition key, (after.shelf key).places⟩ := rfl
  rw [hafter, hplaces, h.partition]
  by_cases hkey : w.key = key
  · rw [if_pos hkey.symm, if_pos hkey]
    rfl
  · rw [if_neg (Ne.symm hkey), if_neg hkey]
    rfl

theorem get?_ends (t : Log) (keys : List EventKey) (key : EventKey) :
    (t.ends keys).offsets.get? key =
      if key ∈ keys then some (t.partition key).head else none := by
  have hkeys : key ∈ (t.ends keys).offsets.keys ↔ key ∈ keys := by
    simp [ends, Feed.start, Table.keys, EventKey.mem_sortDistinct]
  by_cases hkey : key ∈ keys
  · rw [if_pos hkey]
    exact Table.get?_of_forall (f := fun key => (t.partition key).head)
      (by simp [ends, Feed.start]) (hkeys.2 hkey)
  · rw [if_neg hkey]
    rw [← hkeys, ← Table.contains_iff_mem_keys] at hkey
    exact Option.not_isSome_iff_eq_none.1 hkey

theorem readingsOn_cons_self (key : EventKey) (reading : Reading)
    (visits : List (EventKey × Reading)) :
    readingsOn key ((key, reading) :: visits) = reading :: readingsOn key visits := by
  simp [readingsOn]

theorem readingsOn_cons_of_ne {channel : EventKey} (h : channel ≠ key) (reading : Reading)
    (visits : List (EventKey × Reading)) :
    readingsOn key ((channel, reading) :: visits) = readingsOn key visits := by
  simp [readingsOn, h]

/-- A partition sees of a reader only when it is read itself. -/
theorem run_asked (limit : Nat) {read : EventKey → Nat → Reading} {offsets : Table EventKey Nat}
    {ready : List EventKey} (hread : read key = readPartition s.window)
    (hplace : s.places id = offsets.get? key) (hsound : Feed.Sound ⟨offsets, ready⟩) :
    s.run limit (readsOn key id (Feed.asked read offsets ready)) =
      s.move id ((Feed.pull read offsets ready).feed.offsets.get? key) ∧
    s.readings limit id (readsOn key id (Feed.asked read offsets ready)) =
      readingsOn key (Feed.asked read offsets ready) := by
  unfold readsOn
  induction ready generalizing s offsets with
  | nil =>
    refine ⟨?_, rfl⟩
    rw [Feed.pull, ← hplace, Shelf.move_places]
    rfl
  | cons channel ready ih =>
    rw [Feed.pull, Feed.asked]
    by_cases hkey : channel = key
    · -- The partition itself is read, so the reader follows it and has a place on it.
      subst hkey
      obtain ⟨place, hoffset⟩ := Option.isSome_iff_exists.1 (hsound channel List.mem_cons_self)
      rw [hoffset, Option.getD_some, hread]
      rw [hoffset] at hplace
      have hreading : s.reading? id = some (readPartition s.window place) := by
        rw [Shelf.reading?, hplace, Option.map_some]
      have hmoved : s.access limit (.read id) =
          s.move id (some (readPartition s.window place).offset) := by
        rw [Shelf.access, hreading, Option.map_some]
      have hthere : (s.move id (some (readPartition s.window place).offset)).places id =
          (offsets.insert channel (readPartition s.window place).offset).get? channel := by
        rw [Shelf.places_move_self, Table.get?_insert_self]
      rw [readingsOn_cons_self, List.map_cons, Shelf.readings, if_pos rfl, hreading, Shelf.run,
        List.foldl_cons, ← Shelf.run, hmoved]
      cases hevent : (readPartition s.window place).event with
      | some w =>
        rw [Option.isSome_some, if_pos rfl]
        dsimp only
        rw [← hthere, Shelf.places_move_self]
        exact ⟨rfl, rfl⟩
      | none =>
        obtain ⟨hrun, hreadings⟩ := @ih
          (s.move id (some (readPartition s.window place).offset)) _ hread hthere (hsound.rest _)
        rw [Option.isSome_none, if_neg (by decide), hrun, hreadings, Shelf.move_move]
        exact ⟨rfl, rfl⟩
    · -- Another partition is read, and nothing happens to this one.
      rw [readingsOn_cons_of_ne hkey]
      have hthere : s.places id = (offsets.insert channel
          (read channel ((offsets.get? channel).getD 0)).offset).get? key := by
        rw [hplace, Table.get?_insert_of_ne _ _ (Ne.symm hkey)]
      cases hevent : (read channel ((offsets.get? channel).getD 0)).event with
      | some w =>
        rw [Option.isSome_some, if_pos rfl]
        dsimp only
        rw [← hthere, Shelf.move_places]
        exact ⟨rfl, rfl⟩
      | none =>
        rw [Option.isSome_none, if_neg (by decide)]
        exact ih hread hthere (hsound.rest _)

theorem run_visits (limit : Nat) {read : EventKey → Nat → Reading} {feed : Feed EventKey}
    (hread : read key = readPartition s.window) (hplace : s.places id = feed.offsets.get? key)
    (hsound : feed.Sound) :
    s.run limit (readsOn key id (feed.visits read)) =
      s.move id ((feed.next read).feed.offsets.get? key) ∧
    s.readings limit id (readsOn key id (feed.visits read)) =
      readingsOn key (feed.visits read) := by
  unfold Feed.next Feed.visits
  split
  · rw [← hplace, Shelf.move_places]
    exact ⟨rfl, rfl⟩
  · exact run_asked limit hread hplace hsound

/-! ## Steps -/

/-- Every reader asks only partitions that it follows. -/
def Sound (t : Log) : Prop :=
  ∀ id feed, t.readers.get? id = some feed → feed.Sound

theorem shelf_next (h : t.Sound) (id : ReaderId) (key : EventKey) :
    (t.next id).transport.shelf key =
      (t.shelf key).run t.retention (readsOn key id (t.visits id)) ∧
    (t.shelf key).readings t.retention id (readsOn key id (t.visits id)) =
      readingsOn key (t.visits id) := by
  obtain ⟨hvisits, -, -, hafter⟩ | ⟨feed, hfeed, hvisits, -, -, hafter⟩ := t.next_cases id
  · rw [hvisits, hafter]
    exact ⟨rfl, rfl⟩
  · have hplace : (t.shelf key).places id = feed.offsets.get? key := by simp [shelf, hfeed]
    have hread : t.reads key = readPartition (t.shelf key).window := rfl
    obtain ⟨hrun, hreadings⟩ := run_visits t.retention hread hplace (h id feed hfeed)
    rw [hvisits, hafter, shelf_withReader]
    exact ⟨hrun.symm, hreadings⟩

theorem shelf_ask (h : t.Sound) (key : EventKey) (query : Query) :
    (t.ask query).shelf key = (t.shelf key).run t.retention (t.accessesOf key query) := by
  cases query with
  | publish w =>
    rw [accessesOf]
    obtain ⟨hclosed, hsame⟩ | ⟨hopen, happended⟩ := t.ask_publish w
    · rw [hsame, if_neg (by simp [hclosed])]
      rfl
    · rw [happended.shelf_eq]
      by_cases hkey : w.key = key
      · rw [if_pos hkey, if_pos ⟨hopen, hkey⟩]
        rfl
      · rw [if_neg hkey, if_neg fun h => hkey h.2]
        rfl
  | subscribe id keys =>
    rw [accessesOf]
    obtain ⟨hclosed, hsame⟩ | ⟨hopen, hafter⟩ := t.ask_subscribe id keys
    · rw [hsame, if_pos hclosed]
      rfl
    · have hnot : ¬ t.closed = true := Bool.not_eq_true _ ▸ hopen
      rw [hafter, shelf_withReader, get?_ends, if_neg hnot]
      by_cases hkey : key ∈ keys
      · rw [if_pos hkey, if_pos hkey]
        rfl
      · rw [if_neg hkey, if_neg hkey]
        rfl
  | read id => exact (shelf_next h id key).1
  | drop id => exact shelf_drop t id key
  | shutdown => rfl

theorem Sound.withReader {feed : Feed EventKey} (h : t.Sound) (hfeed : feed.Sound)
    (id : ReaderId) : (t.withReader id feed).Sound := by
  intro id' feed' hfeed'
  by_cases hid : id' = id
  · subst hid
    rw [Log.withReader, Table.get?_insert_self] at hfeed'
    cases hfeed'
    exact hfeed
  · rw [Log.withReader, Table.get?_insert_of_ne _ _ hid] at hfeed'
    exact h id' feed' hfeed'

theorem Sound.ask (h : t.Sound) (query : Query) : (t.ask query).Sound := by
  cases query with
  | publish w =>
    obtain ⟨-, hsame⟩ | ⟨-, happended⟩ := t.ask_publish w
    · rwa [hsame]
    · intro id feed hfeed
      rw [happended.readers, Table.get?_map] at hfeed
      obtain ⟨before, hbefore, rfl⟩ := Option.map_eq_some_iff.1 hfeed
      exact (h id before hbefore).wake w.key
  | subscribe id keys =>
    obtain ⟨-, hsame⟩ | ⟨-, hafter⟩ := t.ask_subscribe id keys
    · rwa [hsame]
    · rw [hafter]
      exact h.withReader (Feed.sound_start _) id
  | read id =>
    rw [Log.ask]
    obtain ⟨-, -, -, hafter⟩ | ⟨feed, hfeed, -, -, -, hafter⟩ := t.next_cases id
    · rwa [hafter]
    · rw [hafter]
      exact h.withReader (h id feed hfeed).next id
  | drop id =>
    intro id' feed hfeed
    by_cases hid : id' = id
    · subst hid
      rw [Log.ask, drop, Table.get?_erase_self] at hfeed
      cases hfeed
    · rw [Log.ask, drop, Table.get?_erase_of_ne _ hid] at hfeed
      exact h id' feed hfeed
  | shutdown => exact h

theorem retention_ask (t : Log) (query : Query) : (t.ask query).retention = t.retention := by
  cases query with
  | publish w =>
    obtain ⟨-, hsame⟩ | ⟨-, happended⟩ := t.ask_publish w
    · rw [hsame]
    · exact happended.retention
  | subscribe id keys =>
    obtain ⟨-, hsame⟩ | ⟨-, hafter⟩ := t.ask_subscribe id keys
    · rw [hsame]
    · rw [hafter, withReader]
  | read id =>
    rw [ask]
    obtain ⟨-, -, -, hafter⟩ | ⟨feed, -, -, -, -, hafter⟩ := t.next_cases id
    · rw [hafter]
    · rw [hafter, withReader]
  | drop id => rfl
  | shutdown => rfl

/-! ## Runs -/

theorem sound_create (retention : Nat) : (create retention).Sound :=
  fun _ _ h => by cases h

theorem Sound.after (h : t.Sound) (queries : List Query) : (t.after queries).Sound := by
  induction queries generalizing t with
  | nil => exact h
  | cons query queries ih => exact ih (h.ask query)

theorem retention_after (t : Log) (queries : List Query) :
    (t.after queries).retention = t.retention := by
  induction queries generalizing t with
  | nil => rfl
  | cons query queries ih => exact (ih (t.ask query)).trans (retention_ask t query)

theorem shelf_after (h : t.Sound) (queries : List Query) (key : EventKey) :
    (t.after queries).shelf key = (t.shelf key).run t.retention (t.accesses key queries) := by
  induction queries generalizing t with
  | nil => rfl
  | cons query queries ih =>
    have hrest := ih (h.ask query)
    rw [retention_ask, shelf_ask h] at hrest
    rw [accesses, Shelf.run, List.foldl_append]
    exact hrest

theorem next_visits (t : Log) (id : ReaderId) :
    (t.next id).skipped = Reading.missed ((t.visits id).map Prod.snd) ∧
    ∀ w, (t.next id).result = .item w ↔
      ((t.visits id).findSome? fun visit => visit.2.event) = some w := by
  obtain ⟨hvisits, hskipped, hresult, -⟩ | ⟨feed, -, hvisits, hskipped, hresult, -⟩ :=
    t.next_cases id
  · rw [hvisits, hskipped, hresult]
    exact ⟨rfl, fun w => ⟨nofun, nofun⟩⟩
  · rw [hvisits, hskipped, hresult]
    exact feed.next_visits t.reads

theorem eq_publish {query : Query} {w : Stamped} (h : .append w ∈ t.accessesOf key query) :
    query = .publish w := by
  cases query with
  | publish w' =>
    rw [accessesOf] at h
    split at h
    · cases List.mem_singleton.1 h
      rfl
    · cases h
  | subscribe id keys =>
    rw [accessesOf] at h
    split at h
    · cases h
    · split at h
      · cases List.mem_singleton.1 h
      · cases List.mem_singleton.1 h
  | read id =>
    obtain ⟨reading, -, heq⟩ := List.mem_map.1 h
    cases heq
  | drop id => cases List.mem_singleton.1 h
  | shutdown => cases h

theorem mem_of_mem_appended {queries : List Query} {w : Stamped}
    (h : w ∈ appended (t.accesses key queries)) : .publish w ∈ queries := by
  induction queries generalizing t with
  | nil => cases h
  | cons query queries ih =>
    rw [accesses, appended, List.filterMap_append, List.mem_append] at h
    rcases h with h | h
    · obtain ⟨access, hmem, happend⟩ := List.mem_filterMap.1 h
      cases access with
      | append w' =>
        cases happend
        rw [eq_publish hmem]
        exact List.mem_cons_self
      | follow id => cases happend
      | read id => cases happend
      | leave id => cases happend
    · exact List.mem_cons_of_mem query (ih h)

/-- How a log that keeps `retention` entries of a key is made of its partitions after some
queries. -/
structure Composed (retention : Nat) (queries : List Query) (t : Log) : Prop where
  /-- Each partition has had the accesses that the queries come to. -/
  shelf : ∀ key, t.shelf key =
    Shelf.bare.run (max retention 1) ((create retention).accesses key queries)
  served : (∀ w, .publish w ∈ queries → w.Fits) → ∀ key,
    Served (max retention 1) ((create retention).accesses key queries) (t.shelf key)
  /-- A reader is told of all that it misses on the partitions that it reads. -/
  skipped : ∀ id, (t.next id).skipped = Reading.missed ((t.visits id).map Prod.snd)
  /-- It gets the first event that they give. -/
  result : ∀ id w, (t.next id).result = .item w ↔
    ((t.visits id).findSome? fun visit => visit.2.event) = some w
  /-- Each of them gives what the access to it gives. -/
  readings : ∀ id key, readingsOn key (t.visits id) =
    (t.shelf key).readings (max retention 1) id (t.accessesOf key (.read id))

/-- What a log keeps, and what its readers get: a partition has served its readers well after any
accesses, and every log is made of such partitions. -/
theorem serves (retention : Nat) :
    (∀ accesses, (∀ w ∈ appended accesses, w.Fits) →
      Served (max retention 1) accesses (Shelf.bare.run (max retention 1) accesses)) ∧
    ∀ queries, Composed retention queries ((create retention).after queries) := by
  have hlimit : 0 < max retention 1 := lt_of_lt_of_le Nat.zero_lt_one (le_max_right ..)
  refine ⟨fun accesses hfits => served hlimit accesses hfits, fun queries => ?_⟩
  have hshelf := shelf_after (sound_create retention) queries
  have hsound := (sound_create retention).after queries
  refine ⟨hshelf, fun hfits key => ?served, fun id => (next_visits _ id).1,
    fun id => (next_visits _ id).2, fun id key => ?readings⟩
  case served =>
    rw [hshelf key]
    exact served hlimit _ fun w hw => hfits w (mem_of_mem_appended hw)
  case readings =>
    have hreadings := (shelf_next hsound id key).2
    rw [retention_after] at hreadings
    exact hreadings.symm

/-- A reader is overtaken, comes back, and gets all that is left. -/
def overtaken : List Access :=
  [.append (lapOn false 1), .follow 0, .append (lapOn false 2), .append (lapOn false 3),
    .append (lapOn false 4), .append (lapOn false 5), .read 0, .read 0, .read 0]

theorem fits_overtaken : ∀ w ∈ appended overtaken, w.Fits := by
  intro w hw
  change w ∈ [lapOn false 1, lapOn false 2, lapOn false 3, lapOn false 4, lapOn false 5] at hw
  simp only [List.mem_cons, List.not_mem_nil, or_false] at hw
  rcases hw with rfl | rfl | rfl | rfl | rfl <;> apply fits_lapOn

/-- Four entries were appended since the reader came, and it accounts for four. -/
theorem serves_overtaken : Reckoned 1 5 (appended overtaken)
    ((Shelf.bare.run 2 (overtaken.take 2)).readings 2 0 (overtaken.drop 2)) := by
  have hserved : Served 2 overtaken (Shelf.bare.run 2 overtaken) :=
    (serves 2).1 overtaken fits_overtaken
  have hplace : (Shelf.bare.run 2 overtaken).places 0 = some 5 := by decide +kernel
  have hsplit : overtaken = [.append (lapOn false 1)] ++ .follow 0 :: overtaken.drop 2 := rfl
  obtain ⟨place, hplace', hreckoned⟩ :=
    hserved.reckons hsplit (by decide +kernel) (by decide +kernel)
  cases hplace.symm.trans hplace'
  exact hreckoned

end Log

end Observatory
