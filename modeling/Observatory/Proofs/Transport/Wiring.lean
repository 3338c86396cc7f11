import Mathlib
import Observatory.Proofs.Identity.Order
import Observatory.Proofs.Table
import Observatory.Transport.Keyspace

/-!
# The channels of the keyspace

Every key that has a channel has one of its own, and the channel keeps no more events than its
depth. Opening channels for some keys gives them channels and leaves all others as they are.
-/

namespace Observatory

theorem exists_of_mem {α β : Type} {R : α → β → Prop} {xs : List α} {ys : List β} {x : α}
    (h : List.Forall₂ R xs ys) (hx : x ∈ xs) : ∃ y ∈ ys, R x y := by
  induction h with
  | nil => cases hx
  | @cons _ y _ _ hhead _ ih =>
    rcases List.mem_cons.1 hx with rfl | hx
    · exact ⟨y, List.mem_cons_self, hhead⟩
    · obtain ⟨y, hy, hxy⟩ := ih hx
      exact ⟨y, List.mem_cons_of_mem _ hy, hxy⟩

namespace Keyspace

variable {t t' t'' : Keyspace} {key key' : EventKey} {channel : ChannelId}

/-- Every channel belongs to one key, and has a window that is not too long. -/
structure Wired (t : Keyspace) : Prop where
  apart : ∀ {key key' channel}, t.channels.get? key = some channel →
    t.channels.get? key' = some channel → key = key'
  named : ∀ {key channel}, t.channels.get? key = some channel → channel < t.nextChannel
  window : ∀ {key channel}, t.channels.get? key = some channel →
    ∃ window, t.windows.get? channel = some window ∧ window.items.length ≤ t.depth

/-- The channels that there were are there, and keep what they kept. -/
structure Extends (t t' : Keyspace) : Prop where
  channels : ∀ {key channel}, t.channels.get? key = some channel →
    t'.channels.get? key = some channel ∧ t'.windows.get? channel = t.windows.get? channel
  capacity : t'.capacity = t.capacity
  readers : t'.readers = t.readers
  closed : t'.closed = t.closed

theorem Extends.refl (t : Keyspace) : Extends t t :=
  ⟨fun h => ⟨h, rfl⟩, rfl, rfl, rfl⟩

theorem Extends.trans (h : Extends t t') (h' : Extends t' t'') : Extends t t'' where
  channels hkey :=
    have hkey' := h.channels hkey
    have hkey'' := h'.channels hkey'.1
    ⟨hkey''.1, hkey''.2.trans hkey'.2⟩
  capacity := h'.capacity.trans h.capacity
  readers := h'.readers.trans h.readers
  closed := h'.closed.trans h.closed

theorem wired_start (capacity : Nat) :
    Wired ⟨capacity, .empty, .empty, .empty, .empty, 0, false⟩ := by
  constructor <;> simp

/-- A key may lose its channel, and the other channels stay as they are. -/
theorem Wired.without (h : t.Wired) {channels : Table EventKey ChannelId} {gone : EventKey}
    (hchannels : ∀ key, channels.get? key = if key = gone then none else t.channels.get? key) :
    Wired { t with channels } := by
  have hold : ∀ {key channel}, channels.get? key = some channel →
      t.channels.get? key = some channel := by
    intro key channel hkey
    rw [hchannels] at hkey
    split at hkey
    next => cases hkey
    next => exact hkey
  exact ⟨fun hkey hkey' => h.apart (hold hkey) (hold hkey'), fun hkey => h.named (hold hkey),
    fun hkey => h.window (hold hkey)⟩

theorem Wired.openChannel (h : t.Wired) (key : EventKey) :
    (t.openChannel key).2.Wired ∧ Extends t (t.openChannel key).2 ∧
      (t.openChannel key).2.channels.get? key = some (t.openChannel key).1 := by
  unfold Keyspace.openChannel
  split
  next channel hkey => exact ⟨h, .refl t, hkey⟩
  next hnone =>
    -- The new channel has a name that no channel of the table has.
    have hnew : ∀ {key' channel}, t.channels.get? key' = some channel →
        key' ≠ key ∧ channel ≠ t.nextChannel := by
      intro key' channel hkey'
      refine ⟨?_, Nat.ne_of_lt (h.named hkey')⟩
      rintro rfl
      rw [hnone] at hkey'
      cases hkey'
    have hcases : ∀ {key' channel}, (t.channels.insert key t.nextChannel).get? key' = some channel →
        key' = key ∧ channel = t.nextChannel ∨ t.channels.get? key' = some channel := by
      intro key' channel hkey'
      by_cases heq : key' = key
      · subst heq
        rw [Table.get?_insert_self] at hkey'
        exact .inl ⟨rfl, (Option.some.inj hkey').symm⟩
      · rw [Table.get?_insert_of_ne _ _ heq] at hkey'
        exact .inr hkey'
    refine ⟨⟨?apart, ?named, ?window⟩, ⟨?channels, rfl, rfl, rfl⟩, Table.get?_insert_self ..⟩
    case apart =>
      intro a b channel ha hb
      rcases hcases ha with ⟨hakey, hachannel⟩ | hold
      · rcases hcases hb with ⟨hbkey, _⟩ | hold
        · rw [hakey, hbkey]
        · exact absurd hachannel (hnew hold).2
      · rcases hcases hb with ⟨_, hbchannel⟩ | hold'
        · exact absurd hbchannel (hnew hold).2
        · exact h.apart hold hold'
    case named =>
      intro key' channel hkey'
      rcases hcases hkey' with ⟨rfl, rfl⟩ | hkey'
      · exact Nat.lt_succ_self _
      · exact Nat.lt_succ_of_lt (h.named hkey')
    case window =>
      intro key' channel hkey'
      rcases hcases hkey' with ⟨rfl, rfl⟩ | hkey'
      · exact ⟨.empty, Table.get?_insert_self .., Nat.zero_le _⟩
      · obtain ⟨window, hwindow, hlength⟩ := h.window hkey'
        refine ⟨window, ?_, hlength⟩
        rw [Table.get?_insert_of_ne _ _ (hnew hkey').2, hwindow]
    case channels =>
      intro key' channel hkey'
      exact ⟨(Table.get?_insert_of_ne _ _ (hnew hkey').1).trans hkey',
        Table.get?_insert_of_ne _ _ (hnew hkey').2⟩

/-- The places are at the ends of the channels of the keys, in order. -/
def Opened (t : Keyspace) (places : List (ChannelId × Nat)) (keys : List EventKey) : Prop :=
  List.Forall₂ (fun place key =>
    t.channels.get? key = some place.1 ∧ place.2 = t.channelHead place.1) places keys

theorem Wired.openChannels (h : t.Wired) (keys : List EventKey) :
    (t.openChannels keys).2.Wired ∧ Extends t (t.openChannels keys).2 ∧
      (t.openChannels keys).2.Opened (t.openChannels keys).1 keys := by
  induction keys generalizing t with
  | nil => exact ⟨h, .refl t, .nil⟩
  | cons key keys ih =>
    obtain ⟨hwired, hextends, hkey⟩ := h.openChannel key
    obtain ⟨hwired', hextends', hplaces⟩ := ih hwired
    exact ⟨hwired', hextends.trans hextends', .cons ⟨(hextends'.channels hkey).1, rfl⟩ hplaces⟩

namespace Opened

variable {places : List (ChannelId × Nat)} {keys : List EventKey}

theorem exists_key (h : t.Opened places keys) (hchannel : channel ∈ places.map Prod.fst) :
    ∃ key ∈ keys, t.channels.get? key = some channel := by
  obtain ⟨place, hplace, rfl⟩ := List.mem_map.1 hchannel
  obtain ⟨key, hkey, hsame, -⟩ := exists_of_mem h hplace
  exact ⟨key, hkey, hsame⟩

theorem exists_channel (h : t.Opened places keys) (hkey : key ∈ keys) :
    ∃ channel ∈ places.map Prod.fst, t.channels.get? key = some channel := by
  obtain ⟨place, hplace, hchannel, -⟩ := exists_of_mem (List.Forall₂.flip h) hkey
  exact ⟨place.1, List.mem_map_of_mem hplace, hchannel⟩

/-- A feed that begins there has nothing of its channels before it. -/
theorem get?_start (h : t.Opened places keys) (hchannel : channel ∈ places.map Prod.fst)
    {window : Window Stamped} (hwindow : t.windows.get? channel = some window) :
    (Feed.start places).offsets.get? channel = some window.head := by
  have hhead : t.channelHead channel = window.head := by simp [channelHead, hwindow]
  rw [← hhead]
  refine Table.get?_of_forall (fun place hplace => ?_) hchannel
  obtain ⟨key, -, -, hoffset⟩ := exists_of_mem h hplace
  exact hoffset

/-- It asks its channels in the order of the keys. -/
theorem ready_start (h : t.Opened places keys) :
    List.Forall₂ (fun channel key => key ∈ keys ∧ t.channels.get? key = some channel)
      (Feed.start places).ready keys := by
  have hboth : List.Forall₂ (fun key place => key ∈ keys ∧
      t.channels.get? key = some place.1 ∧ place.2 = t.channelHead place.1) keys places :=
    (List.forall₂_and_left _ _).2 ⟨fun _ hkey => hkey, List.Forall₂.flip h⟩
  simp only [Feed.start, List.forall₂_map_left_iff]
  exact (hboth.imp fun key place hplace => ⟨hplace.1, hplace.2.1⟩).flip

end Opened

end Keyspace

end Observatory
