import Observatory.Proofs.Transport.Equivalence

/-!
# Partitions

What a partition of the log keeps, and what its readers get from it. A partition holds the end of
what was appended to it, and every reader is at a place in the whole of that. A read takes the
oldest entry that is kept at the reader's place or behind it, and counts those that it has to leave
out. Nothing is lost from the account: what a reader got and what it was told to have missed is all
that was appended between the place where it began and the place where it is.
-/

namespace Observatory

/-! ## Accesses -/

/-- What happens to a partition. -/
inductive Access where
  | append (w : Stamped)
  | follow (id : ReaderId)
  | read (id : ReaderId)
  | leave (id : ReaderId)
  deriving DecidableEq

def Access.append? : Access → Option Stamped
  | .append w => some w
  | _ => none

def appended (accesses : List Access) : List Stamped :=
  accesses.filterMap Access.append?

/-- A partition and the places of its readers. -/
structure Shelf where
  window : Window LogEntry
  places : ReaderId → Option Nat

namespace Shelf

/-- The partition to which nothing was appended, without readers. -/
def bare : Shelf := ⟨.empty, fun _ => none⟩

def reading? (s : Shelf) (id : ReaderId) : Option Reading :=
  (s.places id).map (Log.readPartition s.window)

def move (s : Shelf) (id : ReaderId) (place : Option Nat) : Shelf :=
  { s with places := Function.update s.places id place }

@[simp]
theorem places_move_self (s : Shelf) (id : ReaderId) (place : Option Nat) :
    (s.move id place).places id = place :=
  Function.update_self ..

theorem places_move_of_ne {id id' : ReaderId} (s : Shelf) (place : Option Nat) (h : id' ≠ id) :
    (s.move id place).places id' = s.places id' :=
  Function.update_of_ne h ..

theorem move_places (s : Shelf) (id : ReaderId) : s.move id (s.places id) = s :=
  congrArg (Shelf.mk s.window) (Function.update_eq_self id s.places)

theorem move_move (s : Shelf) (id : ReaderId) (place place' : Option Nat) :
    (s.move id place).move id place' = s.move id place' :=
  congrArg (Shelf.mk s.window) (Function.update_idem ..)

/-- The partition after an access, if it keeps `limit` entries. -/
def access (limit : Nat) (s : Shelf) : Access → Shelf
  | .append w => { s with window := s.window.push limit w.toEntry }
  | .follow id => s.move id (some s.window.head)
  | .read id => s.move id ((s.reading? id).map Reading.offset)
  | .leave id => s.move id none

def run (limit : Nat) (s : Shelf) (accesses : List Access) : Shelf :=
  accesses.foldl (access limit) s

/-- What a reader gets in the course of some accesses. -/
def readings (limit : Nat) (id : ReaderId) (s : Shelf) : List Access → List Reading
  | [] => []
  | access :: accesses =>
    (if access = .read id then (s.reading? id).toList else []) ++
      readings limit id (s.access limit access) accesses

end Shelf

/-- The events among some readings, each with its place in the partition. -/
def Reading.events (readings : List Reading) : List (Nat × Stamped) :=
  readings.filterMap fun reading => reading.event.map (reading.offset - 1, ·)

def Reading.missed (readings : List Reading) : Nat :=
  (readings.map Reading.skipped).sum

/-! ## What a partition holds -/

/-- The partition keeps the last entries of its history, and no reader is ahead of it. -/
structure Shelf.Keeps (s : Shelf) (limit : Nat) (history : List Stamped) : Prop where
  base : s.window.base = history.length - limit
  items : s.window.items = (history.map Stamped.toEntry).drop (history.length - limit)
  places : ∀ {id place}, s.places id = some place → place ≤ history.length

/-- What a reader at a place gets of a history of which the last entries are kept. -/
structure Reading.Oldest (reading : Reading) (limit : Nat) (history : List Stamped)
    (place : Nat) : Prop where
  /-- It gets the oldest entry that is kept at its place or behind it. -/
  event : reading.event = history[max place (history.length - limit)]?.map Stamped.reread
  none_iff : reading.event = none ↔ place = history.length
  /-- It is told how many entries are between. -/
  skipped : place + reading.skipped = max place (history.length - limit)
  /-- It goes on behind the entry that it gets. -/
  offset : reading.offset = place + reading.skipped + reading.event.toList.length
  /-- So many others were appended after each entry that it leaves out. -/
  overtaken : ∀ missed, place ≤ missed → missed < place + reading.skipped →
    missed + 1 + limit ≤ history.length

variable {limit place : Nat} {s : Shelf} {history : List Stamped} {id : ReaderId}
  {accesses : List Access}

theorem Reading.Oldest.offset_le {reading : Reading} (h : reading.Oldest limit history place) :
    reading.offset ≤ history.length := by
  have hevent := h.event
  have hskipped := h.skipped
  rw [h.offset]
  cases hgot : reading.event with
  | none =>
    have := h.none_iff.1 hgot
    rw [Option.toList_none, List.length_nil]
    omega
  | some w =>
    obtain ⟨_, hentry, -⟩ := Option.map_eq_some_iff.1 (hevent.symm.trans hgot)
    have := (List.getElem?_eq_some_iff.1 hentry).1
    rw [Option.toList_some, List.length_singleton]
    omega

namespace Shelf

theorem Keeps.head (h : s.Keeps limit history) : s.window.head = history.length := by
  rw [Window.head, h.base, h.items, List.length_drop, List.length_map]
  omega

/-- What a reader has before it is the history from its place on. -/
theorem Keeps.lags (h : s.Keeps limit history) (hplace : s.places id = some place) :
    s.window.Lags limit place ((history.drop place).map Stamped.toEntry) where
  bounded := by
    rw [h.items, List.length_drop, List.length_map]
    omega
  head := by
    have := h.places hplace
    rw [h.head, List.length_map, List.length_drop]
    omega
  unread := by
    have := h.places hplace
    rw [Window.unread, h.base, h.items, List.drop_drop, List.length_map, List.length_drop,
      List.map_drop, List.drop_drop]
    congr 1
    omega

theorem Keeps.reading (h : s.Keeps limit history) (hlimit : 0 < limit)
    (hfits : ∀ w ∈ history, w.Fits) (hplace : s.places id = some place) :
    (Log.readPartition s.window place).Oldest limit history place := by
  have hle := h.places hplace
  obtain ⟨hskipped, hevent, hafter⟩ := Log.readPartition_of hlimit
    (fun w hw => hfits w (List.mem_of_mem_drop hw)) (h.lags hplace)
  rw [List.length_drop] at hskipped
  have hplaces : place + (history.length - place - limit) = max place (history.length - limit) := by
    omega
  have hfirst : (Log.readPartition s.window place).event =
      history[max place (history.length - limit)]?.map Stamped.reread := by
    rw [hevent, kept, List.length_drop, List.drop_drop, hplaces, List.head?_drop]
  have hnone : (Log.readPartition s.window place).event = none ↔ place = history.length := by
    rw [hfirst, Option.map_eq_none_iff, List.getElem?_eq_none_iff]
    omega
  refine ⟨hfirst, hnone, by rw [hskipped, hplaces], ?offset, fun missed hle hlt => by omega⟩
  -- The window that is left behind the reader afterwards ends where the history does.
  have hhead := hafter.head
  rw [h.head, List.length_map, List.length_tail, kept, List.length_drop, List.length_drop] at hhead
  cases hgot : (Log.readPartition s.window place).event with
  | none =>
    have := hnone.1 hgot
    rw [Option.toList_none, List.length_nil]
    omega
  | some w =>
    have hne : place ≠ history.length := fun heq => by simp [hnone.2 heq] at hgot
    rw [Option.toList_some, List.length_singleton]
    omega

/-! ## What accesses do -/

theorem keeps_bare (limit : Nat) : bare.Keeps limit [] where
  base := (Nat.zero_sub limit).symm
  items := (List.drop_nil).symm
  places h := by cases h

theorem Keeps.move (h : s.Keeps limit history) {target : Option Nat}
    (htarget : ∀ place, target = some place → place ≤ history.length) :
    (s.move id target).Keeps limit history where
  base := h.base
  items := h.items
  places {id' place} hplace := by
    by_cases hid : id' = id
    · subst hid
      rw [places_move_self] at hplace
      exact htarget place hplace
    · rw [places_move_of_ne s target hid] at hplace
      exact h.places hplace

theorem Keeps.append (h : s.Keeps limit history) (w : Stamped) :
    (s.access limit (.append w)).Keeps limit (history ++ [w]) where
  base := by
    simp only [Shelf.access, Window.push, h.base, h.items, List.length_append, List.length_drop,
      List.length_map, List.length_singleton]
    omega
  items := by
    simp only [Shelf.access, Window.push, h.items, List.length_append, List.length_drop,
      List.length_map, List.length_singleton, List.map_append, List.map_singleton]
    rw [← List.drop_append_of_le_length (by simp), List.drop_drop]
    congr 1
    omega
  places hplace := by
    rw [List.length_append]
    exact (h.places hplace).trans (Nat.le_add_right _ _)

theorem append_appended_of_none {access : Access} (h : access.append? = none)
    (history : List Stamped) : history ++ appended [access] = history := by
  rw [appended, List.filterMap_cons_none h, List.filterMap_nil, List.append_nil]

theorem Keeps.access (h : s.Keeps limit history) (hlimit : 0 < limit)
    (hfits : ∀ w ∈ history, w.Fits) (access : Access) :
    (s.access limit access).Keeps limit (history ++ appended [access]) := by
  cases access with
  | append w => exact h.append w
  | follow id =>
    rw [append_appended_of_none rfl]
    refine h.move fun place hplace => ?_
    cases hplace
    exact h.head.le
  | leave id =>
    rw [append_appended_of_none rfl]
    exact h.move nofun
  | read id =>
    rw [append_appended_of_none rfl]
    refine h.move fun place hplace => ?_
    obtain ⟨reading, hreading, rfl⟩ := Option.map_eq_some_iff.1 hplace
    obtain ⟨before, hbefore, rfl⟩ := Option.map_eq_some_iff.1 hreading
    exact (h.reading hlimit hfits hbefore).offset_le

theorem append_appended_cons (history : List Stamped) (access : Access) (accesses : List Access) :
    history ++ appended (access :: accesses) =
      (history ++ appended [access]) ++ appended accesses := by
  rw [List.append_assoc, appended, appended, appended, ← List.filterMap_append]
  rfl

theorem Keeps.run (h : s.Keeps limit history) (hlimit : 0 < limit)
    (hfits : ∀ w ∈ history ++ appended accesses, w.Fits) :
    (s.run limit accesses).Keeps limit (history ++ appended accesses) := by
  induction accesses generalizing s history with
  | nil => rwa [appended, List.filterMap_nil, List.append_nil]
  | cons access accesses ih =>
    rw [append_appended_cons] at hfits ⊢
    refine ih (h.access hlimit (fun w hw => ?_) access) hfits
    exact hfits w (List.mem_append_left _ (List.mem_append_left _ hw))

end Shelf

/-! ## The account of a reader -/

/-- A reader that got these readings on its way from one place to another. -/
structure Reckoned (place place' : Nat) (history : List Stamped) (readings : List Reading) :
    Prop where
  /-- What it got and what it missed is all that was on its way. -/
  balance : place + (Reading.events readings).length + Reading.missed readings = place'
  ascending : (Reading.events readings).Pairwise fun x y => x.1 < y.1
  inside : ∀ {n w}, (n, w) ∈ Reading.events readings →
    place ≤ n ∧ n < place' ∧ history[n]?.map Stamped.reread = some w

theorem reckoned_nil (place : Nat) (history : List Stamped) :
    Reckoned place place history [] :=
  ⟨rfl, .nil, nofun⟩

theorem Reckoned.cons {place' : Nat} {reading : Reading} {readings : List Reading}
    {later : List Stamped} (h : Reckoned reading.offset place' (history ++ later) readings)
    (hread : reading.Oldest limit history place) :
    Reckoned place place' (history ++ later) (reading :: readings) := by
  have hbalance := h.balance
  have hoffset := hread.offset
  have hmissed : Reading.missed (reading :: readings) =
      reading.skipped + Reading.missed readings := List.sum_cons
  cases hgot : reading.event with
  | none =>
    have hevents : Reading.events (reading :: readings) = Reading.events readings :=
      List.filterMap_cons_none (by rw [hgot]; rfl)
    rw [hgot, Option.toList_none, List.length_nil] at hoffset
    rw [← hevents] at hbalance
    refine ⟨by omega, hevents ▸ h.ascending, fun {n w} hmem => ?_⟩
    obtain ⟨hle, hlt, hw⟩ := h.inside (hevents ▸ hmem)
    exact ⟨by omega, hlt, hw⟩
  | some w =>
    have hevents : Reading.events (reading :: readings) =
        (reading.offset - 1, w) :: Reading.events readings :=
      List.filterMap_cons_some (by rw [hgot]; rfl)
    rw [hgot, Option.toList_some, List.length_singleton] at hoffset
    have hlength := congrArg List.length hevents
    rw [List.length_cons] at hlength
    refine ⟨by omega, ?ascending, fun {n w'} hmem => ?inside⟩
    case ascending =>
      rw [hevents]
      refine List.pairwise_cons.2 ⟨fun x hx => ?_, h.ascending⟩
      have := (h.inside hx).1
      omega
    case inside =>
      rw [hevents] at hmem
      rcases List.mem_cons.1 hmem with heq | hmem
      · cases heq
        -- The event stood behind those that were missed, one place before the new one.
        have hfirst := hread.event
        have hskipped := hread.skipped
        rw [hgot, ← hskipped] at hfirst
        have hn : reading.offset - 1 = place + reading.skipped := by omega
        refine ⟨by omega, by omega, ?_⟩
        obtain ⟨_, hentry, -⟩ := Option.map_eq_some_iff.1 hfirst.symm
        rw [hn, List.getElem?_append_left (List.getElem?_eq_some_iff.1 hentry).1, ← hfirst]
      · obtain ⟨hle, hlt, hw⟩ := h.inside hmem
        exact ⟨by omega, hlt, hw⟩

theorem Shelf.places_access_of_ne {access : Access} (hfollow : access ≠ .follow id)
    (hread : access ≠ .read id) (hleave : access ≠ .leave id) :
    (s.access limit access).places id = s.places id := by
  cases access with
  | append w => rfl
  | follow id' => exact s.places_move_of_ne _ fun heq => hfollow (heq ▸ rfl)
  | read id' => exact s.places_move_of_ne _ fun heq => hread (heq ▸ rfl)
  | leave id' => exact s.places_move_of_ne _ fun heq => hleave (heq ▸ rfl)

/-- A reader that stays gets an account of all that happens meanwhile. -/
theorem Shelf.Keeps.reckoned (h : s.Keeps limit history) (hlimit : 0 < limit)
    (hfits : ∀ w ∈ history ++ appended accesses, w.Fits) (hplace : s.places id = some place)
    (hfollow : .follow id ∉ accesses) (hleave : .leave id ∉ accesses) :
    ∃ place', (s.run limit accesses).places id = some place' ∧
      Reckoned place place' (history ++ appended accesses) (s.readings limit id accesses) := by
  -- A read moves the reader to where its account of the rest begins. All else leaves it there.
  induction accesses generalizing s history place with
  | nil => exact ⟨place, hplace, reckoned_nil place _⟩
  | cons access accesses ih =>
    rw [List.mem_cons, not_or] at hfollow hleave
    have hhistory : ∀ w ∈ history, w.Fits := fun w hw => hfits w (List.mem_append_left _ hw)
    rw [append_appended_cons] at hfits
    have hafter := h.access hlimit hhistory access
    by_cases hread : access = .read id
    · subst hread
      have hreading : s.reading? id = some (Log.readPartition s.window place) := by
        rw [Shelf.reading?, hplace, Option.map_some]
      have hmoved : (s.access limit (.read id)).places id =
          some (Log.readPartition s.window place).offset := by
        rw [Shelf.access, places_move_self, hreading, Option.map_some]
      obtain ⟨place', hplace', hreckoned⟩ := ih hafter hfits hmoved hfollow.2 hleave.2
      refine ⟨place', hplace', ?_⟩
      rw [← append_appended_cons] at hreckoned
      rw [Shelf.readings, if_pos rfl, hreading]
      exact hreckoned.cons (h.reading hlimit hhistory hplace)
    · have hstays : (s.access limit access).places id = some place := by
        rw [Shelf.places_access_of_ne (Ne.symm hfollow.1) hread (Ne.symm hleave.1), hplace]
      obtain ⟨place', hplace', hreckoned⟩ := ih hafter hfits hstays hfollow.2 hleave.2
      refine ⟨place', hplace', ?_⟩
      rwa [append_appended_cons, Shelf.readings, if_neg hread, List.nil_append]

/-! ## Whole runs -/

/-- What is true of a partition that keeps `limit` entries after it has had these accesses. -/
structure Served (limit : Nat) (accesses : List Access) (s : Shelf) : Prop where
  /-- It holds the last entries that were appended, in order. -/
  items : s.window.items =
    ((appended accesses).map Stamped.toEntry).drop ((appended accesses).length - limit)
  length : s.window.items.length = min (appended accesses).length limit
  base : s.window.base + s.window.items.length = (appended accesses).length
  head : s.window.head = (appended accesses).length
  /-- Every entry that it holds is read as the event that was appended, at the time that the text of
  its time names. -/
  decodes : ∀ entry ∈ s.window.items, ∃ w ∈ appended accesses,
    entry = w.toEntry ∧ Event.ofBytes entry.bytes = .ok w.event.reread
  /-- What a reader would get now. -/
  reads : ∀ {id place}, s.places id = some place → place ≤ (appended accesses).length ∧
    (Log.readPartition s.window place).Oldest limit (appended accesses) place
  /-- A reader that came and has stayed has its account from there. -/
  reckons : ∀ {before id since}, accesses = before ++ .follow id :: since →
    .follow id ∉ since → .leave id ∉ since → ∃ place, s.places id = some place ∧
      Reckoned (appended before).length place (appended accesses)
        ((Shelf.bare.run limit (before ++ [.follow id])).readings limit id since)

theorem served (hlimit : 0 < limit) (accesses : List Access)
    (hfits : ∀ w ∈ appended accesses, w.Fits) :
    Served limit accesses (Shelf.bare.run limit accesses) := by
  have hkeeps : (Shelf.bare.run limit accesses).Keeps limit (appended accesses) :=
    (Shelf.keeps_bare limit).run hlimit hfits
  have hlength := congrArg List.length hkeeps.items
  have hbase := hkeeps.base
  rw [List.length_drop, List.length_map] at hlength
  refine ⟨hkeeps.items, by omega, by omega, hkeeps.head, fun entry hentry => ?decodes,
    fun hplace => ⟨hkeeps.places hplace, hkeeps.reading hlimit hfits hplace⟩, ?reckons⟩
  case decodes =>
    rw [hkeeps.items] at hentry
    obtain ⟨w, hw, rfl⟩ := List.mem_map.1 (List.mem_of_mem_drop hentry)
    exact ⟨w, hw, rfl, Event.ofBytes_toBytes (hfits w hw)⟩
  case reckons =>
    rintro before id since rfl hfollow hleave
    rw [List.append_cons] at hfits ⊢
    have happended : appended (before ++ [.follow id] ++ since) =
        appended before ++ appended since := by
      rw [appended, List.filterMap_append, List.filterMap_append]
      exact congrArg (· ++ appended since) (Shelf.append_appended_of_none rfl _)
    rw [happended] at hfits ⊢
    have hbefore : (Shelf.bare.run limit before).Keeps limit (appended before) :=
      (Shelf.keeps_bare limit).run hlimit fun w hw => hfits w (List.mem_append_left _ hw)
    have hrun : Shelf.bare.run limit (before ++ [.follow id]) =
        (Shelf.bare.run limit before).move id (some (appended before).length) := by
      rw [Shelf.run, List.foldl_append, ← hbefore.head]
      rfl
    have hthere := Shelf.places_move_self (Shelf.bare.run limit before) id
      (some (appended before).length)
    rw [Shelf.run, List.foldl_append, ← Shelf.run, ← Shelf.run, hrun]
    refine Shelf.Keeps.reckoned (hbefore.move ?_) hlimit hfits hthere hfollow hleave
    intro place hplace
    cases hplace
    exact le_rfl

end Observatory
