import Mathlib
import Observatory.Proofs.Wire.Event
import Observatory.Transport.Keyspace
import Observatory.Transport.Log

/-!
# Backlogs

The backlog of a reader is what was added to a sequence and what it has not read, however much of it
is gone by now. A window keeps the end of a backlog: the reader loses the rest, and goes on at the
oldest item kept. Channels and partitions read a backlog alike.
-/

namespace Observatory

namespace Stamped

/-- The entry of the log that stands for a write. -/
def toEntry (w : Stamped) : LogEntry :=
  ⟨w.stamp, w.event.toBytes⟩

/-- The write as the log gives it back. -/
def reread (w : Stamped) : Stamped :=
  ⟨w.stamp, w.event.reread⟩

theorem reread_eq_self {w : Stamped} (h : w.event.time.LeapEndsMinute) : w.reread = w := by
  rw [reread, Event.reread_eq_self h]

end Stamped

namespace Window

variable {α : Type} {window : Window α} {limit offset : Nat} {backlog rest : List α} {a : α}

/-- The reader at `offset` has `backlog` before it, of which the window keeps at most `limit`
items. -/
structure Lags (window : Window α) (limit offset : Nat) (backlog : List α) : Prop where
  bounded : window.items.length ≤ limit
  head : window.head = offset + backlog.length
  unread : window.unread offset = backlog.drop (backlog.length - limit)

theorem lags_head (h : window.items.length ≤ limit) : window.Lags limit window.head [] where
  bounded := h
  head := rfl
  unread := by simp

namespace Lags

theorem missed (h : window.Lags limit offset backlog) :
    window.missed offset = backlog.length - limit := by
  have hlength := congrArg List.length h.unread
  have hhead := h.head
  have hbounded := h.bounded
  simp only [Window.unread, List.length_drop] at hlength
  simp only [Window.head] at hhead
  simp only [Window.missed]
  omega

theorem push (h : window.Lags limit offset backlog) (hlimit : 0 < limit) (a : α) :
    (window.push limit a).Lags limit offset (backlog ++ [a]) := by
  have hmissed := h.missed
  have hunread := h.unread
  have hhead := h.head
  have hbounded := h.bounded
  simp only [Window.missed, Window.unread, Window.head] at hmissed hunread hhead
  refine ⟨length_push_le window limit a, ?head, ?unread⟩
  case head =>
    simp only [head_push, List.length_append, List.length_singleton, h.head]
    omega
  case unread =>
    -- The window and the backlog lose the same number of items more, which is none or one.
    have hboth : window.items.drop (offset - window.base) ++ [a] =
        (backlog ++ [a]).drop (backlog.length - limit) := by
      rw [hunread, List.drop_append_of_le_length (by omega)]
    simp only [Window.push, Window.unread, List.length_append, List.length_singleton,
      List.drop_drop]
    have hmore : window.items.length + 1 - limit +
        (offset - (window.base + (window.items.length + 1 - limit))) =
        (offset - window.base) + (backlog.length + 1 - limit - (backlog.length - limit)) := by
      omega
    rw [hmore, ← List.drop_drop, List.drop_append_of_le_length (by omega), hboth, List.drop_drop]
    congr 1
    omega

/-- The reader goes on behind the first item that is kept. -/
theorem next (h : window.Lags limit offset backlog)
    (hrest : backlog.drop (backlog.length - limit) = a :: rest) :
    window.Lags limit (max offset window.base + 1) rest := by
  have hmissed := h.missed
  have hhead := h.head
  have hunread := h.unread
  have hlength := congrArg List.length hrest
  simp only [Window.missed, Window.head, List.length_drop, List.length_cons]
    at hmissed hhead hlength
  refine ⟨h.bounded, ?head, ?unread⟩
  case head =>
    simp only [Window.head]
    omega
  case unread =>
    have hall : rest.length - limit = 0 := by omega
    have hplace : max offset window.base + 1 - window.base = offset - window.base + 1 := by omega
    rw [hrest] at hunread
    simp only [Window.unread] at hunread ⊢
    rw [hall, List.drop_zero, hplace, ← List.drop_drop, hunread, List.drop_one, List.tail_cons]

end Lags

end Window

/-! ## Readings -/

/-- The bytes of the event are fewer than a count of them can say, as are all bytes in memory. -/
def Stamped.Fits (w : Stamped) : Prop :=
  w.event.toBytes.length < 2 ^ 64

def kept (limit : Nat) (backlog : List Stamped) : List Stamped :=
  backlog.drop (backlog.length - limit)

/-- The reader loses what is not kept of its backlog, gets the first event that is, decoded, and has
the rest before it afterwards. -/
structure Reading.Of {α : Type} (reading : Reading) (window : Window α) (encode : Stamped → α)
    (decoded : Stamped → Stamped) (limit : Nat) (backlog : List Stamped) : Prop where
  skipped : reading.skipped = backlog.length - limit
  event : reading.event = (kept limit backlog).head?.map decoded
  after : window.Lags limit reading.offset ((kept limit backlog).tail.map encode)

variable {limit offset : Nat} {backlog : List Stamped}

/-- Only a reader with nothing before it gets nothing. -/
theorem eq_nil_of_kept (hlimit : 0 < limit) (h : kept limit backlog = []) : backlog = [] := by
  rw [kept, List.drop_eq_nil_iff] at h
  rw [← List.length_eq_zero_iff]
  omega

theorem Keyspace.readWindow_of {window : Window Stamped} (hlimit : 0 < limit)
    (h : window.Lags limit offset backlog) :
    (readWindow window offset).Of window id id limit backlog := by
  have hunread : window.unread offset = kept limit backlog := h.unread
  unfold readWindow
  rw [hunread]
  cases hkept : kept limit backlog with
  | nil =>
    obtain rfl := eq_nil_of_kept hlimit hkept
    exact ⟨by simp, by simp [hkept], by simpa [hkept] using h⟩
  | cons w rest =>
    exact ⟨h.missed, by simp [hkept], by simpa [hkept] using h.next hkept⟩

theorem Log.readPartition_of {window : Window LogEntry} (hlimit : 0 < limit)
    (hfits : ∀ w ∈ backlog, w.Fits) (h : window.Lags limit offset (backlog.map Stamped.toEntry)) :
    (readPartition window offset).Of window Stamped.toEntry Stamped.reread limit backlog := by
  have hmissed : window.missed offset = backlog.length - limit := by simpa using h.missed
  have hunread : window.unread offset = (kept limit backlog).map Stamped.toEntry := by
    simpa [kept, List.map_drop] using h.unread
  unfold readPartition
  rw [hunread]
  cases hkept : kept limit backlog with
  | nil =>
    obtain rfl := eq_nil_of_kept hlimit hkept
    have hplace : max offset window.base = offset := by
      simp only [Window.missed, List.length_nil] at hmissed
      omega
    refine ⟨hmissed, by simp [hkept, firstReadable], ?_⟩
    simpa [hkept, firstReadable, hplace] using h
  | cons w rest =>
    have hw : w.Fits := hfits w (List.mem_of_mem_drop (hkept ▸ List.mem_cons_self))
    have hbytes : Event.ofBytes w.toEntry.bytes = .ok w.event.reread := Event.ofBytes_toBytes hw
    have hread : firstReadable (max offset window.base) (List.map Stamped.toEntry (w :: rest)) =
        (max offset window.base + 1, some w.reread) := by
      rw [List.map_cons, firstReadable, hbytes]
      rfl
    have hrest : (backlog.map Stamped.toEntry).drop
        ((backlog.map Stamped.toEntry).length - limit) =
          w.toEntry :: rest.map Stamped.toEntry := by
      rw [List.length_map, ← List.map_drop, ← List.map_cons, ← hkept, kept]
    rw [hread]
    exact ⟨hmissed, by simp [hkept], by simpa [hkept] using h.next hrest⟩

end Observatory
