import Observatory.Bus.Subscription.Target
import Observatory.Transport.Basic

/-!
# Closed backends

A backend that was shut down refuses whatever it is asked for and gives its readers nothing but the
end, however much they have left unread. It stays closed.
-/

namespace Observatory

namespace Backend

variable {b : Backend}

/-- Whether the backend was shut down. -/
def closed : Backend → Bool
  | .keyspace t => t.closed
  | .log t => t.closed

theorem publish_of_closed (h : b.closed = true) (w : Stamped) :
    b.publish w = .error (.closed b.name) := by
  cases b with
  | keyspace t =>
    have hclosed : t.closed = true := h
    rw [publish, Keyspace.publish, if_pos hclosed]
    rfl
  | log t =>
    have hclosed : t.closed = true := h
    rw [publish, Log.publish, if_pos hclosed]
    rfl

theorem subscribe_of_closed (h : b.closed = true) (id : ReaderId) (keys : List EventKey) :
    b.subscribe id keys = .error (.closed b.name) := by
  cases b with
  | keyspace t =>
    have hclosed : t.closed = true := h
    rw [subscribe, Keyspace.subscribe, if_pos hclosed]
    rfl
  | log t =>
    have hclosed : t.closed = true := h
    rw [subscribe, Log.subscribe, if_pos hclosed]
    rfl

end Backend

theorem Target.register_closed {t : Keyspace} (h : t.closed = true) (target : Target)
    (id : ReaderId) : target.register id (.keyspace t) = .error (.closed Keyspace.name) := by
  cases target with
  | keys keys => exact Backend.subscribe_of_closed (b := .keyspace t) h id keys
  | pattern pattern observeOnly =>
    rw [register, Backend.patternSubscribe, Keyspace.patternSubscribe, if_pos h]
    rfl

namespace Backend

variable {b c : Backend} {target : Target} {id : ReaderId}

/-- Nobody is registered any more. -/
theorem register_ne_ok (h : b.closed = true) : target.register id b ≠ .ok c := by
  cases b with
  | keyspace t =>
    rw [Target.register_closed h]
    exact nofun
  | log t =>
    cases target with
    | keys keys =>
      rw [Target.register, subscribe_of_closed h]
      exact nofun
    | pattern pattern observeOnly => exact nofun

theorem next_eq_ended (h : b.closed = true) (id : ReaderId) : b.next id = ⟨.ended, 0, b⟩ := by
  cases b with
  | keyspace t =>
    have hclosed : t.closed = true := h
    rw [next, Keyspace.next, if_pos hclosed]
  | log t =>
    have hclosed : t.closed = true := h
    rw [next, Log.next, if_pos hclosed]

theorem next_of_closed {t : Keyspace} (h : t.closed = true) (id : ReaderId) :
    (Backend.keyspace t).next id = ⟨.ended, 0, .keyspace t⟩ :=
  next_eq_ended (b := .keyspace t) h id

@[simp]
theorem closed_drop (b : Backend) (id : ReaderId) : (b.drop id).closed = b.closed := by
  cases b <;> rfl

@[simp]
theorem name_drop (b : Backend) (id : ReaderId) : (b.drop id).name = b.name := by
  cases b <;> rfl

theorem closed_shutdown (b : Backend) : b.shutdown.closed = true := by
  cases b with
  | keyspace t =>
    rw [shutdown, Keyspace.shutdown]
    split
    · assumption
    · rfl
  | log t => rfl

@[simp]
theorem name_shutdown (b : Backend) : b.shutdown.name = b.name := by
  cases b <;> rfl

theorem shutdown_of_closed (h : b.closed = true) : b.shutdown = b := by
  cases b with
  | keyspace t =>
    have hclosed : t.closed = true := h
    rw [shutdown, Keyspace.shutdown, if_pos hclosed]
  | log t =>
    obtain ⟨retention, partitions, readers, closed⟩ := t
    obtain rfl : closed = true := h
    rfl

end Backend

end Observatory
