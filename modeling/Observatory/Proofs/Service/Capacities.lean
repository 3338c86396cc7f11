import Observatory.Proofs.Service.Shutdown
import Observatory.Proofs.Transport.Wiring

/-!
# Capacities

A channel sets its slots aside when it is made, and a mailbox counts its room in a word, so neither
can have every capacity that settings may ask for. The check of settings refuses zero and nothing
else. What settings have to keep beside it, so that no request ever fails for its capacity, is said
here.
-/

namespace Observatory

/-! ## Channels -/

namespace Keyspace

variable {t t' : Keyspace} {id : ReaderId}

theorem isSome_create {slot capacity : Nat} : (create? slot capacity).isSome ↔
    0 < capacity ∧ capacity ≤ maxCapacity ∧ capacity.nextPowerOfTwo * slot ≤ maxSize := by
  unfold create?
  split <;> simp_all

theorem capacity_of_create {slot capacity : Nat} (h : create? slot capacity = some t) :
    t.capacity = capacity := by
  unfold create? at h
  split at h
  · cases h
    rfl
  · cases h

theorem capacity_publish {w : Stamped} (h : t.publish w = .ok t') : t'.capacity = t.capacity := by
  have hkey : (t.publishOnKey w).capacity = t.capacity := by
    unfold publishOnKey
    split
    · rfl
    · split <;> rfl
  unfold publish at h
  split at h
  · cases h
  · cases h
    unfold publishOnStream
    split <;> exact hkey

theorem capacity_openChannels (t : Keyspace) (keys : List EventKey) :
    (t.openChannels keys).2.capacity = t.capacity := by
  induction keys generalizing t with
  | nil => rfl
  | cons key keys ih =>
    have hkey : (t.openChannel key).2.capacity = t.capacity := by
      unfold openChannel
      split <;> rfl
    exact (ih _).trans hkey

theorem capacity_subscribe {keys : List EventKey} (h : t.subscribe id keys = .ok t') :
    t'.capacity = t.capacity := by
  unfold subscribe at h
  split at h
  · cases h
  · cases h
    exact capacity_openChannels t _

theorem capacity_patternSubscribe {p : KeyPattern} (h : t.patternSubscribe id p = .ok t') :
    t'.capacity = t.capacity := by
  unfold patternSubscribe at h
  split at h <;> cases h
  rfl

theorem capacity_next (t : Keyspace) (id : ReaderId) :
    (t.next id).transport.capacity = t.capacity := by
  unfold next
  split
  · rfl
  · split <;> rfl

theorem capacity_shutdown (t : Keyspace) : t.shutdown.capacity = t.capacity := by
  unfold shutdown
  split <;> rfl

end Keyspace

namespace Backend

/-- The capacity of every channel that the backend makes, if it makes channels. -/
def channelCapacity? : Backend → Option Nat
  | .keyspace t => some t.capacity
  | .log _ => none

variable {b c : Backend} {capacity : Option Nat}

theorem channelCapacity?_of_map {t : Keyspace} {x : Except TransportError Keyspace}
    (h : x.map .keyspace = .ok c) (hx : ∀ t', x = .ok t' → t'.capacity = t.capacity) :
    c.channelCapacity? = some t.capacity := by
  cases x with
  | error error => cases h
  | ok t' =>
    cases h
    exact congrArg some (hx t' rfl)

theorem channelCapacity?_of_log {x : Except TransportError Log} (h : x.map .log = .ok c) :
    c.channelCapacity? = none := by
  cases x <;> cases h
  rfl

theorem channelCapacity?_publish {w : Stamped} (h : b.publish w = .ok c) :
    c.channelCapacity? = b.channelCapacity? := by
  cases b with
  | keyspace t => exact channelCapacity?_of_map h fun t' => Keyspace.capacity_publish
  | log t => exact channelCapacity?_of_log h

/-- Readers come and go without a change of capacities. -/
theorem stable_channelCapacity (capacity : Option Nat) :
    Stable fun b => b.channelCapacity? = capacity where
  register {b c target id} h hregister := by
    rw [← h]
    cases b with
    | keyspace t =>
      cases target with
      | keys keys => exact channelCapacity?_of_map hregister fun t' => Keyspace.capacity_subscribe
      | pattern p observeOnly =>
        exact channelCapacity?_of_map hregister fun t' => Keyspace.capacity_patternSubscribe
    | log t =>
      cases target with
      | keys keys => exact channelCapacity?_of_log hregister
      | pattern p observeOnly => cases hregister
  next {b} id h := by
    rw [← h]
    cases b with
    | keyspace t => exact congrArg some (t.capacity_next id)
    | log t => rfl
  drop {b} id h := by
    rw [← h]
    cases b <;> rfl
  shutdown {b} h := by
    rw [← h]
    cases b with
    | keyspace t => exact congrArg some t.capacity_shutdown
    | log t => rfl

end Backend

/-! ## Settings -/

namespace Settings

/-- The capacities of the settings are not too great for what is made of them, if a channel takes
`slot` bytes for an event. -/
structure Fit (settings : Settings) (slot : Nat) : Prop where
  /-- A channel can count its slots. -/
  channel : settings.transport = .keyspace → settings.channelCapacity ≤ Keyspace.maxCapacity
  /-- There is room for the slots. -/
  room : settings.transport = .keyspace →
    settings.channelCapacity.nextPowerOfTwo * slot ≤ Keyspace.maxSize
  mailbox : settings.subscriberBuffer ≤ Mailbox.maxCapacity

theorem check_eq_ok_iff {settings : Settings} : settings.check = .ok () ↔
    0 < settings.channelCapacity ∧ 0 < settings.subscriberBuffer ∧ 0 < settings.logRetention := by
  have hall : settings.check = .ok () ↔ ∀ named ∈ settings.capacities, named.2 ≠ 0 := by
    unfold check
    split
    next name capacity hfound =>
      have hzero := List.find?_some hfound
      refine iff_of_false (fun h => ?_) fun hall => ?_
      · cases h
      · apply hall _ (List.mem_of_find?_eq_some hfound)
        simpa using hzero
    next hnone => simpa using hnone
  rw [hall]
  simp [capacities, Nat.pos_iff_ne_zero]

end Settings

namespace Service

variable {settings : Settings} {slot : Nat} {origin : UtcTime} {start s s' : Service}
  {a : Action}

theorem backendOf_cases {backend : Backend} (h : backendOf settings slot = .ok backend) :
    backend.channelCapacity? =
        (if settings.transport = .keyspace then some settings.channelCapacity else none) ∧
      (settings.transport = .keyspace →
        (Keyspace.create? slot settings.channelCapacity).isSome) := by
  unfold backendOf at h
  split at h
  next hlog =>
    cases h
    simp [Backend.channelCapacity?, hlog]
  next hkeyspace =>
    split at h
    next t hcreate =>
      cases h
      simp [Backend.channelCapacity?, hkeyspace, hcreate, Keyspace.capacity_of_create hcreate]
    next => cases h

theorem ofSettings_cases (h : ofSettings settings origin slot = .ok start) :
    ∃ backend, backendOf settings slot = .ok backend ∧
      start = withTransport settings origin (.ofBackend backend) := by
  unfold ofSettings at h
  cases hbackend : backendOf settings slot with
  | error error =>
    rw [hbackend] at h
    cases h
  | ok backend =>
    rw [hbackend] at h
    cases h
    exact ⟨backend, rfl, rfl⟩

/-! ## Requests -/

/-- What can be asked of a service in order to subscribe. -/
inductive SubscriptionRequest where
  | keys (keys : List EventKey) (rate : Option (Duration × Mode)) (consumer : Consumer)
  | keyStream (keys : List EventKey) (rate : Option (Duration × Mode))
  | pattern (subsystem : Subsystem) (glob : String) (consumer : Consumer)
  | patternStream (subsystem : Subsystem) (glob : String)
  | observations

/-- What comes of it. -/
def SubscriptionRequest.grant (s : Service) (id : ReaderId) :
    SubscriptionRequest → Except BusError Service
  | .keys ks rate consumer => s.subscribeKeys id ks rate consumer
  | .keyStream ks rate => s.streamKeys id ks rate
  | .pattern subsystem glob consumer => s.subscribePattern id subsystem glob consumer
  | .patternStream subsystem glob => s.streamPattern id subsystem glob
  | .observations => s.streamObservations id

/-- The request fails for the capacity of something that it needs. -/
def FailsForCapacity {α : Type} (result : Except BusError α) : Prop :=
  ∃ capacity, result = .error (.capacityOutOfRange capacity)

section

variable {α β : Type} {x : Except BusError α} {f : α → Except BusError β}

theorem FailsForCapacity.bind (h : FailsForCapacity (x >>= f)) :
    FailsForCapacity x ∨ ∃ a, x = .ok a ∧ FailsForCapacity (f a) := by
  cases x with
  | error error =>
    obtain ⟨capacity, h⟩ := h
    cases h
    exact .inl ⟨capacity, rfl⟩
  | ok a => exact .inr ⟨a, rfl, h⟩

theorem not_failsForCapacity_ok (a : α) : ¬FailsForCapacity (.ok a : Except BusError α) := by
  rintro ⟨capacity, h⟩
  cases h

end

theorem not_failsForCapacity_rateOf (rate : Option (Duration × Mode)) :
    ¬FailsForCapacity (rateOf rate) := by
  rintro ⟨capacity, h⟩
  unfold rateOf RateControl.create at h
  split at h
  · cases h
  · split at h <;> cases h

theorem not_failsForCapacity_planKeys (keys : List EventKey) (rate : Option (Duration × Mode)) :
    ¬FailsForCapacity (planKeys keys rate) := by
  intro h
  obtain hrate | ⟨rate', -, capacity, hkeys⟩ := h.bind
  · exact not_failsForCapacity_rateOf rate hrate
  · cases hempty : keys.isEmpty <;> simp [hempty, bind, Except.bind, throw, throwThe,
      MonadExceptOf.throw, pure, Except.pure] at hkeys

theorem not_failsForCapacity_checkPatterns (s : Service) : ¬FailsForCapacity s.checkPatterns := by
  rintro ⟨capacity, h⟩
  unfold checkPatterns at h
  split at h <;> cases h

theorem not_failsForCapacity_planPattern (s : Service) (subsystem : Subsystem) (glob : String) :
    ¬FailsForCapacity (s.planPattern subsystem glob) := by
  intro h
  unfold planPattern at h
  split at h
  · obtain ⟨capacity, h⟩ := h
    cases h
  · obtain hcheck | ⟨-, -, hrest⟩ := h.bind
    · exact not_failsForCapacity_checkPatterns s hcheck
    · exact not_failsForCapacity_ok _ hrest

/-- Only a mailbox can be asked for that cannot be made. -/
theorem SubscriptionRequest.failsForCapacity_streamMailbox {request : SubscriptionRequest}
    {id : ReaderId} (h : FailsForCapacity (request.grant s id)) :
    FailsForCapacity s.streamMailbox := by
  cases request with
  | keys ks rate consumer =>
    obtain hplan | ⟨plan, -, hrest⟩ := h.bind
    · exact absurd hplan (not_failsForCapacity_planKeys ks rate)
    · exact absurd hrest (not_failsForCapacity_ok _)
  | keyStream ks rate =>
    obtain hplan | ⟨plan, -, hrest⟩ := h.bind
    · exact absurd hplan (not_failsForCapacity_planKeys ks rate)
    · obtain hmailbox | ⟨mailbox, -, hrest⟩ := hrest.bind
      · exact hmailbox
      · exact absurd hrest (not_failsForCapacity_ok _)
  | pattern subsystem glob consumer =>
    obtain hplan | ⟨target, -, hrest⟩ := h.bind
    · exact absurd hplan (not_failsForCapacity_planPattern s subsystem glob)
    · exact absurd hrest (not_failsForCapacity_ok _)
  | patternStream subsystem glob =>
    obtain hplan | ⟨target, -, hrest⟩ := h.bind
    · exact absurd hplan (not_failsForCapacity_planPattern s subsystem glob)
    · obtain hmailbox | ⟨mailbox, -, hrest⟩ := hrest.bind
      · exact hmailbox
      · exact absurd hrest (not_failsForCapacity_ok _)
  | observations =>
    obtain hcheck | ⟨-, -, hrest⟩ := h.bind
    · exact absurd hcheck (not_failsForCapacity_checkPatterns s)
    · obtain hmailbox | ⟨mailbox, -, hrest⟩ := hrest.bind
      · exact hmailbox
      · exact absurd hrest (not_failsForCapacity_ok _)

theorem failsForCapacity_streamMailbox_iff :
    FailsForCapacity s.streamMailbox ↔ Mailbox.maxCapacity < s.settings.subscriberBuffer := by
  have hcreate : Mailbox.create? (max s.settings.subscriberBuffer 1) = none ↔
      Mailbox.maxCapacity < s.settings.subscriberBuffer := by
    unfold Mailbox.create? Mailbox.maxCapacity
    split <;> simp <;> omega
  rw [← hcreate, streamMailbox]
  cases Mailbox.create? (max s.settings.subscriberBuffer 1) with
  | some mailbox => simp [not_failsForCapacity_ok]
  | none => simp [FailsForCapacity]

/-! ## Along a run -/

/-- What the service was made of, and the capacity of its channels. -/
structure Sized (settings : Settings) (capacity : Option Nat) (s : Service) : Prop where
  settings : s.settings = settings
  capacity : s.hub.transport.backend.channelCapacity? = capacity

theorem Sized.step {capacity : Option Nat} (hs : Sized settings capacity s)
    (h : s.perform? a = some s') (hplain : a.isPlain = true) : Sized settings capacity s' where
  settings := (hub_change h).1.trans hs.settings
  capacity := by
    apply (step_view h).stable (Backend.stable_channelCapacity capacity) hs.capacity
      (rewired_not_mem hplain)
    intro w c _ hpublish
    exact (Backend.channelCapacity?_publish hpublish).trans hs.capacity

/-- A service can be made of the settings, and whatever happens to it, no request for a
subscription fails for a capacity, and every channel that it makes later can be made. -/
structure Usable (settings : Settings) (slot : Nat) (origin : UtcTime) : Prop where
  made : ∃ start, ofSettings settings origin slot = .ok start
  granted : ∀ start t s, ofSettings settings origin slot = .ok start → Trail record start t s →
    (∀ taken ∈ t, taken.2.isPlain = true) →
      ∀ id (request : SubscriptionRequest), ¬FailsForCapacity (request.grant s id)
  channels : ∀ start t s, ofSettings settings origin slot = .ok start → Trail record start t s →
    (∀ taken ∈ t, taken.2.isPlain = true) →
      ∀ capacity ∈ s.hub.transport.backend.channelCapacity?, (Keyspace.create? slot capacity).isSome

theorem fit_of_usable (h : Usable settings slot origin) : settings.Fit slot := by
  obtain ⟨start, hstart⟩ := h.made
  obtain ⟨backend, hbackend, rfl⟩ := ofSettings_cases hstart
  have hmade : settings.transport = .keyspace →
      0 < settings.channelCapacity ∧ settings.channelCapacity ≤ Keyspace.maxCapacity ∧
        settings.channelCapacity.nextPowerOfTwo * slot ≤ Keyspace.maxSize :=
    fun hkeyspace => Keyspace.isSome_create.1 ((backendOf_cases hbackend).2 hkeyspace)
  refine ⟨fun hkeyspace => (hmade hkeyspace).2.1, fun hkeyspace => (hmade hkeyspace).2.2, ?mailbox⟩
  by_contra hgreat
  have hmailbox :
      FailsForCapacity (withTransport settings origin (.ofBackend backend)).streamMailbox :=
    failsForCapacity_streamMailbox_iff.2 (Nat.lt_of_not_le hgreat)
  obtain ⟨capacity, hmailbox⟩ := hmailbox
  -- The first thing that is asked of the service is a stream of one key.
  apply h.granted _ _ _ hstart .start (List.forall_mem_nil _) 0 (.keyStream [sharedKey] none)
  refine ⟨capacity, ?_⟩
  show (withTransport settings origin (.ofBackend backend)).streamMailbox >>= _ = _
  rw [hmailbox]
  rfl

/-- Settings that pass the check are usable just if they fit. -/
theorem usable_iff (hcheck : settings.check = .ok ()) :
    Usable settings slot origin ↔ settings.Fit slot := by
  refine ⟨fit_of_usable, fun hfit => ?usable⟩
  obtain ⟨hpositive, -, -⟩ := Settings.check_eq_ok_iff.1 hcheck
  have hcreate : settings.transport = .keyspace →
      (Keyspace.create? slot settings.channelCapacity).isSome :=
    fun hkeyspace => Keyspace.isSome_create.2
      ⟨hpositive, hfit.channel hkeyspace, hfit.room hkeyspace⟩
  -- No action changes the settings or the capacity of channels.
  have hsized : ∀ start t s, ofSettings settings origin slot = .ok start → Trail record start t s →
      (∀ taken ∈ t, taken.2.isPlain = true) → Sized settings
        (if settings.transport = .keyspace then some settings.channelCapacity else none) s := by
    intro start t s hstart trail hplain
    obtain ⟨backend, hbackend, rfl⟩ := ofSettings_cases hstart
    exact trail.keeps Sized.step ⟨rfl, (backendOf_cases hbackend).1⟩ hplain
  refine ⟨?made, ?granted, ?channels⟩
  case made =>
    cases htransport : settings.transport with
    | log => exact ⟨_, by simp [ofSettings, backendOf, htransport, bind, Except.bind]; rfl⟩
    | keyspace =>
      obtain ⟨t, ht⟩ := Option.isSome_iff_exists.1 (hcreate htransport)
      exact ⟨_, by simp [ofSettings, backendOf, htransport, ht, bind, Except.bind]; rfl⟩
  case granted =>
    intro start t s hstart trail hplain id request hfails
    have hgreat := failsForCapacity_streamMailbox_iff.1
      (SubscriptionRequest.failsForCapacity_streamMailbox hfails)
    rw [(hsized start t s hstart trail hplain).settings] at hgreat
    exact Nat.not_le_of_lt hgreat hfit.mailbox
  case channels =>
    intro start t s hstart trail hplain capacity hcapacity
    rw [(hsized start t s hstart trail hplain).capacity] at hcapacity
    split at hcapacity
    next hkeyspace =>
      cases hcapacity
      exact hcreate hkeyspace
    next => cases hcapacity

theorem usable_iff_default : Settings.default.check = .ok () ∧
    Settings.default.Fit Keyspace.usualSlot ∧
    Usable Settings.default Keyspace.usualSlot .epoch := by
  have hfit : Settings.default.Fit Keyspace.usualSlot := by
    refine ⟨fun _ => ?_, fun _ => ?_, ?_⟩ <;> decide +kernel
  exact ⟨rfl, hfit, (usable_iff rfl).2 hfit⟩

/-- The settings of a service whose channels have more slots than can be counted. -/
def boundless : Settings :=
  { Settings.default with channelCapacity := Keyspace.maxCapacity + 1 }

/-- The check lets settings pass of which no service can be made, however small slots are. -/
theorem not_usable : ¬∃ slot, ∀ settings : Settings, settings.check = .ok () →
    Usable settings slot .epoch := by
  rintro ⟨slot, hall⟩
  have hfit := fit_of_usable (hall boundless (by decide +kernel))
  exact absurd (hfit.channel rfl) (by decide +kernel)

end Service

end Observatory
