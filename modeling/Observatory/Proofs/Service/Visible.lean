import Observatory.Proofs.Service.Publishing
import Observatory.Proofs.Transport.Contents

/-!
# What readers see

The store is written before the transport has answered, and so a read may find a write whose fate
is open. No reader sees more than that: what is read is a write that the transport has taken or may
still take, and what a subscription hands over beyond its seeds is a write that it has taken.
-/

namespace Observatory

variable {given : Stamped → Stamped} {t marks : List Mark} {v v' : View}

/-- The transport took the write or has not answered it, or its refusal was overtaken. -/
def Held (t : List Mark) (w : Stamped) : Prop :=
  .accepted w ∈ t ∨ Open t w ∨ Overtaken t w

/-- What a read of the key may find. -/
def Readable (t : List Mark) (key : EventKey) (w : Stamped) : Prop :=
  w = .invalid key ∨ w.key = key ∧ Held t w

/-- What a subscription may hand over: the events of its seeds, and of writes that the transport
took, as its readers get them. -/
def Due (given : Stamped → Stamped) (t : List Mark) (id : ReaderId) (e : Event) : Prop :=
  (∃ seeds w, .seeded id seeds ∈ t ∧ w ∈ seeds ∧ w.event = e) ∨
    ∃ w, .accepted w ∈ t ∧ (given w).event = e

/-- After `before`, no more is seen than may be. -/
def Mark.Sound (given : Stamped → Stamped) (before : List Mark) : Mark → Prop
  | .read key w => Readable before key w
  | .seeded _ seeds => ∀ w ∈ seeds, Readable before w.key w
  | .handed id e => Due given before id e
  | _ => True

/-- Whatever is seen along the trace may be seen there. -/
def SoundTrace (given : Stamped → Stamped) (t : List Mark) : Prop :=
  ∀ before m after, t = before ++ m :: after → m.Sound given before

namespace Held

variable {w : Stamped}

theorem quiet (h : Held t w) (hmarks : ∀ m ∈ marks, m.write? = none) : Held (t ++ marks) w := by
  rcases h with haccepted | hopen | hover
  · exact .inl (List.mem_append_left _ haccepted)
  · exact .inr (.inl ((open_quiet hmarks).2 hopen))
  · exact .inr (.inr (hover.append marks))

/-- A write that is refused stays held only where a later write waits for its answer. -/
theorem concat {m : Mark} (h : Held t w)
    (hm : m = .refused w → ∃ x : Stamped, x.key = w.key ∧ w.stamp < x.stamp ∧ Open t x) :
    Held (t ++ [m]) w := by
  rcases h with haccepted | hopen | hover
  · exact .inl (List.mem_append_left _ haccepted)
  · by_cases hrefused : m = .refused w
    · obtain ⟨x, hkey, hlt, hx⟩ := hm hrefused
      subst hrefused
      exact .inr (.inr ⟨t, [], x, rfl, hkey, hlt, hx⟩)
    · by_cases haccepted : m = .accepted w
      · subst haccepted
        exact .inl (List.mem_append_right _ List.mem_cons_self)
      · refine .inr (.inl ?_)
        simp only [Open, List.mem_append, List.mem_singleton, not_or]
        exact ⟨.inl hopen.1, ⟨hopen.2.1, Ne.symm haccepted⟩, ⟨hopen.2.2, Ne.symm hrefused⟩⟩
  · exact .inr (.inr (hover.append [m]))

theorem written (h : Held t w) (hacc : Accounted t v) : .written w ∈ t := by
  rcases h with haccepted | hopen | hover
  · exact (hacc.accepted w haccepted).1
  · exact hopen.1
  · exact hacc.refused w hover.refused

end Held

theorem Readable.self {key : EventKey} {w : Stamped} (h : Readable t key w) :
    Readable t w.key w := by
  rcases h with rfl | ⟨hkey, hheld⟩
  · exact .inl rfl
  · exact .inr ⟨rfl, hheld⟩

theorem Readable.quiet {key : EventKey} {w : Stamped} (h : Readable t key w)
    (hmarks : ∀ m ∈ marks, m.write? = none) : Readable (t ++ marks) key w := by
  rcases h with rfl | ⟨hkey, hheld⟩
  · exact .inl rfl
  · exact .inr ⟨hkey, hheld.quiet hmarks⟩

theorem Due.append {id : ReaderId} {e : Event} (h : Due given t id e) (marks : List Mark) :
    Due given (t ++ marks) id e := by
  rcases h with ⟨seeds, w, hseeded, hw⟩ | ⟨w, haccepted, hw⟩
  · exact .inl ⟨seeds, w, List.mem_append_left _ hseeded, hw⟩
  · exact .inr ⟨w, List.mem_append_left _ haccepted, hw⟩

theorem Mark.Sound.quiet {m : Mark} (h : m.Sound given t) (hmarks : ∀ x ∈ marks, x.write? = none) :
    m.Sound given (t ++ marks) := by
  cases m with
  | read key w => exact Readable.quiet h hmarks
  | seeded id seeds => exact fun w hw => (h w hw).quiet hmarks
  | handed id e => exact Due.append h marks
  | _ => trivial

theorem SoundTrace.append (h : SoundTrace given t)
    (hmarks : ∀ before m after, marks = before ++ m :: after → m.Sound given (t ++ before)) :
    SoundTrace given (t ++ marks) := by
  intro before m after heq
  rcases List.append_eq_append_iff.1 heq with ⟨more, rfl, hmore⟩ | ⟨more, ht, hmore⟩
  · exact hmarks more m after hmore
  · cases more with
    | nil =>
      rw [List.append_nil] at ht
      subst ht
      have := hmarks [] m after hmore.symm
      rwa [List.append_nil] at this
    | cons x more =>
      cases hmore
      exact h before m more ht

theorem SoundTrace.append_quiet (h : SoundTrace given t)
    (hmarks : ∀ m ∈ marks, m.write? = none ∧ m.Sound given t) : SoundTrace given (t ++ marks) := by
  refine h.append ?_
  rintro before m after rfl
  refine (hmarks m (List.mem_append_right _ List.mem_cons_self)).2.quiet fun x hx => ?_
  exact (hmarks x (List.mem_append_left _ hx)).1

theorem SoundTrace.concat {m : Mark} (h : SoundTrace given t) (hm : m.Sound given t) :
    SoundTrace given (t ++ [m]) := by
  refine h.append ?_
  intro before x after heq
  rcases List.singleton_eq_append_iff.1 heq with ⟨rfl, hx⟩ | ⟨_, hx⟩
  · cases hx
    rwa [List.append_nil]
  · cases hx

/-! ## The store -/

/-- What the store holds, and what it would go back to. -/
structure Stored (t : List Mark) (v : View) : Prop where
  entry : ∀ key w, v.store.entries.get? key = some w → w.key = key ∧ Held t w
  previous : ∀ id flight w, v.flight id = some flight → flight.previous = some w →
    w.key = flight.written.key ∧ w.stamp < flight.written.stamp ∧ Held t w

/-- After a refusal a key has the entry that it goes back to, or still an entry of another event. -/
theorem Store.of_get?_undo {s : Store} {flight : InFlight} {key : EventKey} {w : Stamped}
    (h : (s.undo flight).entries.get? key = some w) :
    (key = flight.written.key ∧ flight.previous = some w) ∨
      (s.entries.get? key = some w ∧
        (key = flight.written.key → w.event.id ≠ flight.written.event.id)) := by
  by_cases hkey : key = flight.written.key
  · subst hkey
    cases hcurrent : s.entries.get? flight.written.key with
    | none =>
      simp only [undo, restore, hcurrent] at h
      cases h
    | some current =>
      by_cases hid : current.event.id = flight.written.event.id
      · rw [get?_undo_self hcurrent hid] at h
        exact .inl ⟨rfl, h⟩
      · rw [undo_of_ne hcurrent hid, hcurrent] at h
        cases h
        exact .inr ⟨rfl, fun _ => hid⟩
  · rw [get?_undo_of_ne hkey] at h
    exact .inr ⟨h, fun heq => absurd heq hkey⟩

namespace Stored

theorem readable (h : Stored t v) (key : EventKey) : Readable t key (v.store.read key) := by
  unfold Store.read
  cases hentry : v.store.entries.get? key with
  | none => exact .inl rfl
  | some w => exact .inr (h.entry key w hentry)

theorem seeds_readable (h : Stored t v) (target : Target) :
    ∀ w ∈ target.seeds v.store, Readable t w.key w := by
  intro w hw
  cases target with
  | keys keys =>
    obtain ⟨key, _, rfl⟩ := List.mem_map.1 hw
    exact (h.readable key).self
  | pattern pattern observeOnly => cases hw

theorem frame (h : Stored t v) (hmarks : ∀ m ∈ marks, m.write? = none)
    (hentries : ∀ key w, v'.store.entries.get? key = some w → v.store.entries.get? key = some w)
    (hflight : v'.flight = v.flight) : Stored (t ++ marks) v' where
  entry key w hw := by
    obtain ⟨hkey, hheld⟩ := h.entry key w (hentries key w hw)
    exact ⟨hkey, hheld.quiet hmarks⟩
  previous id flight w hin hw := by
    rw [hflight] at hin
    obtain ⟨hkey, hlt, hheld⟩ := h.previous id flight w hin hw
    exact ⟨hkey, hlt, hheld.quiet hmarks⟩

theorem offer (h : Stored t v) (hacc : Accounted t v) (hacc' : Accounted (t ++ marks) v')
    {id : PublisherId} {event : Event} {flight : InFlight}
    (hmarks : marks = [.written flight.written])
    (hwritten : flight.written = (v.store.put event.key event).1.written)
    (hprevious : flight.previous = (v.store.put event.key event).1.previous)
    (hstore : v'.store = (v.store.put event.key event).2)
    (hflight : v'.flight = Function.update v.flight id (some flight)) : Stored (t ++ marks) v' := by
  subst hmarks
  have hin : v'.flight id = some flight := by rw [hflight, Function.update_self]
  have hstays : ∀ {w}, Held t w → Held (t ++ [.written flight.written]) w :=
    fun hheld => hheld.concat nofun
  refine ⟨fun key w hw => ?_, fun id' flight' w hin' hw => ?_⟩
  · rw [hstore, Store.get?_put] at hw
    split at hw
    next hkey =>
      cases hw
      refine ⟨hkey.symm, .inr (.inl ?_)⟩
      have hopen := (hacc'.inFlight id flight hin).1
      rwa [hwritten] at hopen ⊢
    next =>
      obtain ⟨hkey, hheld⟩ := h.entry key w hw
      exact ⟨hkey, hstays hheld⟩
  · rcases View.flight_of_offer hflight hin' with ⟨_, rfl⟩ | ⟨_, hin'⟩
    · rw [hprevious] at hw
      obtain ⟨hkey, hheld⟩ := h.entry event.key w hw
      have hle := hacc.bounded w (hheld.written hacc)
      rw [hwritten]
      exact ⟨hkey, Nat.lt_succ_of_le hle, hwritten ▸ hstays hheld⟩
    · obtain ⟨hkey, hlt, hheld⟩ := h.previous id' flight' w hin' hw
      exact ⟨hkey, hlt, hstays hheld⟩

/-- An answer that is not a refusal, or a crash, leaves the store alone. -/
theorem settle (h : Stored t v) {id : PublisherId} {m : Mark} (hm : ∀ w, m ≠ .refused w)
    (hstore : v'.store = v.store) (hflight : v'.flight = Function.update v.flight id none) :
    Stored (t ++ [m]) v' where
  entry key w hw := by
    rw [hstore] at hw
    obtain ⟨hkey, hheld⟩ := h.entry key w hw
    exact ⟨hkey, hheld.concat fun heq => absurd heq (hm w)⟩
  previous id' flight' w hin hw := by
    obtain ⟨hkey, hlt, hheld⟩ := h.previous id' flight' w (View.flight_of_answer hflight hin).2 hw
    exact ⟨hkey, hlt, hheld.concat fun heq => absurd heq (hm w)⟩

theorem refuse (h : Stored t v) (hacc : Accounted t v) {id : PublisherId} {flight : InFlight}
    (hin : v.flight id = some flight) (hstore : v'.store = v.store.undo flight)
    (hflight : v'.flight = Function.update v.flight id none) :
    Stored (t ++ [.refused flight.written]) v' where
  entry key w hw := by
    rw [hstore] at hw
    rcases Store.of_get?_undo hw with ⟨rfl, hprevious⟩ | ⟨hentry, hid⟩
    · -- The write that comes back is older than the one that is refused.
      obtain ⟨hkey, hlt, hheld⟩ := h.previous id flight w hin hprevious
      refine ⟨hkey, hheld.concat fun heq => ?_⟩
      rw [Mark.refused.inj heq] at hlt
      exact absurd hlt (Nat.lt_irrefl _)
    · obtain ⟨hkey, hheld⟩ := h.entry key w hentry
      refine ⟨hkey, hheld.concat fun heq => ?_⟩
      have hsame := Mark.refused.inj heq
      rw [hsame] at hid
      exact absurd rfl (hid hkey.symm)
  previous id' flight' w hin' hw := by
    obtain ⟨_, hbefore⟩ := View.flight_of_answer hflight hin'
    obtain ⟨hkey, hlt, hheld⟩ := h.previous id' flight' w hbefore hw
    refine ⟨hkey, hlt, hheld.concat fun _ => ?_⟩
    -- The write that would go back to it is later and waits for its answer.
    exact ⟨flight'.written, hkey.symm, hlt, (hacc.inFlight id' flight' hbefore).1⟩

theorem step (h : Stored t v) (hacc : Accounted t v) (hstep : View.Publishing v marks v') :
    Stored (t ++ marks) v' := by
  have hacc' := hacc.step hstep
  cases hstep with
  | quiet _ _ hmarks hstore hflight =>
    exact h.frame (fun m hm => Mark.write?_of_isPublishing (hmarks m hm))
      (fun key w hw => hstore ▸ hw) hflight
  | clear _ hstore hflight =>
    refine h.frame (List.forall_mem_singleton.2 rfl) (fun key w hw => ?_) hflight
    rw [hstore] at hw
    cases hw
  | offer id event flight _ hfree hwritten hprevious hstore hflight =>
    exact h.offer hacc hacc' rfl hwritten hprevious hstore hflight
  | accept id flight _ hin hstore hflight =>
    exact h.settle (fun w heq => by cases heq) hstore hflight
  | refuse id flight _ hin hstore hflight => exact h.refuse hacc hin hstore hflight
  | crash id flight _ hin hstore hflight =>
    exact h.settle (fun w heq => by cases heq) hstore hflight

end Stored

/-! ## Subscriptions -/

/-- The events that the pipeline can still hand over without taking in another. -/
def Pipeline.events (p : Pipeline) : List Event :=
  p.seeds ++ (p.pacing.bind fun pacing => pacing.pacer.latest).toList

/-- The events that are left after a step of a pipeline, the one to hand over among them. -/
def Pipeline.Step.events : Pipeline.Step → List Event
  | .onward p => p.events
  | .emit e p => e :: p.events
  | .ended => []

/-- The events that a driver has for its consumer. -/
def Stage.events : Stage → List Event
  | .streaming p => p.events
  | .handing p e _ => e :: p.events
  | _ => []

/-- What the transport carries, and what subscriptions have for their consumers. -/
structure Carried (given : Stamped → Stamped) (t : List Mark) (v : View) : Prop where
  holds : v.backend.Holds given fun w => .accepted w ∈ t
  due : ∀ id standing, v.standing id = some standing → ∀ e ∈ standing.stage.events, Due given t id e

theorem Pipeline.mem_events_arrival {p : Pipeline} {e x : Event}
    (h : x ∈ (p.arrival e).events) : x = e ∨ x ∈ p.events := by
  unfold arrival at h
  cases hpacing : p.pacing with
  | none =>
    rw [hpacing] at h
    exact List.mem_cons.1 h
  | some pacing =>
    simp only [hpacing, Step.events, events, Pacer.arrive, Option.bind_some, Option.toList_some,
      List.mem_append, List.mem_singleton] at h
    rcases h with h | h
    · exact .inr (List.mem_append_left _ h)
    · exact .inl h

theorem Pacer.latest_tick (p : Pacer) : p.tick.2.latest = p.latest := by
  unfold tick
  cases hlatest : p.latest with
  | none => exact hlatest
  | some latest =>
    dsimp only
    split
    · rfl
    · exact hlatest

theorem Pacer.latest_of_tick {p : Pacer} {e : Event} (h : p.tick.1 = some e) :
    p.latest = some e := by
  unfold tick at h
  cases hlatest : p.latest with
  | none =>
    rw [hlatest] at h
    cases h
  | some latest =>
    simp only [hlatest] at h
    split at h
    · exact h
    · cases h

theorem Pipeline.mem_events_tick {p : Pipeline} {now : Nat} {next : Step} {e : Event}
    (htick : p.tick? now = some next) (h : e ∈ next.events) : e ∈ p.events := by
  unfold tick? at htick
  cases hpacing : p.pacing with
  | none =>
    rw [hpacing] at htick
    cases htick
  | some pacing =>
    simp only [hpacing] at htick
    split at htick
    · have hsame : ∀ ticker, Pipeline.events
          ⟨p.seeds, p.covered, some ⟨ticker, pacing.pacer.tick.2⟩⟩ = p.events := by
        intro ticker
        simp only [events, hpacing, Option.bind_some, Pacer.latest_tick]
      cases htick
      cases hemitted : pacing.pacer.tick.1 with
      | none =>
        rw [hemitted] at h
        exact hsame _ ▸ h
      | some latest =>
        rw [hemitted] at h
        rcases List.mem_cons.1 h with rfl | h
        · simp [events, hpacing, Pacer.latest_of_tick hemitted]
        · exact hsame _ ▸ h
    · cases htick

/-- What a step of a pipeline leaves to hand over was there before or has just come in. -/
theorem Inflow.mem_events {id : ReaderId} {target : Target} {backend after : Backend}
    {p : Pipeline} {came : List Mark} {next : Pipeline.Step} {e : Event}
    (h : Inflow id target backend p came next after) (he : e ∈ next.events) :
    e ∈ p.events ∨ ∃ w, (backend.next id).result = .item w ∧ w.event = e := by
  cases h with
  | seed first seeds hseeds =>
    unfold Pipeline.events
    rw [hseeds]
    rcases Pipeline.mem_events_arrival he with rfl | he
    · exact .inl List.mem_cons_self
    · exact .inl (List.mem_cons_of_mem first he)
  | tick now _ hseeds htick => exact .inl (Pipeline.mem_events_tick htick he)
  | live w hseeds hitem =>
    unfold Pipeline.liveArrival at he
    split at he
    · rcases Pipeline.mem_events_arrival he with rfl | he
      · exact .inr ⟨w, hitem, rfl⟩
      · exact .inl he
    · exact .inl he
  | pending hseeds hresult => exact .inl he
  | ended hseeds hresult => cases he

theorem Outflow.mem_events {id : ReaderId} {backend after : Backend} {next : Pipeline.Step}
    {went : List Mark} {stage : Stage} {e : Event} (h : Outflow id backend next went stage after)
    (he : e ∈ stage.events) : e ∈ next.events := by
  cases h with
  | onward p => exact he
  | wait p x => exact he
  | call p x => exact List.mem_cons_of_mem x he
  | begin p x due ending => exact he
  | crash p x => cases he
  | ended => cases he

section Holds

variable {P : Stamped → Prop} {id : ReaderId} {backend after : Backend}

theorem Target.holds_register {target : Target} (h : backend.Holds given P)
    (hregister : target.register id backend = .ok after) : after.Holds given P := by
  cases target with
  | keys keys => exact h.subscribe hregister
  | pattern pattern observeOnly => exact h.patternSubscribe hregister

theorem Inflow.holds {target : Target} {p : Pipeline} {came : List Mark} {next : Pipeline.Step}
    (h : backend.Holds given P) (hin : Inflow id target backend p came next after) :
    after.Holds given P := by
  cases hin with
  | seed first seeds hseeds => exact h
  | tick now _ hseeds htick => exact h
  | live w hseeds hitem => exact h.next
  | pending hseeds hresult => exact h.next
  | ended hseeds hresult => exact h.next

theorem Outflow.holds {next : Pipeline.Step} {went : List Mark} {stage : Stage}
    (h : backend.Holds given P) (hout : Outflow id backend next went stage after) :
    after.Holds given P := by
  cases hout with
  | onward p => exact h
  | wait p e => exact h
  | call p e => exact h
  | begin p e due ending => exact h
  | crash p e => exact h.drop
  | ended => exact h.drop

end Holds

namespace Carried

theorem keep (h : Carried given t v)
    (hbackend : v'.backend.Holds given fun w => .accepted w ∈ t ++ marks)
    (hstanding : v'.standing = v.standing) : Carried given (t ++ marks) v' where
  holds := hbackend
  due id standing hat e he := by
    rw [hstanding] at hat
    exact (h.due id standing hat e he).append marks

theorem place (h : Carried given t v) {id : ReaderId} {standing : Standing} {backend : Backend}
    (hbackend : backend.Holds given fun w => .accepted w ∈ t ++ marks)
    (hevents : ∀ e ∈ standing.stage.events, Due given (t ++ marks) id e) :
    Carried given (t ++ marks) ((v.withBackend backend).setStanding id standing) where
  holds := hbackend
  due id' standing' hat e he := by
    rw [View.standing_setStanding] at hat
    split at hat
    next hid =>
      cases hat
      exact hid ▸ hevents e he
    next => exact (h.due id' standing' hat e he).append marks

/-- What a running subscription gets from its pipeline it may hand over. -/
theorem due_inflow (h : Carried given t v)
    (hfits : ∀ w, .accepted w ∈ t → w.event.toBytes.length < 2 ^ 64) {id : ReaderId}
    {target : Target} {rate : Option RateControl} {p : Pipeline} {came : List Mark}
    {next : Pipeline.Step} {between : Backend} {e : Event}
    (hstanding : v.standing id = some ⟨target, rate, .streaming p⟩)
    (hin : Inflow id target v.backend p came next between) (he : e ∈ next.events) :
    Due given t id e := by
  rcases hin.mem_events he with he | ⟨w, hitem, rfl⟩
  · exact h.due id _ hstanding e he
  · obtain ⟨x, haccepted, rfl⟩ := h.holds.of_next hfits hitem
    exact .inr ⟨x, haccepted, rfl⟩

theorem step (h : Carried given t v)
    (hfits : ∀ w, .accepted w ∈ t → w.event.toBytes.length < 2 ^ 64)
    (hstep : View.Step v marks v') (hrewired : .rewired ∉ marks) :
    Carried given (t ++ marks) v' := by
  have hmore : v.backend.Holds given fun w => .accepted w ∈ t ++ marks :=
    h.holds.mono fun w hw => List.mem_append_left marks hw
  cases hstep with
  | read _ hread => exact h.keep hmore rfl
  | clear => exact h.keep hmore rfl
  | offer id event flight hfree hwritten hprevious => exact h.keep hmore rfl
  | accept id flight backend hin hpublish =>
    exact h.keep (hmore.publish (List.mem_append_right t List.mem_cons_self) hpublish) rfl
  | refuse id flight hin => exact h.keep hmore rfl
  | crash id flight hin => exact h.keep hmore rfl
  | rewire backend => exact absurd List.mem_cons_self hrewired
  | shutdown => exact h.keep hmore.shutdown rfl
  | subscribe id target rate hfree => exact h.place hmore fun e he => nomatch he
  | register id target rate due backend hstanding hregister =>
    exact h.place (Target.holds_register hmore hregister) fun e he => nomatch he
  | activate id target rate due now hstanding =>
    refine h.place hmore fun e he => ?_
    -- A stage begins with its seeds alone, paced or not.
    have hseed : e ∈ (target.seeds v.store).map Stamped.event := by
      cases rate with
      | none => simpa [Stage.events, Pipeline.events, Pipeline.start] using he
      | some rate => simpa [Stage.events, Pipeline.events, Pipeline.start, Pacer.start] using he
    obtain ⟨w, hw, rfl⟩ := List.mem_map.1 hseed
    exact .inl ⟨_, w, List.mem_append_right t List.mem_cons_self, hw, rfl⟩
  | flow id target rate p next came went stage between after hstanding hin hout =>
    refine h.place (hout.holds (hin.holds hmore)) fun e he => ?_
    exact (h.due_inflow hfits hstanding hin (hout.mem_events he)).append _
  | deposit id target rate p e hstanding =>
    refine h.place hmore fun x hx => ?_
    exact (h.due id _ hstanding x (List.mem_cons_of_mem e hx)).append _
  | endCall id target rate p e due ending stage hstanding hstage =>
    refine h.place hmore fun x hx => ?_
    rcases hstage with rfl | rfl
    · exact (h.due id _ hstanding x (List.mem_cons_of_mem e hx)).append _
    · exact (h.due id _ hstanding x hx).append _
  | stop id target rate stage backend hstanding hbackend =>
    refine h.place ?_ fun x hx => nomatch hx
    rcases hbackend with rfl | rfl
    · exact hmore
    · exact hmore.drop

end Carried

/-- No step shows more than may be seen. -/
theorem SoundTrace.step (h : SoundTrace given t) (hstored : Stored t v)
    (hcarried : Carried given t v)
    (hfits : ∀ w, .accepted w ∈ t → w.event.toBytes.length < 2 ^ 64)
    (hstep : View.Step v marks v') : SoundTrace given (t ++ marks) := by
  cases hstep with
  | read _ hread =>
    refine h.append_quiet fun m hm => ?_
    obtain ⟨key, rfl⟩ := hread m hm
    exact ⟨rfl, hstored.readable key⟩
  | clear => exact h.concat trivial
  | offer id event flight hfree hwritten hprevious => exact h.concat trivial
  | accept id flight backend hin hpublish => exact h.concat trivial
  | refuse id flight hin => exact h.concat trivial
  | crash id flight hin => exact h.concat trivial
  | rewire backend => exact h.concat trivial
  | shutdown => exact h.append_quiet (List.forall_mem_nil _)
  | subscribe id target rate hfree => exact h.append_quiet (List.forall_mem_nil _)
  | register id target rate due backend hstanding hregister => exact h.concat trivial
  | activate id target rate due now hstanding => exact h.concat (hstored.seeds_readable target)
  | flow id target rate p next came went stage between after hstanding hin hout =>
    rw [← List.append_assoc]
    -- What came from the transport is not looked at: it only says what may go out.
    have hcame : SoundTrace given (t ++ came) := h.append_quiet fun m hm => by
      obtain ⟨w, rfl⟩ := hin.came hm
      exact ⟨rfl, trivial⟩
    refine hcame.append_quiet fun m hm => ?_
    obtain ⟨e, q, rfl, rfl⟩ := hout.went hm
    exact ⟨rfl, (hcarried.due_inflow hfits hstanding hin List.mem_cons_self).append came⟩
  | deposit id target rate p e hstanding =>
    exact h.concat (hcarried.due id _ hstanding e List.mem_cons_self)
  | endCall id target rate p e due ending stage hstanding hstage =>
    exact h.append_quiet (List.forall_mem_nil _)
  | stop id target rate stage backend hstanding hbackend =>
    exact h.append_quiet (List.forall_mem_nil _)

namespace Service

variable {settings : Settings} {origin : UtcTime} {transport : Transport} {s : Service}

theorem holds_backendOf {P : Stamped → Prop} {slot : Nat} {backend : Backend}
    (h : backendOf settings slot = .ok backend) : backend.Holds backend.given P := by
  unfold backendOf at h
  cases hkind : settings.transport with
  | log =>
    rw [hkind] at h
    cases h
    exact Log.holds_create settings.logRetention
  | keyspace =>
    simp only [hkind] at h
    cases hcreate : Keyspace.create? slot settings.channelCapacity with
    | none =>
      rw [hcreate] at h
      cases h
    | some t =>
      rw [hcreate] at h
      cases h
      exact Keyspace.holds_create hcreate

theorem Run.stored (run : Run (withTransport settings origin transport) t s) :
    Stored t s.view := by
  induction run with
  | start => exact ⟨fun key w hw => (nomatch hw), fun id flight w hin => (nomatch hin)⟩
  | step run h ih => exact ih.step run.accounted (step_view h).publishing

theorem Run.carried (run : Run (withTransport settings origin transport) t s) {slot : Nat}
    (hbackend : backendOf settings slot = .ok transport.backend) (hrewired : .rewired ∉ t)
    (hfits : ∀ w, .written w ∈ t → w.event.toBytes.length < 2 ^ 64) :
    Carried transport.backend.given t s.view := by
  induction run with
  | start => exact ⟨holds_backendOf hbackend, fun id standing hat => nomatch hat⟩
  | step run h ih =>
    simp only [List.mem_append, not_or] at hrewired hfits
    have hbefore := ih hrewired.1 fun w hw => hfits w (.inl hw)
    refine hbefore.step (fun w hw => ?_) (step_view h) hrewired.2
    exact hfits w (.inl (run.accounted.accepted w hw).1)

/-- Along every run on a transport that begins empty, a read finds the invalid event of its key or
a write on the key that the transport has taken or may still take, the seeds of a subscription are
such reads, and what it hands over is one of its seeds or a write that the transport has taken. The
keyspace gives a write as it took it. So does the log, unless the time of the event is in a leap
second that ends no minute. -/
theorem Run.sound (run : Run (withTransport settings origin transport) t s) {slot : Nat}
    (hbackend : backendOf settings slot = .ok transport.backend) (hrewired : .rewired ∉ t)
    (hfits : ∀ w, .written w ∈ t → w.event.toBytes.length < 2 ^ 64) :
    SoundTrace transport.backend.given t := by
  induction run with
  | start =>
    intro before m after heq
    exact absurd heq.symm (List.append_ne_nil_of_right_ne_nil before (List.cons_ne_nil m after))
  | step run h ih =>
    simp only [List.mem_append, not_or] at hrewired hfits
    have hcarried := run.carried hbackend hrewired.1 fun w hw => hfits w (.inl hw)
    refine (ih hrewired.1 fun w hw => hfits w (.inl hw)).step run.stored hcarried (fun w hw => ?_)
      (step_view h)
    exact hfits w (.inl (run.accounted.accepted w hw).1)

/-! ## A read before the answer -/

/-- A key is read while a write on it waits for its answer, which is `verdict`. -/
def readBeforeAnswer (verdict : Verdict) : List Action :=
  [.script ⟨verdict, .handOn, 0, 0, none⟩,
    .publish (.own 0) (sharedEvent "a"), .step (.publisher (.own 0)), .get sharedKey,
    .step (.publisher (.own 0))]

/-- Someone listens to the key beforehand. -/
def listen : List Action :=
  [.subscribe 0 (.keys [sharedKey]) none (.scriptedCallback []),
    .step (.subscription 0), .step (.subscription 0), .step (.subscription 0)]

/-- The trace of a listener, a read before the answer, and the delivery of the write. -/
def listenMarks : List Mark :=
  [.registered 0, .seeded 0 [.invalid sharedKey], .handed 0 (.invalid sharedKey),
    .written ⟨1, sharedEvent "a"⟩, .read sharedKey ⟨1, sharedEvent "a"⟩,
    .accepted ⟨1, sharedEvent "a"⟩, .given 0 ⟨1, sharedEvent "a"⟩, .handed 0 (sharedEvent "a")]

/-- A write that the transport takes is read before that, and delivered afterwards. -/
theorem sound_listen :
    ∃ s, Run logService listenMarks s ∧ SoundTrace Stamped.reread listenMarks := by
  obtain ⟨t, s, run, hgood⟩ := exists_run_of_follow logService
    (listen ++ readBeforeAnswer .handOn ++ [.step (.subscription 0)])
    (fun t _ => decide (t = listenMarks)) (by decide +kernel)
  obtain rfl := of_decide_eq_true hgood
  refine ⟨s, run, run.sound backendOf_logBacked (by decide) fun w hw => ?_⟩
  simp only [listenMarks, List.mem_cons, reduceCtorEq, Mark.written.injEq, List.not_mem_nil,
    or_false, false_or] at hw
  subst hw
  decide +kernel

/-- A write that is refused in the end may have been read before. -/
theorem not_accepted_of_read : ¬ ∀ (t : List Mark) (s : Service), Run logService t s →
    (∀ id, (s.publisher id).inFlight = none) →
    ∀ key w, .read key w ∈ t → w = .invalid key ∨ .accepted w ∈ t := by
  intro hall
  obtain ⟨t, s, run, hgood⟩ := exists_run_of_follow logService
    (readBeforeAnswer (.fail (.rejected "no")))
    (fun t s => s.isIdle && decide (t = [.written ⟨1, sharedEvent "a"⟩,
      .read sharedKey ⟨1, sharedEvent "a"⟩, .refused ⟨1, sharedEvent "a"⟩])) (by decide +kernel)
  simp only [Bool.and_eq_true, decide_eq_true_eq] at hgood
  obtain ⟨hidle, rfl⟩ := hgood
  rcases hall _ s run (inFlight_of_isIdle hidle) sharedKey ⟨1, sharedEvent "a"⟩
    (by decide +kernel) with hinvalid | haccepted
  · exact absurd (congrArg Stamped.stamp hinvalid) (by decide)
  · simp at haccepted

end Service

end Observatory
