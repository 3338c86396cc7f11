import Observatory.Proofs.Publisher.Order
import Observatory.Proofs.Service.Isolation
import Observatory.Proofs.Service.Seeding
import Observatory.Proofs.Subscription.Frame
import Observatory.Proofs.Transport.Closed

/-!
# Services whose transport was shut down

A service that was made on a backend of its own hands every request on to it. Once the backend is
closed it stays so, whatever the service does, and from then on the transport takes no write and
gives no event.
-/

namespace Observatory

/-- Whether an action leaves the transport to the service. -/
def Action.isPlain : Action → Bool
  | .script _ | .rewire _ => false
  | _ => true

theorem Backend.stable_closed (name : String) :
    Stable fun b => b.closed = true ∧ b.name = name where
  register h hregister := absurd hregister (register_ne_ok h.1)
  next id h := by rwa [next_eq_ended h.1]
  drop id h := by rwa [closed_drop, name_drop]
  shutdown h := by rwa [shutdown_of_closed h.1]

/-- A closed backend gives no events. -/
theorem View.Step.given_not_mem {v v' : View} {marks : List Mark} (hstep : Step v marks v')
    (h : v.backend.closed = true) (id : ReaderId) (w : Stamped) : .given id w ∉ marks := by
  intro hm
  cases hstep with
  | read marks hreads =>
    obtain ⟨key, heq⟩ := hreads _ hm
    cases heq
  | flow id' target rate p next came went stage between after hstanding hin hout =>
    rcases List.mem_append.1 hm with hcame | hwent
    · cases hin with
      | live w' hseeds hitem =>
        rw [Backend.next_eq_ended h] at hitem
        cases hitem
      | _ => cases hcame
    · obtain ⟨e, q, -, heq⟩ := hout.went hwent
      cases heq
  | _ => simp at hm

namespace Service

variable {s s' : Service} {a : Action} {id : PublisherId} {name : String}

/-! ## Requests that are handed on -/

/-- The service hands requests on to its backend at once. -/
structure Direct (s : Service) : Prop where
  script : s.hub.transport.script = .transparent
  flights : ∀ id flight, (s.publisher id).inFlight = some flight → flight.verdict = .handOn

theorem direct_start (settings : Settings) (origin : UtcTime) (backend : Backend) :
    Direct (withTransport settings origin (.ofBackend backend)) where
  script := rfl
  flights _ _ h := nomatch h

theorem script_advance {p p' : Publisher} {h h' : Hub} (hstep : p.advance? h = some (p', h')) :
    h'.transport.script = h.transport.script := by
  obtain ⟨-, ⟨flight, -, -, hanswer⟩ | ⟨request, rest, -, -, hoffer⟩⟩ :=
    Publisher.cases_of_advance hstep
  · unfold Publisher.answer at hanswer
    split at hanswer
    · cases hanswer
      rfl
    · cases hanswer
      rfl
    · split at hanswer <;> cases hanswer <;> rfl
  · cases hoffer
    rfl

theorem script_eq (h : s.perform? a = some s') (hplain : a.isPlain = true) :
    s'.hub.transport.script = s.hub.transport.script := by
  obtain ⟨-, hchange⟩ := hub_change h
  generalize s'.hub = hub at hchange
  cases hchange with
  | publisher _ hstep => exact script_advance hstep
  | subscription _ hstep => exact Hub.script_of_still (Subscription.still_advance hstep)
  | script | rewire => cases hplain
  | _ => rfl

/-- Only a publisher's driver does what a trace tells of publishes. -/
theorem eq_of_mark? {moment : Moment} (h : moment ∈ s.moments id a)
    (hmark : moment.mark?.isSome = true) : a = .step (.publisher id) := by
  cases a with
  | step actor =>
    cases actor with
    | publisher id' =>
      rw [moments] at h
      split at h
      next hid => rw [hid]
      next => cases h
    | task name =>
      simp only [moments] at h
      split at h
      · split at h
        · unfold PublishTask.moments at h
          split at h
          · split at h
            · cases h
            · cases List.mem_singleton.1 h
              cases hmark
          · cases h
        · cases h
      · cases h
    | subscription name => cases h
  | publish _ _ | closePublisher _ | shutdown =>
    rw [moments] at h
    split at h
    · cases List.mem_singleton.1 h
      cases hmark
    · cases h
  | _ => cases h

/-- The transport makes up its mind when a publish is offered. -/
theorem verdict_of_inFlight {flight : InFlight} (h : s.perform? a = some s')
    (hflight : (s'.publisher id).inFlight = some flight) :
    (s.publisher id).inFlight = some flight ∨
      flight.verdict = s.hub.transport.script.publish := by
  have hmove : (s.publisher id).Move _ _ (s.moments id a) (s'.publisher id) := move h
  -- A publish gets its verdict when it is offered, from the script as it is then.
  by_cases hoffer : ∃ ticket w, .offered ticket w ∈ s.moments id a
  · obtain ⟨ticket, w, hoffered⟩ := hoffer
    obtain rfl := eq_of_mark? hoffered rfl
    obtain ⟨p, p', hub, hp, hstep, rfl⟩ := exists_of_advancePublisher h
    have hafter : ({ s.withPublisher id p' with hub } : Service).publisher id = p' := by
      change (s.withPublisher id p').publisher id = p'
      rw [publisher_withPublisher, if_pos rfl]
    rw [hafter] at hflight
    rw [moments, if_pos rfl, publisher_of_get? hp] at hoffered
    obtain ⟨-, ⟨before, hbefore, -, -⟩ | ⟨request, rest, -, -, hoffer⟩⟩ :=
      Publisher.cases_of_advance hstep
    · rw [Publisher.moments, hbefore] at hoffered
      rcases before.answer_cases s.hub with heq | heq | heq <;> simp [heq] at hoffered
    · cases hoffer
      cases hflight
      exact .inr rfl
  · -- No other move puts a publish in flight.
    generalize s.moments id a = moments at hmove hoffer
    generalize s'.publisher id = p' at hmove hflight
    left
    cases hmove with
    | offer request rest flight => exact absurd ⟨_, _, List.mem_cons_self⟩ hoffer
    | accept | refuse => cases hflight
    | crash =>
      rw [Publisher.crash_eq] at hflight
      cases hflight
    | _ => exact hflight

theorem Direct.step (hs : Direct s) (h : s.perform? a = some s') (hplain : a.isPlain = true) :
    Direct s' where
  script := (script_eq h hplain).trans hs.script
  flights id flight hflight := by
    rcases verdict_of_inFlight h hflight with hbefore | hverdict
    · exact hs.flights id flight hbefore
    · rw [hverdict, hs.script]
      rfl

/-- What every plain action keeps, a record of such actions keeps. -/
theorem Trail.keeps {P : Service → Prop} {start : Service} {t : List (Service × Action)}
    (hkept : ∀ {s s' a}, P s → s.perform? a = some s' → a.isPlain = true → P s')
    (hstart : P start) (hplain : ∀ taken ∈ t, taken.2.isPlain = true)
    (trail : Trail record start t s) : P s := by
  induction trail with
  | start => exact hstart
  | step _ h ih =>
    rw [List.forall_mem_append] at hplain
    exact hkept (ih hplain.1) h (hplain.2 _ List.mem_cons_self)

/-! ## Requests to a closed backend -/

/-- The service hands requests on to a closed backend. -/
structure Shut (name : String) (s : Service) : Prop extends Direct s where
  closed : s.hub.transport.backend.closed = true
  name : s.hub.transport.backend.name = name

theorem Direct.shutdown (hs : Direct s) : Shut s.hub.transport.backend.name s.shutdown where
  toDirect := hs.step (a := .shutdown) rfl rfl
  closed := by
    rw [hub_shutdown]
    exact Backend.closed_shutdown _
  name := by
    rw [hub_shutdown]
    exact Backend.name_shutdown _

theorem rewired_not_mem (hplain : a.isPlain = true) : .rewired ∉ s.marks a := by
  intro hm
  have hreader := reader?_marks hm
  cases a with
  | step actor =>
    cases actor with
    | publisher id =>
      rw [marks_step_publisher] at hm
      obtain ⟨moment, -, heq⟩ := List.mem_filterMap.1 hm
      cases moment <;> cases heq
    | subscription id => cases hreader
    | task id => cases hm
  | getAll keys => simp [marks] at hm
  | get _ | clearStore => simp [marks] at hm
  | rewire transport => cases hplain
  | _ => cases hm

theorem Shut.step (hs : Shut name s) (h : s.perform? a = some s') (hplain : a.isPlain = true) :
    Shut name s' := by
  have hbackend := (step_view h).stable (Backend.stable_closed name) ⟨hs.closed, hs.name⟩
    (rewired_not_mem hplain) fun w _ _ hok => by
      have hclosed : s.view.backend.publish w = .error (.closed _) :=
        Backend.publish_of_closed hs.closed w
      rw [hclosed] at hok
      cases hok
  exact ⟨hs.toDirect.step h hplain, hbackend.1, hbackend.2⟩

theorem Trail.shut_of_mem {start : Service} {t : List (Service × Action)}
    (hstart : Shut name start) (hplain : ∀ taken ∈ t, taken.2.isPlain = true)
    (trail : Trail record start t s) {taken : Service × Action} (hmem : taken ∈ t) :
    Shut name taken.1 := by
  obtain ⟨early, late, rfl⟩ := List.append_of_mem hmem
  exact trail.split.1.keeps Shut.step hstart fun other hother =>
    hplain other (List.mem_append_left _ hother)

theorem Shut.answer_eq (hs : Shut name s) {flight : InFlight}
    (hflight : (s.publisher id).inFlight = some flight) :
    flight.answer s.hub = .refused flight.ticket flight.written := by
  rw [InFlight.answer, hs.flights id flight hflight, Backend.publish_of_closed hs.closed]

/-- A driver takes no answer but a refusal. -/
theorem Shut.moments (hs : Shut name s) {moment : Moment} (hm : moment ∈ s.moments id a) :
    (∀ ticket w, moment ≠ .accepted ticket w) ∧ ∀ ticket w, moment ≠ .crashed ticket w := by
  by_cases hdriver : moment.mark?.isSome = true
  · obtain rfl := eq_of_mark? hm hdriver
    rw [Service.moments, if_pos rfl] at hm
    unfold Publisher.moments at hm
    split at hm
    next flight hflight =>
      rw [List.mem_singleton.1 hm, hs.answer_eq hflight]
      simp
    next =>
      rw [List.mem_singleton.1 hm]
      simp
    next => cases hm
  · refine ⟨?_, ?_⟩ <;>
      · rintro ticket w rfl
        exact hdriver rfl

/-- What a trace tells of a write, the journal of a publisher tells too. -/
theorem exists_moment {m : Mark} {w : Stamped} (hm : m ∈ s.marks a) (hw : m.write? = some w) :
    ∃ id, ∃ moment ∈ s.moments id a, moment.mark? = some m := by
  have hreader := reader?_marks hm
  cases a with
  | step actor =>
    cases actor with
    | publisher id =>
      rw [marks_step_publisher] at hm
      exact ⟨id, List.mem_filterMap.1 hm⟩
    | subscription id =>
      cases m with
      | written _ | accepted _ | refused _ | crashed _ => cases hreader
      | _ => cases hw
    | task id => cases hm
  | getAll keys =>
    obtain ⟨key, -, rfl⟩ := List.mem_map.1 hm
    cases hw
  | get _ | clearStore | rewire _ =>
    cases List.mem_singleton.1 hm
    cases hw
  | _ => cases hm

/-- Of every write the trace tells at most that it was made and that it was refused. -/
theorem Shut.marks (hs : Shut name s) (w : Stamped) :
    .accepted w ∉ s.marks a ∧ .crashed w ∉ s.marks a := by
  refine ⟨fun hm => ?_, fun hm => ?_⟩ <;>
    · obtain ⟨id, moment, hmoment, heq⟩ := exists_moment hm rfl
      obtain ⟨haccepted, hcrashed⟩ := hs.moments hmoment
      cases moment <;> cases heq
      first | exact haccepted _ _ rfl | exact hcrashed _ _ rfl

end Service

end Observatory
