import Observatory.Proofs.Service.Seeding
import Observatory.Proofs.Transport.Patterns

/-!
# Subscriptions to patterns

A subscription to a pattern hands over what the transport gives it, and nothing before it: it has no
seeds. One that listens to observations passes over all other events. So as long as it keeps up, it
hands over what was published on the keys that its pattern accepts.
-/

namespace Observatory

variable {t marks : List Mark} {id id' : ReaderId} {p : KeyPattern} {observeOnly : Bool}
  {P : Stamped → Bool} {got wanted : List Stamped} {w : Stamped} {limit : Nat}

/-- The writes that the transport took, in order. -/
def acceptances (t : List Mark) : List Stamped :=
  t.filterMap fun
    | .accepted w => some w
    | _ => none

/-- What was published since a subscription was registered, on the keys that a pattern accepts. -/
def matched (t : List Mark) (id : ReaderId) (p : KeyPattern) : List Stamped :=
  (acceptances (since id t)).filter fun w => p.accepts w.key

/-- The events of the writes, or only the observations among them. -/
def eventsOf (observeOnly : Bool) (writes : List Stamped) : List Event :=
  (writes.filter fun w => !observeOnly || w.event.isObserve).map Stamped.event

theorem matched_append (hregistered : .registered id ∈ t) (marks : List Mark) (p : KeyPattern) :
    matched (t ++ marks) id p =
      matched t id p ++ (acceptances marks).filter fun w => p.accepts w.key := by
  rw [matched, since_append hregistered, acceptances, List.filterMap_append, List.filter_append]
  rfl

theorem matched_quiet (hregistered : .registered id ∈ t) (hmarks : ∀ w, .accepted w ∉ marks)
    (p : KeyPattern) : matched (t ++ marks) id p = matched t id p := by
  have hnone : acceptances marks = [] := by
    rw [acceptances, List.filterMap_eq_nil_iff]
    intro m hm
    cases m with
    | accepted w => exact absurd hm (hmarks w)
    | _ => rfl
  rw [matched_append hregistered, hnone, List.filter_nil, List.append_nil]

theorem since_registered (h : .registered id ∉ t) : since id (t ++ [Mark.registered id]) = [] := by
  induction t with
  | nil => exact if_pos rfl
  | cons m t ih =>
    rw [List.mem_cons, not_or] at h
    exact (if_neg (Ne.symm h.1)).trans (ih h.2)

theorem matched_initial (t marks : List Mark) (id : ReaderId) (p : KeyPattern) :
    matched t id p <+: matched (t ++ marks) id p :=
  ((since_initial id t marks).filterMap _).filter _

theorem eventsOf_append (observeOnly : Bool) (writes writes' : List Stamped) :
    eventsOf observeOnly (writes ++ writes') =
      eventsOf observeOnly writes ++ eventsOf observeOnly writes' := by
  rw [eventsOf, List.filter_append, List.map_append]
  rfl

/-! ## Backends -/

namespace Backend

def isKeyspace : Backend → Bool
  | .keyspace _ => true
  | .log _ => false

/-- Whether a reader is nowhere further behind than by `limit` events. -/
def keepsUp (limit : Nat) (id : ReaderId) : Backend → Bool
  | .keyspace t => t.keepsUp limit id
  | .log _ => true

/-- A keyspace has given its reader all of `wanted` but what is still before it, or was shut down on
the way. -/
inductive Gives (limit : Nat) (id : ReaderId) (P : Stamped → Bool) (got wanted : List Stamped) :
    Backend → Prop where
  | keyspace {t : Keyspace} (h : t.Serves limit id P (fun _ => true) got wanted) :
      Gives limit id P got wanted (.keyspace t)
  | closed {t : Keyspace} (h : t.closed = true) (hgot : got <+: wanted) :
      Gives limit id P got wanted (.keyspace t)

variable {b c : Backend}

theorem isKeyspace_of_map {x : Except TransportError Keyspace} (h : x.map .keyspace = .ok c) :
    c.isKeyspace = true := by
  cases x with
  | error error => cases h
  | ok t =>
    cases h
    rfl

theorem isKeyspace_publish (h : b.isKeyspace = true) (hpublish : b.publish w = .ok c) :
    c.isKeyspace = true := by
  cases b with
  | keyspace t => exact isKeyspace_of_map hpublish
  | log t => cases h

theorem stable_isKeyspace : Stable fun b => b.isKeyspace = true where
  register {b c target id} h hregister := by
    cases b with
    | keyspace t =>
      cases target with
      | keys ks => exact isKeyspace_of_map hregister
      | pattern p observeOnly => exact isKeyspace_of_map hregister
    | log t => cases h
  next {b} id h := by
    cases b with
    | keyspace t => rfl
    | log t => cases h
  drop {b} id h := by
    cases b with
    | keyspace t => rfl
    | log t => cases h
  shutdown {b} h := by
    cases b with
    | keyspace t => rfl
    | log t => cases h

namespace Gives

theorem got_initial (h : b.Gives limit id P got wanted) : got <+: wanted := by
  cases h with
  | keyspace h => exact h.got_initial
  | closed _ hgot => exact hgot

theorem got_all (h : b.Gives limit id P got wanted) (hquiet : b.isQuiet id = true) :
    got = wanted := by
  cases h with
  | keyspace h => exact h.got_all hquiet
  | closed h =>
    rw [Backend.isQuiet, Keyspace.isQuiet, h] at hquiet
    cases hquiet

theorem publish (h : b.Gives limit id P got wanted) (hpublish : b.publish w = .ok c) :
    c.Gives limit id P got (wanted ++ [w].filter P) := by
  cases h with
  | @keyspace t h =>
    cases hkeyspace : t.publish w with
    | error error =>
      rw [Backend.publish, hkeyspace] at hpublish
      cases hpublish
    | ok t' =>
      rw [Backend.publish, hkeyspace] at hpublish
      cases hpublish
      exact .keyspace (h.publish hkeyspace)
  | closed h =>
    simp only [Backend.publish, Keyspace.publish, h] at hpublish
    cases hpublish

theorem register (h : b.Gives limit id P got wanted) (hid : id ≠ id') {target : Target}
    (hregister : target.register id' b = .ok c) : c.Gives limit id P got wanted := by
  cases h with
  | keyspace h =>
    have hserves := h
    obtain ⟨boxes, -, -, hkeeps, -⟩ := hserves
    obtain ⟨t', ht', -⟩ := target.register_keyspace hkeeps id'
    cases ht'.symm.trans hregister
    refine .keyspace (h.frame fun boxes hkeeps => ?_)
    obtain ⟨t'', ht'', hafter⟩ := target.register_keyspace hkeeps id'
    cases ht'.symm.trans ht''
    exact ⟨_, hafter, Function.update_of_ne hid ..⟩
  | closed h => cases (target.register_closed h id').symm.trans hregister

theorem drop (h : b.Gives limit id P got wanted) (hid : id ≠ id') :
    (b.drop id').Gives limit id P got wanted := by
  cases h with
  | keyspace h => exact .keyspace (h.drop hid)
  | closed h hgot => exact .closed h hgot

theorem next_other (h : b.Gives limit id P got wanted) (hid : id ≠ id') :
    (b.next id').backend.Gives limit id P got wanted := by
  cases h with
  | keyspace h => exact .keyspace (h.next_other hid)
  | closed h hgot =>
    rw [next_of_closed h]
    exact .closed h hgot

theorem inflow (h : b.Gives limit id P got wanted) (hid : id ≠ id') {target : Target} {q : Pipeline}
    {came : List Mark} {next : Pipeline.Step} (hin : Inflow id' target b q came next c) :
    c.Gives limit id P got wanted := by
  cases hin with
  | seed | tick => exact h
  | live | pending | ended => exact h.next_other hid

theorem outflow (h : b.Gives limit id P got wanted) (hid : id ≠ id') {next : Pipeline.Step}
    {went : List Mark} {stage : Stage} (hout : Outflow id' b next went stage c) :
    c.Gives limit id P got wanted := by
  cases hout with
  | onward | wait | call | begin => exact h
  | crash | ended => exact h.drop hid

theorem shutdown (h : b.Gives limit id P got wanted) : b.shutdown.Gives limit id P got wanted := by
  have hgot := h.got_initial
  cases h with
  | keyspace h =>
    obtain ⟨boxes, -, -, hkeeps, -⟩ := h
    rw [Backend.shutdown, Keyspace.shutdown, if_neg (by simp [hkeeps.isOpen])]
    exact .closed rfl hgot
  | closed h =>
    rw [Backend.shutdown, Keyspace.shutdown, if_pos h]
    exact .closed h hgot

theorem next (h : b.Gives limit id P got wanted) (hup : b.keepsUp limit id = true) :
    ((b.next id).result = .pending → got = wanted) ∧
      (b.next id).backend.Gives limit id P (got ++ (b.next id).result.items) wanted := by
  cases h with
  | keyspace h =>
    obtain ⟨-, hpending, hafter⟩ := h.next hup
    rw [List.filter_true] at hafter
    exact ⟨hpending, .keyspace hafter⟩
  | closed h hgot =>
    rw [next_of_closed h]
    refine ⟨nofun, .closed h ?_⟩
    rwa [Poll.items, List.append_nil]

theorem start (hsound : b.Sound limit) (hkeyspace : b.isKeyspace = true)
    (hregister : (Target.pattern p observeOnly).register id b = .ok c) :
    c.Gives limit id (fun w => p.accepts w.key) [] [] := by
  cases hsound with
  | keyspace h =>
    obtain ⟨t', ht', hafter⟩ := (Target.pattern p observeOnly).register_keyspace h id
    cases ht'.symm.trans hregister
    exact .keyspace ⟨_, _, [], hafter, Function.update_self .., .pattern p [], rfl⟩
  | closed h =>
    cases ((Target.pattern p observeOnly).register_closed h id).symm.trans hregister
  | log t => cases hkeyspace

end Gives

end Backend

/-! ## One subscription -/

/-- The subscription runs, and still has `waiting` to hand over of what it was given. -/
structure Relaying (limit : Nat) (t : List Mark) (b : Backend) (id : ReaderId)
    (p : KeyPattern) (observeOnly : Bool) (q : Pipeline) (waiting : List Event) : Prop where
  registered : .registered id ∈ t
  seeds : q.seeds = []
  covered : ∀ key, q.covered.get? key = none
  pacing : q.pacing = none
  went : handed t id ++ waiting = eventsOf observeOnly (given t id)
  gives : b.Gives limit id (fun w => p.accepts w.key) (given t id) (matched t id p)

/-- The subscription was given no more than it may be, and has handed over no more of it. -/
structure Relayed (t : List Mark) (id : ReaderId) (p : KeyPattern) (observeOnly : Bool) : Prop where
  came : given t id <+: matched t id p
  went : handed t id <+: eventsOf observeOnly (given t id)

/-- How far a subscription to a pattern has come at a stage of its driver. -/
def Relays (limit : Nat) (t : List Mark) (b : Backend) (id : ReaderId) (p : KeyPattern)
    (observeOnly : Bool) : Stage → Prop
  | .spawned => .registered id ∉ t ∧ given t id = [] ∧ handed t id = []
  | .registering _ => .registered id ∈ t ∧ given t id = [] ∧ handed t id = [] ∧
    b.Gives limit id (fun w => p.accepts w.key) [] (matched t id p)
  | .streaming q => Relaying limit t b id p observeOnly q []
  | .handing q e .room => Relaying limit t b id p observeOnly q [e]
  -- A callback has its event from the moment it is called.
  | .handing q _ _ => Relaying limit t b id p observeOnly q []
  | .stopped => Relayed t id p observeOnly

/-- How far it has come once a step of its pipeline is taken. -/
def RelaysNext (limit : Nat) (t : List Mark) (b : Backend) (id : ReaderId) (p : KeyPattern)
    (observeOnly : Bool) : Pipeline.Step → Prop
  | .onward q => Relaying limit t b id p observeOnly q []
  | .emit e q => Relaying limit t b id p observeOnly q [e]
  | .ended => Relayed t id p observeOnly

variable {b c : Backend} {q : Pipeline} {waiting : List Event} {e : Event} {stage : Stage}

theorem relayed_of_untouched (hgiven : given t id = []) (hhanded : handed t id = []) :
    Relayed t id p observeOnly := by
  constructor
  · rw [hgiven]
    exact List.nil_prefix
  · rw [hhanded]
    exact List.nil_prefix

theorem Relayed.frame (h : Relayed t id p observeOnly) (hgiven : given marks id = [])
    (hhanded : handed marks id = []) : Relayed (t ++ marks) id p observeOnly := by
  constructor
  · rw [given_append, hgiven, List.append_nil]
    exact h.came.trans (matched_initial t marks id p)
  · rw [given_append, handed_append, hgiven, hhanded, List.append_nil, List.append_nil]
    exact h.went

namespace Relaying

theorem frame (h : Relaying limit t b id p observeOnly q waiting) (hgiven : given marks id = [])
    (hhanded : handed marks id = [])
    (hgives : ∀ got, b.Gives limit id (fun w => p.accepts w.key) got (matched t id p) →
      c.Gives limit id (fun w => p.accepts w.key) got (matched (t ++ marks) id p)) :
    Relaying limit (t ++ marks) c id p observeOnly q waiting where
  registered := List.mem_append_left _ h.registered
  seeds := h.seeds
  covered := h.covered
  pacing := h.pacing
  went := by
    rw [given_append, handed_append, hgiven, hhanded, List.append_nil, List.append_nil]
    exact h.went
  gives := by
    rw [given_append, hgiven, List.append_nil]
    exact hgives _ h.gives

theorem relayed (h : Relaying limit t b id p observeOnly q waiting) : Relayed t id p observeOnly :=
  ⟨h.gives.got_initial, waiting, h.went⟩

theorem handOver (h : Relaying limit t b id p observeOnly q [e]) :
    Relaying limit (t ++ [Mark.handed id e]) b id p observeOnly q [] where
  registered := List.mem_append_left _ h.registered
  seeds := h.seeds
  covered := h.covered
  pacing := h.pacing
  went := by
    have hgiven : given [.handed id e] id = [] := rfl
    have hhanded : handed [.handed id e] id = [e] := by simp [handed]
    rw [given_append, handed_append, hgiven, hhanded, List.append_nil, List.append_nil]
    exact h.went
  gives := by
    have hgiven : given [.handed id e] id = [] := rfl
    rw [given_append, hgiven, List.append_nil, matched_append h.registered]
    exact (List.append_nil (matched t id p)).symm ▸ h.gives

/-- Without seeds and without a rate, what comes is handed on at once, if it is taken at all. -/
theorem live (h : Relaying limit t b id p observeOnly q [])
    (hgives : c.Gives limit id (fun w => p.accepts w.key) (given t id ++ [w]) (matched t id p)) :
    RelaysNext limit (t ++ [Mark.given id w]) c id p observeOnly
      (q.liveArrival (.pattern p observeOnly) w) := by
  have hgiven : given (t ++ [Mark.given id w]) id = given t id ++ [w] := by
    rw [given_append]
    simp [given]
  have hhanded : handed (t ++ [Mark.given id w]) id = handed t id := by
    rw [handed_append]
    exact List.append_nil _
  have hmatched : matched (t ++ [Mark.given id w]) id p = matched t id p := by
    rw [matched_append h.registered]
    exact List.append_nil _
  have hgoes : ∀ waiting, eventsOf observeOnly [w] = waiting →
      Relaying limit (t ++ [Mark.given id w]) c id p observeOnly q waiting := by
    intro waiting hwaiting
    refine ⟨List.mem_append_left _ h.registered, h.seeds, h.covered, h.pacing, ?_, ?_⟩
    · rw [hgiven, hhanded, eventsOf_append, hwaiting, ← h.went, List.append_nil]
    · rw [hgiven, hmatched]
      exact hgives
  -- There were no seeds, so no event is older than what was handed over already.
  have hnews : q.isNews w = true := by
    rw [Pipeline.isNews, h.covered]
  unfold Pipeline.liveArrival
  rw [hnews, Bool.true_and, Target.admits]
  cases hadmits : !observeOnly || w.event.isObserve with
  | true =>
    rw [if_pos rfl, Pipeline.arrival, h.pacing]
    exact hgoes [w.event] (by simp [eventsOf, hadmits])
  | false =>
    rw [if_neg (by decide)]
    exact hgoes [] (by simp [eventsOf, hadmits])

theorem inflow (h : Relaying limit t b id p observeOnly q []) (hup : b.keepsUp limit id = true)
    {came : List Mark} {next : Pipeline.Step}
    (hin : Inflow id (.pattern p observeOnly) b q came next c) :
    RelaysNext limit (t ++ came) c id p observeOnly next := by
  obtain ⟨-, hgives⟩ := h.gives.next hup
  cases hin with
  | seed x seeds hseeds =>
    rw [h.seeds] at hseeds
    cases hseeds
  | tick now _ _ htick =>
    rw [Pipeline.tick?, h.pacing] at htick
    cases htick
  | live w _ hresult =>
    rw [hresult] at hgives
    exact h.live hgives
  | pending _ hresult =>
    rw [hresult, Poll.items, List.append_nil] at hgives
    rw [List.append_nil]
    exact { h with gives := hgives }
  | ended _ hresult =>
    rw [List.append_nil]
    exact h.relayed

end Relaying

theorem RelaysNext.outflow {next : Pipeline.Step} {went : List Mark}
    (h : RelaysNext limit t b id p observeOnly next) (hout : Outflow id b next went stage c) :
    Relays limit (t ++ went) c id p observeOnly stage := by
  cases hout with
  | onward q | wait q e =>
    rw [List.append_nil]
    exact h
  | call q e => exact Relaying.handOver h
  | begin q e due ending => exact Relaying.handOver h
  | crash q e => exact (Relaying.handOver h).relayed
  | ended =>
    rw [List.append_nil]
    exact h

namespace Relays

theorem frame (h : Relays limit t b id p observeOnly stage)
    (hmarks : ∀ m ∈ marks, m.reader? ≠ some id)
    (hgives : .registered id ∈ t → ∀ got,
      b.Gives limit id (fun w => p.accepts w.key) got (matched t id p) →
        c.Gives limit id (fun w => p.accepts w.key) got (matched (t ++ marks) id p)) :
    Relays limit (t ++ marks) c id p observeOnly stage := by
  have hgiven : given marks id = [] := given_of_reader hmarks
  have hhanded : handed marks id = [] := handed_of_reader hmarks
  cases stage with
  | spawned =>
    obtain ⟨hunregistered, huntouched⟩ := h
    unfold Relays
    rw [given_append, handed_append, hgiven, hhanded, List.append_nil, List.append_nil]
    refine ⟨fun hmem => ?_, huntouched⟩
    rcases List.mem_append.1 hmem with hold | hnew
    · exact hunregistered hold
    · exact hmarks _ hnew rfl
  | registering due =>
    obtain ⟨hregistered, hcame, hwent, hbefore⟩ := h
    unfold Relays
    rw [given_append, handed_append, hgiven, hhanded, List.append_nil, List.append_nil]
    exact ⟨List.mem_append_left _ hregistered, hcame, hwent, hgives hregistered _ hbefore⟩
  | streaming q => exact Relaying.frame h hgiven hhanded (hgives (Relaying.registered h))
  | handing q e wait =>
    cases wait with
    | room => exact Relaying.frame h hgiven hhanded (hgives (Relaying.registered h))
    | callback due ending => exact Relaying.frame h hgiven hhanded (hgives (Relaying.registered h))
    | forever => exact Relaying.frame h hgiven hhanded (hgives (Relaying.registered h))
  | stopped => exact Relayed.frame h hgiven hhanded

theorem relayed (h : Relays limit t b id p observeOnly stage) : Relayed t id p observeOnly := by
  cases stage with
  | spawned => exact relayed_of_untouched h.2.1 h.2.2
  | registering due => exact relayed_of_untouched h.2.1 h.2.2.1
  | streaming q => exact Relaying.relayed h
  | handing q e wait =>
    cases wait with
    | room => exact Relaying.relayed h
    | callback due ending => exact Relaying.relayed h
    | forever => exact Relaying.relayed h
  | stopped => exact h

theorem register {due : Nat} (h : Relays limit t b id p observeOnly .spawned)
    (hsound : b.Sound limit) (hkeyspace : b.isKeyspace = true)
    (hregister : (Target.pattern p observeOnly).register id b = .ok c) :
    Relays limit (t ++ [Mark.registered id]) c id p observeOnly (.registering due) := by
  obtain ⟨hunregistered, hcame, hwent⟩ := h
  have hmatched : matched (t ++ [Mark.registered id]) id p = [] := by
    rw [matched, since_registered hunregistered]
    rfl
  refine ⟨List.mem_append_right _ List.mem_cons_self, ?_, ?_, ?_⟩
  · rw [given_append, hcame]
    rfl
  · rw [handed_append, hwent]
    rfl
  · rw [hmatched]
    exact .start hsound hkeyspace hregister

theorem activate {due now : Nat} {store : Store}
    (h : Relays limit t b id p observeOnly (.registering due)) :
    Relays limit (t ++ [Mark.seeded id ((Target.pattern p observeOnly).seeds store)]) b id p
      observeOnly (.streaming (.start ((Target.pattern p observeOnly).seeds store) none now)) := by
  obtain ⟨hregistered, hcame, hwent, hgives⟩ := h
  have hmatched : matched (t ++ [Mark.seeded id []]) id p = matched t id p := by
    rw [matched_append hregistered]
    exact List.append_nil _
  have hgiven : given (t ++ [Mark.seeded id []]) id = [] := by
    rw [given_append, hcame]
    rfl
  -- There are no seeds for a pattern, so no key is covered by one.
  refine ⟨List.mem_append_left _ hregistered, rfl, fun _ => rfl, rfl, ?_, ?_⟩
  · rw [Target.seeds, hgiven, handed_append, hwent]
    rfl
  · rw [Target.seeds, hgiven, hmatched]
    exact hgives

end Relays

/-! ## Runs -/

/-- How far the subscription has come, if it is one to a pattern without rate control. -/
structure Listening (limit : Nat) (id : ReaderId) (t : List Mark) (v : View) : Prop where
  absent : v.standing id = none → ∀ m ∈ t, m.reader? ≠ some id
  relays : ∀ p observeOnly stage, v.standing id = some ⟨.pattern p observeOnly, none, stage⟩ →
    Relays limit t v.backend id p observeOnly stage ∧ ∀ seeds, .seeded id seeds ∈ t → seeds = []

namespace Listening

variable {v v' : View}

theorem keep (h : Listening limit id t v) (hmarks : ∀ m ∈ marks, m.reader? ≠ some id)
    (hstanding : v'.standing id = v.standing id)
    (hgives : ∀ p, .registered id ∈ t → ∀ got,
      v.backend.Gives limit id (fun w => p.accepts w.key) got (matched t id p) →
        v'.backend.Gives limit id (fun w => p.accepts w.key) got (matched (t ++ marks) id p)) :
    Listening limit id (t ++ marks) v' := by
  have hseeded : ∀ seeds, .seeded id seeds ∈ t ++ marks → .seeded id seeds ∈ t := by
    intro seeds hmem
    exact (List.mem_append.1 hmem).resolve_right fun hm => hmarks _ hm rfl
  constructor
  · intro hnone
    rw [hstanding] at hnone
    exact List.forall_mem_append.2 ⟨h.absent hnone, hmarks⟩
  · intro p observeOnly stage hat
    rw [hstanding] at hat
    obtain ⟨hrelays, hunseeded⟩ := h.relays p observeOnly stage hat
    exact ⟨hrelays.frame hmarks (hgives p),
      fun seeds hmem => hunseeded seeds (hseeded seeds hmem)⟩

theorem keep_quiet (h : Listening limit id t v) (hmarks : ∀ m ∈ marks, m.reader? ≠ some id)
    (hquiet : ∀ w, .accepted w ∉ marks) (hstanding : v'.standing id = v.standing id)
    (hgives : ∀ P got wanted, v.backend.Gives limit id P got wanted →
      v'.backend.Gives limit id P got wanted) :
    Listening limit id (t ++ marks) v' := by
  refine h.keep hmarks hstanding fun p hregistered got hbefore => ?_
  rw [matched_quiet hregistered hquiet]
  exact hgives _ _ _ hbefore

theorem place (h : Listening limit id t v) {target : Target} {rate : Option RateControl}
    {stage : Stage} {backend : Backend} (hmarks : ∀ m ∈ marks, m.reader? = some id')
    (hothers : id ≠ id' → ∀ P got wanted, v.backend.Gives limit id P got wanted →
      backend.Gives limit id P got wanted)
    (hown : id' = id → ∀ p observeOnly, target = .pattern p observeOnly → rate = none →
      Relays limit (t ++ marks) backend id p observeOnly stage ∧
        ∀ seeds, .seeded id seeds ∈ t ++ marks → seeds = []) :
    Listening limit id (t ++ marks)
      ((v.withBackend backend).setStanding id' ⟨target, rate, stage⟩) := by
  by_cases hid : id = id'
  · constructor
    · intro hnone
      rw [View.standing_setStanding, if_pos hid] at hnone
      cases hnone
    · intro p observeOnly stage' hat
      rw [View.standing_setStanding, if_pos hid] at hat
      cases hat
      exact hown hid.symm p observeOnly rfl rfl
  · refine h.keep_quiet (fun m hm heq => ?_) (fun w hw => ?_) ?_ (hothers hid)
    · rw [hmarks m hm] at heq
      exact hid (Option.some.inj heq).symm
    · cases hmarks _ hw
    · exact (View.standing_setStanding ..).trans (if_neg hid)

theorem move (h : Listening limit id t v) {target : Target} {rate : Option RateControl}
    {old stage : Stage} {backend : Backend}
    (hstanding : v.standing id' = some ⟨target, rate, old⟩)
    (hmarks : ∀ m ∈ marks, m.reader? = some id')
    (hothers : id ≠ id' → ∀ P got wanted, v.backend.Gives limit id P got wanted →
      backend.Gives limit id P got wanted)
    (hown : id' = id → ∀ p observeOnly, target = .pattern p observeOnly → rate = none →
      Relays limit t v.backend id p observeOnly old →
        Relays limit (t ++ marks) backend id p observeOnly stage ∧
          ∀ seeds, .seeded id seeds ∈ marks → seeds = []) :
    Listening limit id (t ++ marks)
      ((v.withBackend backend).setStanding id' ⟨target, rate, stage⟩) := by
  refine h.place hmarks hothers ?_
  rintro rfl p observeOnly rfl rfl
  obtain ⟨hrelays, hunseeded⟩ := h.relays p observeOnly old hstanding
  obtain ⟨hafter, hnone⟩ := hown rfl p observeOnly rfl rfl hrelays
  exact ⟨hafter, fun seeds hmem => (List.mem_append.1 hmem).elim (hunseeded seeds) (hnone seeds)⟩

theorem step (h : Listening limit id t v) (hstep : View.Step v marks v')
    (hrewired : .rewired ∉ marks) (hsound : v.backend.Sound limit)
    (hkeyspace : v.backend.isKeyspace = true) (hup : v.backend.keepsUp limit id = true) :
    Listening limit id (t ++ marks) v' := by
  have hnobody : ∀ m : Mark, m.reader? = none → ∀ x ∈ [m], x.reader? ≠ some id := by
    intro m hm x hx heq
    rw [List.mem_singleton.1 hx, hm] at heq
    cases heq
  have hsame : ∀ P got wanted, v.backend.Gives limit id P got wanted →
      v.backend.Gives limit id P got wanted := fun _ _ _ h => h
  cases hstep with
  | read _ hreads =>
    refine h.keep_quiet (fun m hm => ?_) (fun w hw => ?_) rfl hsame
    · obtain ⟨key, rfl⟩ := hreads m hm
      simp [Mark.reader?]
    · obtain ⟨key, heq⟩ := hreads _ hw
      cases heq
  | clear => exact h.keep_quiet (hnobody _ rfl) (by simp) rfl hsame
  | offer publisher event flight hfree hwritten hprevious =>
    exact h.keep_quiet (hnobody _ rfl) (by simp) rfl hsame
  | accept publisher flight backend hin hpublish =>
    refine h.keep (hnobody _ rfl) rfl fun p hregistered got hgives => ?_
    rw [matched_append hregistered]
    exact hgives.publish hpublish
  | refuse publisher flight hin => exact h.keep_quiet (hnobody _ rfl) (by simp) rfl hsame
  | crash publisher flight hin => exact h.keep_quiet (hnobody _ rfl) (by simp) rfl hsame
  | rewire backend => exact absurd List.mem_cons_self hrewired
  | shutdown => exact h.keep_quiet (List.forall_mem_nil _) (by simp) rfl fun _ _ _ h => h.shutdown
  | subscribe id' target rate hfree =>
    refine h.place (List.forall_mem_nil _) (fun _ => hsame) ?_
    rintro rfl p observeOnly rfl rfl
    have hnone := h.absent hfree
    rw [List.append_nil]
    exact ⟨⟨fun hmem => hnone _ hmem rfl, given_of_reader hnone, handed_of_reader hnone⟩,
      fun seeds hmem => absurd rfl (hnone _ hmem)⟩
  | register id' target rate due backend hstanding hregister =>
    refine h.move hstanding (List.forall_mem_singleton.2 rfl)
      (fun hid P got wanted hgives => hgives.register hid hregister) ?_
    rintro rfl p observeOnly rfl rfl hrelays
    exact ⟨hrelays.register hsound hkeyspace hregister, by simp⟩
  | activate id' target rate due now hstanding =>
    refine h.move hstanding (List.forall_mem_singleton.2 rfl) (fun _ => hsame) ?_
    rintro rfl p observeOnly rfl rfl hrelays
    refine ⟨hrelays.activate, fun seeds hmem => ?_⟩
    cases List.mem_singleton.1 hmem
    rfl
  | flow id' target rate q next came went stage between after hstanding hin hout =>
    -- Neither what comes in nor what goes out is a seed.
    have hmarks : ∀ m ∈ came ++ went, (∃ w, m = .given id' w) ∨ ∃ e, m = .handed id' e := by
      intro m hm
      rcases List.mem_append.1 hm with hm | hm
      · exact .inl (hin.came hm)
      · obtain ⟨e, _, _, heq⟩ := hout.went hm
        exact .inr ⟨e, heq⟩
    refine h.move hstanding (fun m hm => ?_)
      (fun hid P got wanted hgives => (hgives.inflow hid hin).outflow hid hout) ?_
    · rcases hmarks m hm with ⟨w, rfl⟩ | ⟨e, rfl⟩
      · rfl
      · rfl
    · rintro rfl p observeOnly rfl rfl hrelays
      rw [← List.append_assoc]
      refine ⟨(Relaying.inflow hrelays hup hin).outflow hout, fun seeds hmem => ?_⟩
      rcases hmarks _ hmem with ⟨w, heq⟩ | ⟨e, heq⟩
      · cases heq
      · cases heq
  | deposit id' target rate q e hstanding =>
    refine h.move hstanding (List.forall_mem_singleton.2 rfl) (fun _ => hsame) ?_
    rintro rfl p observeOnly rfl rfl hrelays
    exact ⟨Relaying.handOver hrelays, by simp⟩
  | endCall id' target rate q e due ending stage hstanding hstage =>
    refine h.move hstanding (List.forall_mem_nil _) (fun _ => hsame) ?_
    rintro rfl p observeOnly rfl rfl hrelays
    rw [List.append_nil]
    rcases hstage with rfl | rfl
    · exact ⟨hrelays, by simp⟩
    · exact ⟨hrelays, by simp⟩
  | stop id' target rate stage backend hstanding hbackend =>
    refine h.move hstanding (List.forall_mem_nil _) ?_ ?_
    · intro hid P got wanted hgives
      rcases hbackend with rfl | rfl
      · exact hgives
      · exact hgives.drop hid
    · rintro rfl p observeOnly rfl rfl hrelays
      rw [List.append_nil]
      exact ⟨hrelays.relayed, by simp⟩

end Listening

namespace Service

variable {s : Service} {settings : Settings} {slot : Nat} {origin : UtcTime} {transport : Transport}
  {actions : List Action} {sub : Subscription}

/-- Along a run, the reader is nowhere further behind than by `limit` events. -/
def KeepsUp (start : Service) (limit : Nat) (id : ReaderId) (actions : List Action) : Prop :=
  ∀ early t s, early <+: actions → start.follow early = some (t, s) →
    s.hub.transport.backend.keepsUp limit id = true

theorem keepsUp_of_inits {start : Service} (h : (actions.inits.all fun early =>
      (start.follow early).all fun last => last.2.hub.transport.backend.keepsUp limit id) = true) :
    KeepsUp start limit id actions := by
  intro early t s hearly hfollow
  have hlast := List.all_eq_true.1 h early ((List.mem_inits early actions).2 hearly)
  rwa [hfollow] at hlast

theorem Run.isKeyspace (run : Run (withTransport settings origin transport) t s)
    (hkeyspace : transport.backend.isKeyspace = true) (hrewired : .rewired ∉ t) :
    s.view.backend.isKeyspace = true := by
  induction run with
  | start => exact hkeyspace
  | step run h ih =>
    rw [List.mem_append, not_or] at hrewired
    exact (step_view h).stable Backend.stable_isKeyspace (ih hrewired.1) hrewired.2
      fun _ _ _ hpublish => Backend.isKeyspace_publish (ih hrewired.1) hpublish

theorem listening_follow (hbackend : backendOf settings slot = .ok transport.backend)
    (hkeyspace : transport.backend.isKeyspace = true)
    (hup : KeepsUp (withTransport settings origin transport)
      settings.channelCapacity.nextPowerOfTwo id actions)
    (h : (withTransport settings origin transport).follow actions = some (t, s))
    (hrewired : .rewired ∉ t) :
    Listening settings.channelCapacity.nextPowerOfTwo id t s.view := by
  induction actions using List.reverseRecOn generalizing t s with
  | nil =>
    cases h
    exact ⟨fun _ => List.forall_mem_nil _, fun p observeOnly stage hstanding => nomatch hstanding⟩
  | append_singleton early a ih =>
    obtain ⟨t', mid, t'', hearly, hlast, rfl⟩ := exists_of_follow_append h
    simp only [follow, Option.bind_eq_bind, Option.bind_some, List.append_nil,
      Option.bind_eq_some_iff] at hlast
    obtain ⟨next, hnext, heq⟩ := hlast
    cases heq
    rw [List.mem_append, not_or] at hrewired
    have hrun : Run (withTransport settings origin transport) t' mid := Run.start.follow hearly
    have hbefore : KeepsUp (withTransport settings origin transport)
        settings.channelCapacity.nextPowerOfTwo id early :=
      fun first t s hfirst => hup first t s (hfirst.trans (List.prefix_append early [a]))
    -- Before the last action the reader still keeps up, and this is all that the step needs.
    exact (ih hbefore hearly hrewired.1).step (step_view hnext) hrewired.2
      (hrun.backend_sound hbackend hrewired.1) (hrun.isKeyspace hkeyspace hrewired.1)
      (hup early t' mid (List.prefix_append early [a]) hearly)

/-! ## What is handed over -/

theorem isQuiet_of_pipeline {q : Pipeline} {target : Target} {h : Hub}
    (hrest : q.advance? target h id = none) : h.transport.backend.isQuiet id = true := by
  unfold Pipeline.advance? at hrest
  split at hrest
  · cases hrest
  · split at hrest
    · assumption
    -- Whatever the transport answers, there is a step to take.
    · simp only [Hub.nextLive] at hrest
      split at hrest
      · cases hrest
      · cases hrest
      · cases hrest

/-- A driver that waits for its next event has a step to take as long as there is something for
it. -/
theorem isQuiet_of_rest {q : Pipeline} (hsub : s.subscriptions.get? id = some sub)
    (hstage : sub.stage = .streaming q) (hrest : s.advance? (.subscription id) = none) :
    s.hub.transport.backend.isQuiet id = true := by
  have hnone : sub.advance? s.hub id = none := by
    rw [advance?, advanceSubscription?, hsub, Option.bind_eq_bind, Option.bind_some,
      Option.bind_eq_bind, Option.bind_eq_none_iff] at hrest
    refine Option.eq_none_iff_forall_ne_some.2 fun next hnext => ?_
    cases hrest next hnext
  have hproceed : sub.proceed? s.hub id = none := by
    have hrunning : sub.isStopped = false := by rw [Subscription.isStopped, hstage]
    rw [Subscription.advance?, hrunning, if_neg (by decide)] at hnone
    split at hnone
    · cases hnone
    · exact hnone
  apply isQuiet_of_pipeline
  simp only [Subscription.proceed?, hstage] at hproceed
  split at hproceed
  · assumption
  · cases hproceed
  · cases hproceed
  · cases hproceed

/-- What a subscription to a pattern has handed over. -/
structure Conveys (t : List Mark) (s : Service) (id : ReaderId) (p : KeyPattern)
    (observeOnly : Bool) (stage : Stage) : Prop where
  unseeded : ∀ seeds, .seeded id seeds ∈ t → seeds = []
  came : given t id <+: matched t id p
  went : handed t id <+: eventsOf observeOnly (given t id)
  /-- An event is handed over before the next one is taken. -/
  inStep : ∀ q, stage = .streaming q →
    handed t id = eventsOf observeOnly (given t id)
  /-- A driver with nothing to do has handed over everything. -/
  all : ∀ q, stage = .streaming q → s.advance? (.subscription id) = none →
    handed t id = eventsOf observeOnly (matched t id p)

theorem conveys_of_listening (h : Listening limit id t s.view)
    (hsub : s.subscriptions.get? id = some sub) (htarget : sub.target = .pattern p observeOnly)
    (hrate : sub.rate = none) : Conveys t s id p observeOnly sub.stage := by
  have hstanding : s.view.standing id = some ⟨.pattern p observeOnly, none, sub.stage⟩ :=
    htarget ▸ hrate ▸ standing_of_get? hsub
  obtain ⟨hrelays, hunseeded⟩ := h.relays p observeOnly sub.stage hstanding
  have hinStep : ∀ q, sub.stage = .streaming q →
      Relaying limit t s.view.backend id p observeOnly q [] := by
    intro q hstage
    rwa [hstage] at hrelays
  have hrelayed := hrelays.relayed
  refine ⟨hunseeded, hrelayed.came, hrelayed.went, fun q hstage => ?_, fun q hstage hrest => ?_⟩
  · rw [← (hinStep q hstage).went, List.append_nil]
  · have hquiet := isQuiet_of_rest hsub hstage hrest
    rw [← (hinStep q hstage).gives.got_all hquiet, ← (hinStep q hstage).went, List.append_nil]

/-- A pattern is as good as its keys. -/
structure Agreement (start : Keyspace) (capacity : Nat) (id : ReaderId) (p : KeyPattern) :
    Prop where
  /-- A reader of the pattern that keeps up gets what is published on the keys it accepts. -/
  reader : ∀ before after : List Keyspace.Request,
    let t := start.serveAll (before ++ [Keyspace.Request.watch id p])
    t.Attends capacity.nextPowerOfTwo id after →
      t.Exact id after ((Keyspace.published after).filter fun w => p.accepts w.key)
  /-- On each of these keys it gets what a reader of the key gets that is registered at the same
  moment. -/
  onKey : ∀ (before opening after : List Keyspace.Request) id' keys key,
    id ≠ id' → key ∈ keys → p.accepts key = true →
    opening = [.watch id p, .subscribe id' keys] ∨ opening = [.subscribe id' keys, .watch id p] →
    let t := start.serveAll (before ++ opening)
    t.Attends capacity.nextPowerOfTwo id after → t.Attends capacity.nextPowerOfTwo id' after →
      t.ExactOn key id after ∧ t.ExactOn key id' after
  /-- A subscription to the pattern hands over what its reader gets. There is no rate control for
  patterns. -/
  subscription : ∀ settings origin transport actions t s sub observeOnly,
    settings.transport = .keyspace → settings.channelCapacity = capacity →
    transport.backend = .keyspace start →
    KeepsUp (withTransport settings origin transport) capacity.nextPowerOfTwo id actions →
    (withTransport settings origin transport).follow actions = some (t, s) → .rewired ∉ t →
    s.subscriptions.get? id = some sub → sub.target = .pattern p observeOnly → sub.rate = none →
      Conveys t s id p observeOnly sub.stage

theorem patterns_agree {slot capacity : Nat} {start : Keyspace}
    (h : Keyspace.create? slot capacity = some start) (id : ReaderId) (p : KeyPattern) :
    Agreement start capacity id p where
  reader before after := by
    intro t hattends
    obtain ⟨boxes, hbefore⟩ := (Keyspace.Keeps.create h).serveAll before
    have hserves : t.Serves capacity.nextPowerOfTwo id (fun w => p.accepts w.key) (fun _ => true)
        [] [] := by
      change (start.serveAll (before ++ [Keyspace.Request.watch id p])).Serves _ _ _ _ _ _
      rw [Keyspace.serveAll_append]
      exact hbefore.serves_watch id p
    exact hserves.exact hattends
  onKey before opening after id' keys key hid hkey haccepts hopening := by
    intro t hattends hattends'
    obtain ⟨boxes, hbefore⟩ := (Keyspace.Keeps.create h).serveAll before
    have ht : t = (start.serveAll before).serveAll opening := Keyspace.serveAll_append ..
    obtain ⟨hwatches, hlistens⟩ := hbefore.serves_both hid hkey hopening
    rw [ht] at hattends hattends' ⊢
    exact ⟨(hwatches.exact hattends).exactOn haccepts, hlistens.exactOn hattends'⟩
  subscription := by
    rintro settings origin transport actions t s sub observeOnly hkind rfl hstart hup hfollow
      hrewired hsub htarget hrate
    have hbackend : backendOf settings slot = .ok transport.backend := by
      unfold backendOf
      rw [hkind, h, hstart]
    have hkeyspace : transport.backend.isKeyspace = true := by
      rw [hstart]
      rfl
    have hlistening := listening_follow hbackend hkeyspace hup hfollow hrewired
    exact conveys_of_listening hlistening hsub htarget hrate

/-! ## A pattern for the shared key -/

def sharedPattern : KeyPattern :=
  ⟨some .csw, "rollback.share?", "CSW.rollback.share".toList.map .literal ++ [Glob.Token.anyChar]⟩

/-- An event that the pattern does not accept. -/
def lowerEvent (id : String) : Event :=
  .create .system lowerKey ⟨id⟩ .epoch

def observation (id : String) : Event :=
  .create .observe sharedKey ⟨id⟩ .epoch

/-- The reader of the pattern is behind by two events, only one of which is for it, while the reader
of keys has one event before it on each channel. -/
def sideBySide : List Keyspace.Request :=
  [.publish ⟨2, lowerEvent "b"⟩, .publish ⟨3, sharedEvent "c"⟩, .read 0, .read 1,
    .publish ⟨4, observation "d"⟩, .read 1, .read 0, .read 1, .read 0]

/-- A subscription to observations comes after the first event. -/
def lateObserver : List Action :=
  let publish (event : Event) : List Action :=
    [.publish (.own 0) event, .step (.publisher (.own 0)), .step (.publisher (.own 0))]
  let step : Action := .step (.subscription 0)
  publish (observation "a") ++
    [Action.subscribe 0 (.pattern sharedPattern true) none (.scriptedCallback []), step, step] ++
    publish (lowerEvent "b") ++ publish (sharedEvent "c") ++ [step] ++
    publish (observation "d") ++ [step]

def listeners : List Keyspace.Request :=
  [.watch 0 sharedPattern, .subscribe 1 [lowerKey, sharedKey]]

/-- A keyspace with readers that come after a first event. -/
def afterFirst (k : Keyspace) (readers : List Keyspace.Request) : Keyspace :=
  k.serveAll (.publish ⟨1, sharedEvent "a"⟩ :: readers)

theorem patterns_agree_shared : ∃ k t s, ∃ (sub : Subscription) (q : Pipeline),
    Keyspace.create? Keyspace.usualSlot 2 = some k ∧
    (afterFirst k [.watch 0 sharedPattern]).Exact 0 sideBySide
      [⟨3, sharedEvent "c"⟩, ⟨4, observation "d"⟩] ∧
    (afterFirst k listeners).ExactOn sharedKey 0 sideBySide ∧
    (afterFirst k listeners).ExactOn sharedKey 1 sideBySide ∧
    (narrowService k).follow lateObserver = some (t, s) ∧ sub.stage = .streaming q ∧
    Conveys t s 0 sharedPattern true sub.stage ∧ handed t 0 = [observation "d"] := by
  have hattend : (Keyspace.create? Keyspace.usualSlot 2).any (fun k =>
      decide ((afterFirst k [.watch 0 sharedPattern]).Attends (Nat.nextPowerOfTwo 2) 0 sideBySide ∧
        (afterFirst k listeners).Attends (Nat.nextPowerOfTwo 2) 0 sideBySide ∧
        (afterFirst k listeners).Attends (Nat.nextPowerOfTwo 2) 1 sideBySide) &&
      lateObserver.inits.all fun early => ((narrowService k).follow early).all fun last =>
        last.2.hub.transport.backend.keepsUp (Nat.nextPowerOfTwo 2) 0) = true := by
    decide +kernel
  have hrun : ((Keyspace.create? Keyspace.usualSlot 2).bind fun k =>
      (narrowService k).follow lateObserver).any (fun last =>
        (last.2.subscriptions.get? 0).any fun sub =>
        decide (sub.target = .pattern sharedPattern true ∧ sub.rate.isNone = true ∧
          sub.stage.isStreaming = true ∧ .rewired ∉ last.1 ∧
          handed last.1 0 = [observation "d"])) = true := by
    decide +kernel
  obtain ⟨⟨t, s⟩, hfollow, hgood⟩ := (Option.any_eq_true _ _).1 hrun
  obtain ⟨k, hcreate, hfollow⟩ := Option.bind_eq_some_iff.1 hfollow
  obtain ⟨sub, hsub, hgood⟩ := (Option.any_eq_true _ _).1 hgood
  rw [hcreate, Option.any_some, Bool.and_eq_true, decide_eq_true_eq] at hattend
  obtain ⟨⟨halone, htogether, htogether'⟩, hkept⟩ := hattend
  obtain ⟨htarget, hrate, hstage, hrewired, hhanded⟩ := of_decide_eq_true hgood
  obtain ⟨q, hstage⟩ := Stage.exists_of_isStreaming hstage
  have hagree := patterns_agree hcreate 0 sharedPattern
  obtain ⟨hreader, hbeside⟩ := hagree.onKey [_] listeners sideBySide 1 [lowerKey, sharedKey]
    sharedKey (by decide) (by decide) (by decide +kernel) (.inl rfl) htogether htogether'
  refine ⟨k, t, s, sub, q, hcreate, ?_, hreader, hbeside, hfollow, hstage, ?_, hhanded⟩
  · exact hagree.reader [_] sideBySide halone
  · exact hagree.subscription narrow .epoch (.ofBackend (.keyspace k)) lateObserver t s sub true
      rfl rfl rfl (keepsUp_of_inits hkept) hfollow hrewired hsub htarget
      (Option.isNone_iff_eq_none.1 hrate)

end Service

end Observatory
