import Observatory.Proofs.Service.Isolation
import Observatory.Proofs.Service.Visible
import Observatory.Proofs.Subscription.Pacing

/-!
# Seeds under rate control

As long as nothing is published, a rate-controlled subscription to keys hands over the seed of its
greatest key on every tick in adaptive mode, and on the first tick in limiter mode. The seeds of all
other keys are never handed over, however many ticks there are.
-/

namespace Observatory

variable {id : ReaderId}

/-! ## What is observed -/

/-- What is observed of a run: its marks, and the ticks that subscriptions service. -/
inductive Beat where
  | mark (m : Mark)
  | tick (id : ReaderId)
  deriving DecidableEq

/-- The marks among what was observed. -/
def marksOf (t : List Beat) : List Mark :=
  t.filterMap fun
    | .mark m => some m
    | .tick _ => none

/-- How many ticks a subscription has serviced. -/
def ticksOf (t : List Beat) (id : ReaderId) : Nat :=
  t.count (.tick id)

namespace Service

/-- The tick that an action services, if it services one. -/
def tick? (s : Service) : Action → Option ReaderId
  | .step (.subscription id) =>
    ((s.subscriptions.get? id).filter fun sub => sub.isTick s.hub id).map fun _ => id
  | _ => none

/-- What is observed of an action. -/
def beats (s : Service) (a : Action) : List Beat :=
  (s.tick? a).toList.map .tick ++ (s.marks a).map .mark

end Service

theorem marksOf_append (t t' : List Beat) : marksOf (t ++ t') = marksOf t ++ marksOf t' :=
  List.filterMap_append

theorem ticksOf_append (t t' : List Beat) (id : ReaderId) :
    ticksOf (t ++ t') id = ticksOf t id + ticksOf t' id :=
  List.count_append

theorem marksOf_beats (s : Service) (a : Action) : marksOf (s.beats a) = s.marks a := by
  have hticks : ∀ ticks : List ReaderId, marksOf (ticks.map .tick) = [] := by
    intro ticks
    rw [marksOf, List.filterMap_map, List.filterMap_eq_nil_iff]
    exact fun _ _ => rfl
  rw [Service.beats, marksOf_append, hticks, List.nil_append, marksOf, List.filterMap_map]
  exact List.filterMap_some

theorem ticksOf_beats (s : Service) (a : Action) (id : ReaderId) :
    ticksOf (s.beats a) id = if s.tick? a = some id then 1 else 0 := by
  have hmarks : ∀ marks : List Mark, ticksOf (marks.map .mark) id = 0 := by
    intro marks
    rw [ticksOf, List.count_eq_zero]
    simp
  rw [Service.beats, ticksOf_append, hmarks, Nat.add_zero]
  cases s.tick? a with
  | none => rfl
  | some id' =>
    by_cases hid : id' = id
    · simp [ticksOf, hid]
    · simp [ticksOf, hid]

theorem Service.ticksOf_own {s : Service} {sub : Subscription}
    (hsub : s.subscriptions.get? id = some sub) :
    ticksOf (s.beats (.step (.subscription id))) id = (sub.isTick s.hub id).toNat := by
  rw [ticksOf_beats, tick?, hsub, Option.filter_some]
  cases sub.isTick s.hub id with
  | true => simp
  | false => simp

theorem Service.ticksOf_other {s : Service} {a : Action} (hother : a ≠ .step (.subscription id)) :
    ticksOf (s.beats a) id = 0 := by
  rw [ticksOf_beats, if_neg]
  intro htick
  unfold tick? at htick
  split at htick
  · obtain ⟨sub, -, hid⟩ := Option.map_eq_some_iff.1 htick
    exact hother (hid ▸ rfl)
  · cases htick

theorem since_initial (id : ReaderId) (t t' : List Mark) : since id t <+: since id (t ++ t') := by
  induction t with
  | nil => exact List.nil_prefix
  | cons m t ih =>
    rw [List.cons_append]
    unfold since
    split
    · exact List.prefix_append t t'
    · exact ih

/-! ## The backend along a run -/

/-- What holds of a backend whatever readers do with it. -/
structure Backend.Stable (P : Backend → Prop) : Prop where
  register : ∀ {b c : Backend} {target : Target} {id : ReaderId}, P b →
    target.register id b = .ok c → P c
  next : ∀ {b : Backend} (id : ReaderId), P b → P (b.next id).backend
  drop : ∀ {b : Backend} (id : ReaderId), P b → P (b.drop id)
  shutdown : ∀ {b : Backend}, P b → P b.shutdown

theorem Backend.stable_sound (limit : Nat) : Stable (Sound limit) :=
  ⟨fun h hregister => h.register hregister, fun id h => h.next id, fun id h => h.drop id,
    fun h => h.shutdown⟩

theorem Backend.stable_idle (id : ReaderId) : Stable (Idle id) :=
  ⟨fun h hregister => h.register hregister, fun id h => h.next id, fun id h => h.drop id,
    fun h => h.shutdown⟩

namespace View.Step

variable {v v' : View} {marks : List Mark} {P : Backend → Prop}

/-- Only publishing may change what readers leave as it is. -/
theorem stable (hstep : Step v marks v') (hP : Backend.Stable P) (h : P v.backend)
    (hrewired : .rewired ∉ marks)
    (hpublish : ∀ w c, .accepted w ∈ marks → v.backend.publish w = .ok c → P c) :
    P v'.backend := by
  cases hstep with
  | read | clear | offer | refuse | crash | subscribe | activate | deposit | endCall => exact h
  | accept id flight backend hflight hok => exact hpublish _ _ List.mem_cons_self hok
  | rewire => exact absurd List.mem_cons_self hrewired
  | shutdown => exact hP.shutdown h
  | register id target rate due backend hstanding hregister => exact hP.register h hregister
  | flow id target rate p next came went stage between after hstanding hin hout =>
    have hbetween : P between := by
      cases hin with
      | seed | tick => exact h
      | live | pending | ended => exact hP.next id h
    cases hout with
    | onward | wait | call | begin => exact hbetween
    | crash | ended => exact hP.drop id hbetween
  | stop id target rate stage backend hstanding hbackend =>
    rcases hbackend with rfl | rfl
    · exact h
    · exact hP.drop id h

theorem keeps_sound {limit : Nat} (hstep : Step v marks v') (h : v.backend.Sound limit)
    (hrewired : .rewired ∉ marks) : v'.backend.Sound limit :=
  hstep.stable (Backend.stable_sound limit) h hrewired fun _ _ _ hok => h.publish hok

theorem keeps_idle (hstep : Step v marks v') (h : v.backend.Idle id) (hrewired : .rewired ∉ marks)
    (hquiet : ∀ w, .accepted w ∉ marks) : v'.backend.Idle id :=
  hstep.stable (Backend.stable_idle id) h hrewired fun w _ haccepted _ =>
    absurd haccepted (hquiet w)

theorem idle_start {limit : Nat} (hstep : Step v marks v') (h : v.backend.Sound limit)
    (hregistered : .registered id ∈ marks) : v'.backend.Idle id := by
  cases hstep with
  | register id' target rate due backend hstanding hregister =>
    cases List.mem_singleton.1 hregistered
    exact .start h hregister
  | read marks hreads =>
    obtain ⟨key, heq⟩ := hreads _ hregistered
    cases heq
  | flow id' target rate p next came went stage between after hstanding hin hout =>
    rcases List.mem_append.1 hregistered with hcame | hwent
    · obtain ⟨w, heq⟩ := hin.came hcame
      cases heq
    · obtain ⟨e, q, -, heq⟩ := hout.went hwent
      cases heq
  | _ => simp at hregistered

/-- A step of a view leaves a subscription with its target and its rate. -/
theorem exists_standing (hstep : Step v marks v') {target : Target} {rate : Option RateControl}
    {stage : Stage} (h : v.standing id = some ⟨target, rate, stage⟩) :
    ∃ stage', v'.standing id = some ⟨target, rate, stage'⟩ := by
  -- Whoever takes a step has the target and the rate that it had.
  have hplace : ∀ {w : View} {id' : ReaderId} {target' : Target} {rate' : Option RateControl}
      {old : Stage} (new : Stage), w.standing = v.standing →
      v.standing id' = some ⟨target', rate', old⟩ →
      ∃ stage', (w.setStanding id' ⟨target', rate', new⟩).standing id =
        some ⟨target, rate, stage'⟩ := by
    intro w id' target' rate' old new hsame hold
    rw [standing_setStanding, hsame]
    split
    next hid =>
      rw [hid, hold] at h
      cases h
      exact ⟨new, rfl⟩
    next => exact ⟨stage, h⟩
  cases hstep with
  | subscribe id' target' rate' hfree =>
    refine ⟨stage, ?_⟩
    rw [standing_setStanding, if_neg, h]
    rintro rfl
    rw [hfree] at h
    cases h
  | register id' target' rate' due backend hstanding => exact hplace _ rfl hstanding
  | activate id' target' rate' due now hstanding => exact hplace _ rfl hstanding
  | flow id' target' rate' p next came went new between after hstanding =>
    exact hplace _ rfl hstanding
  | deposit id' target' rate' p e hstanding => exact hplace _ rfl hstanding
  | endCall id' target' rate' p e due ending new hstanding => exact hplace _ rfl hstanding
  | stop id' target' rate' old backend hstanding => exact hplace _ rfl hstanding
  | _ => exact ⟨stage, h⟩

end View.Step

namespace Service

variable {s s' : Service} {a : Action}

theorem standing_of_subscriptions (h : s'.subscriptions = s.subscriptions) :
    s'.view.standing = s.view.standing := by
  simp only [view, h]

/-- Only a subscription's own driver takes it to another stage. -/
theorem standing_of_other (h : s.perform? a = some s') (hother : a ≠ .step (.subscription id)) :
    s'.view.standing id = s.view.standing id ∨
      s.view.standing id = none ∧
        ∃ target rate, s'.view.standing id = some ⟨target, rate, .spawned⟩ := by
  have hview : s'.view = s.view → s'.view.standing id = s.view.standing id :=
    fun heq => congrFun (congrArg View.standing heq) id
  have htable : s'.subscriptions = s.subscriptions → s'.view.standing id = s.view.standing id :=
    fun heq => congrFun (standing_of_subscriptions heq) id
  cases a with
  | subscribe id' target rate consumer =>
    simp only [perform?] at h
    split at h
    next => cases h
    next hfree =>
      cases h
      have hinsert := congrFun (standing_insert s id' (.start target rate consumer)) id
      by_cases hid : id = id'
      · subst hid
        -- The name was free, so the subscription is new and stands at its beginning.
        rw [Table.contains, Bool.not_eq_true, Option.isSome_eq_false_iff,
          Option.isNone_iff_eq_none] at hfree
        refine .inr ⟨by simp only [view, hfree, Option.map_none], target, rate, ?_⟩
        exact hinsert.trans (Function.update_self ..)
      · exact .inl (hinsert.trans (Function.update_of_ne hid ..))
  | raiseCancel id' =>
    cases h
    exact .inl (hview (view_modifySubscription fun _ => rfl))
  | endUnsubscribe id' =>
    cases h
    exact .inl (hview (view_modifySubscription standing_unsubscribed))
  | dropConsumer id' =>
    cases h
    exact .inl (hview (view_modifySubscription standing_dropConsumer))
  | take id' =>
    cases h
    exact .inl (hview (view_modifySubscription standing_take))
  | takeCalls id' limit =>
    cases h
    exact .inl (hview (view_modifySubscription fun sub => standing_takeCalls sub limit))
  | shutdown =>
    cases h
    exact .inl (htable (subscriptions_shutdown s))
  | closePublisher id' =>
    cases h
    exact .inl (htable (subscriptions_closePublisher s id'))
  | startPeriodic name publisher schedule generate reports =>
    obtain ⟨tasks, rfl⟩ := exists_of_startPeriodic h
    exact .inl (htable rfl)
  | startStream name publisher item reports =>
    obtain ⟨tasks, rfl⟩ := exists_of_startStream h
    exact .inl (htable rfl)
  | step actor =>
    cases actor with
    | subscription id' =>
      obtain ⟨sub, sub', hub, -, -, rfl⟩ := exists_of_advanceSubscription h
      have hid : id ≠ id' := by
        rintro rfl
        exact hother rfl
      exact .inl ((congrFun (standing_insert s id' sub') id).trans (Function.update_of_ne hid ..))
    | publisher id' =>
      obtain ⟨p, p', hub, -, -, rfl⟩ := exists_of_advancePublisher h
      exact .inl (htable rfl)
    | task name =>
      obtain ⟨entry, task, p, -, -, rfl⟩ := exists_of_advanceTask h
      exact .inl (htable rfl)
  | publish _ _ | usePublisher _ | cancelTask _ | takeFailures _ | get _ | getAll _ | clearStore
  | script _ | rewire _ | wait _ =>
    cases h
    exact .inl (htable rfl)

/-! ## Runs -/

theorem sound_backendOf {settings : Settings} {slot : Nat} {backend : Backend}
    (h : backendOf settings slot = .ok backend) :
    backend.Sound settings.channelCapacity.nextPowerOfTwo := by
  unfold backendOf at h
  split at h
  · cases h
    exact .log _
  · split at h
    next t ht =>
      cases h
      exact .keyspace (.create ht)
    next => cases h

variable {settings : Settings} {slot : Nat} {origin : UtcTime} {transport : Transport}
  {start : Service} {t : List Mark} {beaten : List Beat}

theorem Run.backend_sound (run : Run (withTransport settings origin transport) t s)
    (hbackend : backendOf settings slot = .ok transport.backend) (hrewired : .rewired ∉ t) :
    s.view.backend.Sound settings.channelCapacity.nextPowerOfTwo := by
  induction run with
  | start => exact sound_backendOf hbackend
  | step run h ih =>
    simp only [List.mem_append, not_or] at hrewired
    exact (step_view h).keeps_sound (ih hrewired.1) hrewired.2

/-- As long as nothing is published, there is nothing for a subscription that was registered. -/
theorem Run.backend_idle (run : Run (withTransport settings origin transport) t s)
    (hbackend : backendOf settings slot = .ok transport.backend) (hrewired : .rewired ∉ t)
    (hquiet : ∀ w, .accepted w ∉ since id t) (hregistered : .registered id ∈ t) :
    s.view.backend.Idle id := by
  induction run with
  | start => cases hregistered
  | @step t s s' a run h ih =>
    simp only [List.mem_append, not_or] at hrewired
    -- What was published before the registration does not matter, so idleness begins with it.
    by_cases hbefore : .registered id ∈ t
    · rw [since_append hbefore] at hquiet
      simp only [List.mem_append, not_or] at hquiet
      have hidle := ih hrewired.1 (fun w => (hquiet w).1) hbefore
      exact (step_view h).keeps_idle hidle hrewired.2 fun w => (hquiet w).2
    · rcases List.mem_append.1 hregistered with hold | hnew
      · exact absurd hold hbefore
      · exact (step_view h).idle_start (run.backend_sound hbackend hrewired.1) hnew

theorem Run.key_read (run : Run (withTransport settings origin transport) t s) (key : EventKey) :
    (s.hub.store.read key).key = key := by
  rcases run.stored.readable key with hinvalid | ⟨hkey, -⟩
  · change (s.view.store.read key).key = key
    rw [hinvalid]
    rfl
  · exact hkey

theorem Trail.run (trail : Trail beats start beaten s) : Run start (marksOf beaten) s := by
  induction trail with
  | start => exact .start
  | step _ h ih =>
    rw [marksOf_append, marksOf_beats]
    exact ih.step h

/-- How far all rate-controlled subscriptions to keys have come. -/
structure Metered (id : ReaderId) (beaten : List Beat) (v : View) : Prop where
  absent : v.standing id = none → handed (marksOf beaten) id = [] ∧ ticksOf beaten id = 0
  paced : ∀ keys rate stage, keys ≠ [] → v.standing id = some ⟨.keys keys, some rate, stage⟩ →
    Paced rate keys id (marksOf beaten) (ticksOf beaten id) stage

/-- Marks are about the subscription whose driver takes the step. -/
theorem handed_of_other (hother : a ≠ .step (.subscription id)) : handed (s.marks a) id = [] := by
  refine handed_of_reader fun m hm heq => ?_
  have hreader : a.reader? = some id := (reader?_marks hm).symm.trans heq
  cases a with
  | step actor =>
    cases actor with
    | subscription id' =>
      cases hreader
      exact hother rfl
    | publisher id' => cases hreader
    | task name => cases hreader
  | subscribe | raiseCancel | endUnsubscribe | dropConsumer | take | takeCalls => cases hm
  | _ => cases hreader

theorem Metered.other (hmetered : Metered id beaten s.view) (h : s.perform? a = some s')
    (hother : a ≠ .step (.subscription id)) : Metered id (beaten ++ s.beats a) s'.view := by
  have hmarks : marksOf (beaten ++ s.beats a) = marksOf beaten ++ s.marks a := by
    rw [marksOf_append, marksOf_beats]
  have hnone : handed (s.marks a) id = [] := handed_of_other hother
  have hticks : ticksOf (beaten ++ s.beats a) id = ticksOf beaten id := by
    rw [ticksOf_append, ticksOf_other hother, Nat.add_zero]
  constructor
  · intro habsent
    rw [hmarks, handed_append, hnone, List.append_nil, hticks]
    rcases standing_of_other h hother with hsame | ⟨-, target, rate, hspawned⟩
    · exact hmetered.absent (hsame ▸ habsent)
    · rw [habsent] at hspawned
      cases hspawned
  · intro keys rate stage hkeys hstanding
    rw [hmarks, hticks]
    rcases standing_of_other h hother with hsame | ⟨habsent, target, rate', hspawned⟩
    · exact (hmetered.paced keys rate stage hkeys (hsame ▸ hstanding)).frame hnone
    · rw [hstanding] at hspawned
      cases hspawned
      obtain ⟨hhanded, hzero⟩ := hmetered.absent habsent
      exact (Paced.spawned hhanded hzero).frame hnone

theorem Metered.own (hmetered : Metered id beaten s.view)
    (h : s.perform? (.step (.subscription id)) = some s')
    (hidle : .registered id ∈ marksOf beaten → s.view.backend.Idle id)
    (hstore : ∀ key, (s.hub.store.read key).key = key) :
    Metered id (beaten ++ s.beats (.step (.subscription id))) s'.view := by
  have hstep := step_view h
  obtain ⟨sub, sub', hub, hsub, hadvance, rfl⟩ := exists_of_advanceSubscription h
  have hbefore : s.view.standing id = some ⟨sub.target, sub.rate, sub.stage⟩ :=
    standing_of_get? hsub
  obtain ⟨stage', hafter⟩ := hstep.exists_standing hbefore
  have hmarks : s.marks (.step (.subscription id)) = sub.marks s.hub id := by
    rw [marks, hsub, Option.elim_some]
  constructor
  · intro habsent
    rw [hafter] at habsent
    cases habsent
  · intro keys rate stage hkeys hstanding
    have hsub' : some sub'.standing = some ⟨.keys keys, some rate, stage⟩ := by
      rw [← hstanding]
      exact ((congrFun (standing_insert s id sub') id).trans (Function.update_self ..)).symm
    have htarget : sub.target = .keys keys := by
      rw [hafter] at hstanding
      exact congrArg Standing.target (Option.some.inj hstanding)
    have hrate : sub.rate = some rate := by
      rw [hafter] at hstanding
      exact congrArg Standing.rate (Option.some.inj hstanding)
    have hstage : sub'.stage = stage := congrArg Standing.stage (Option.some.inj hsub')
    have hpaced := hmetered.paced keys rate sub.stage hkeys (htarget ▸ hrate ▸ hbefore)
    rw [marksOf_append, marksOf_beats, hmarks, ticksOf_append, ticksOf_own hsub, ← hstage]
    exact hpaced.advance hkeys htarget hrate hidle hstore hadvance

theorem Trail.metered (trail : Trail beats (withTransport settings origin transport) beaten s)
    (hbackend : backendOf settings slot = .ok transport.backend)
    (hrewired : .rewired ∉ marksOf beaten)
    (hquiet : ∀ w, .accepted w ∉ since id (marksOf beaten)) : Metered id beaten s.view := by
  induction trail with
  | start => exact ⟨fun _ => ⟨rfl, rfl⟩, fun keys rate stage _ hstanding => nomatch hstanding⟩
  | @step beaten s s' a trail h ih =>
    rw [marksOf_append] at hrewired hquiet
    have hbefore : .rewired ∉ marksOf beaten := fun hmem => hrewired (List.mem_append_left _ hmem)
    have hstill : ∀ w, .accepted w ∉ since id (marksOf beaten) :=
      fun w hmem => hquiet w ((since_initial id _ _).subset hmem)
    by_cases hown : a = .step (.subscription id)
    · subst hown
      exact (ih hbefore hstill).own h (trail.run.backend_idle hbackend hbefore hstill)
        trail.run.key_read
    · exact (ih hbefore hstill).other h hown

/-! ## What is handed over -/

theorem mem_emissions {mode : Mode} {n : Nat} {e x : Event} (hn : 0 < n) :
    x ∈ emissions mode n e ↔ x = e := by
  obtain ⟨n, rfl⟩ := Nat.exists_eq_add_one_of_ne_zero (Nat.ne_of_gt hn)
  cases mode with
  | adaptive => simp [emissions]
  | limiter => simp [emissions]

/-- All seeds are the last one only where there is one key. -/
theorem forall_eq_last_iff {seeds : List Stamped} {last : Stamped}
    (hnodup : (seeds.map Stamped.key).Nodup) (hlast : seeds.getLast? = some last) :
    (∀ seed ∈ seeds, seed.event = last.event) ↔ seeds.length = 1 := by
  obtain ⟨others, rfl⟩ := List.getLast?_eq_some_iff.1 hlast
  constructor
  · intro hall
    cases others with
    | nil => rfl
    | cons first others =>
      have hevent : first.event = last.event := hall first List.mem_cons_self
      have hkey : first.key = last.key := congrArg Event.key hevent
      have hfirst := (List.nodup_cons.1 hnodup).1
      refine absurd (List.mem_map.2 ⟨last, ?_, hkey.symm⟩) hfirst
      exact List.mem_append_right _ List.mem_cons_self
  · intro hone seed hseed
    obtain rfl : others = [] := by simpa using hone
    rw [List.mem_singleton.1 hseed]

/-- What a rate-controlled subscription to keys hands over of its seeds `seeds` in `n` ticks. -/
structure Conflates (t : List Mark) (id : ReaderId) (keys : List EventKey) (rate : RateControl)
    (n : Nat) (stage : Stage) (seeds : List Stamped) (last : Stamped) : Prop where
  seeded : .seeded id seeds ∈ t
  sorted : seeds.map Stamped.key = EventKey.sortDistinct keys
  greatest : seeds.getLast? = some last
  nothingElse : handed t id <+: emissions rate.mode n last.event
  /-- The consumer keeps up where the driver does not wait for it. -/
  keptUp : ∀ p, stage = .streaming p → handed t id = emissions rate.mode n last.event
  survive : ∀ p, stage = .streaming p → 0 < n →
    ((∀ seed ∈ seeds, seed.event ∈ handed t id) ↔ (EventKey.sortDistinct keys).length = 1)

/-- As long as nothing is published, a rate-controlled subscription hands over the seed of its
greatest key on its ticks, and nothing else. So every seed is handed over just if there is one
key. -/
theorem Trail.conflates {keys : List EventKey} {rate : RateControl} {sub : Subscription}
    (trail : Trail beats (withTransport settings origin transport) beaten s)
    (hbackend : backendOf settings slot = .ok transport.backend)
    (hrewired : .rewired ∉ marksOf beaten)
    (hquiet : ∀ w, .accepted w ∉ since id (marksOf beaten))
    (hsub : s.subscriptions.get? id = some sub) (htarget : sub.target = .keys keys)
    (hkeys : keys ≠ []) (hrate : sub.rate = some rate) :
    (handed (marksOf beaten) id = [] ∧ ticksOf beaten id = 0) ∨ ∃ seeds last,
      Conflates (marksOf beaten) id keys rate (ticksOf beaten id) sub.stage seeds last := by
  have hstanding : s.view.standing id = some ⟨.keys keys, some rate, sub.stage⟩ :=
    htarget ▸ hrate ▸ standing_of_get? hsub
  have hpaced := (trail.metered hbackend hrewired hquiet).paced keys rate sub.stage hkeys hstanding
  generalize sub.stage = stage at hpaced
  cases hpaced with
  | spawned hdone hticks => exact .inl ⟨hdone, hticks⟩
  | registering _ hdone hticks => exact .inl ⟨hdone, hticks⟩
  | unseeded hdone hticks => exact .inl ⟨hdone, hticks⟩
  | @seeded stage seeds last hregistered hseeded hsorted hlast hbeat =>
    have hkeptUp : ∀ p, stage = .streaming p →
        handed (marksOf beaten) id = emissions rate.mode (ticksOf beaten id) last.event := by
      rintro p rfl
      cases hbeat with | streaming _ hdone => exact hdone
    refine .inr ⟨seeds, last, hseeded, hsorted, hlast, hbeat.done_initial, hkeptUp, ?_⟩
    intro p hstage hticks
    have hnodup : (seeds.map Stamped.key).Nodup := hsorted ▸ EventKey.nodup_sortDistinct keys
    have hlength : (EventKey.sortDistinct keys).length = seeds.length := by
      rw [← hsorted, List.length_map]
    rw [hkeptUp p hstage, hlength, ← forall_eq_last_iff hnodup hlast]
    exact forall₂_congr fun seed _ => mem_emissions hticks

end Service

/-! ## Two keys -/

deriving instance DecidableEq for Target

/-- Whether the driver waits for its next event. -/
def Stage.isStreaming (stage : Stage) : Bool :=
  match stage with
  | .streaming _ => true
  | .spawned | .registering _ | .handing .. | .stopped => false

theorem Stage.exists_of_isStreaming {stage : Stage} (h : stage.isStreaming = true) :
    ∃ p, stage = .streaming p := by
  cases stage with
  | streaming p => exact ⟨p, rfl⟩
  | _ => cases h

namespace Service

/-- A key below the shared one. -/
def lowerKey : EventKey := ⟨⟨.csw, "rollback"⟩, ⟨"other"⟩⟩

/-- A subscription to two keys, and two ticks of it. -/
def twoTicks (mode : Mode) : List Action :=
  let step : Action := .step (.subscription 0)
  [.subscribe 0 (.keys [lowerKey, sharedKey]) (some ⟨100, mode, by decide⟩) (.scriptedCallback []),
    step, step, step, step, step, step, .wait 100, step]

/-- What is seen of it. -/
def twoTicksMarks (mode : Mode) : List Mark :=
  [.registered 0, .seeded 0 [.invalid lowerKey, .invalid sharedKey]] ++
    (emissions mode 2 (.invalid sharedKey)).map (.handed 0)

/-- The transport is open, the consumer of the subscription has kept up, and there have been two
ticks. -/
structure TwoTicks (mode : Mode) (t : List Beat) (s : Service) (sub : Subscription)
    (rate : RateControl) (p : Pipeline) : Prop where
  trail : Trail beats logService t s
  found : s.subscriptions.get? 0 = some sub
  target : sub.target = .keys [lowerKey, sharedKey]
  paced : sub.rate = some rate
  filled : rate.mode = mode
  stage : sub.stage = .streaming p
  quiet : s.hub.transport.backend.isQuiet 0 = true
  ticks : ticksOf t 0 = 2
  marks : marksOf t = twoTicksMarks mode

theorem exists_twoTicks (mode : Mode) : ∃ t s sub rate p, TwoTicks mode t s sub rate p := by
  have hrun : (logService.observed beats (twoTicks mode)).any (fun last =>
      (last.2.subscriptions.get? 0).any fun sub => sub.rate.any fun rate =>
        decide (sub.target = .keys [lowerKey, sharedKey] ∧ rate.mode = mode ∧
          sub.stage.isStreaming = true ∧ last.2.hub.transport.backend.isQuiet 0 = true ∧
          ticksOf last.1 0 = 2 ∧ marksOf last.1 = twoTicksMarks mode)) = true := by
    cases mode with
    | adaptive => decide +kernel
    | limiter => decide +kernel
  obtain ⟨⟨t, s⟩, hobserved, hgood⟩ := (Option.any_eq_true _ _).1 hrun
  obtain ⟨sub, hsub, hgood⟩ := (Option.any_eq_true _ _).1 hgood
  obtain ⟨rate, hrate, hgood⟩ := (Option.any_eq_true _ _).1 hgood
  obtain ⟨htarget, hmode, hstage, hquiet, hticks, hmarks⟩ := of_decide_eq_true hgood
  obtain ⟨p, hstage⟩ := Stage.exists_of_isStreaming hstage
  exact ⟨t, s, sub, rate, p, Trail.start.observed hobserved, hsub, htarget, hrate, hmode, hstage,
    hquiet, hticks, hmarks⟩

theorem conflates_twoTicks : ∃ t s sub rate p seeds last, TwoTicks .limiter t s sub rate p ∧
    Conflates (marksOf t) 0 [lowerKey, sharedKey] rate 2 sub.stage seeds last := by
  obtain ⟨t, s, sub, rate, p, htwo⟩ := exists_twoTicks .limiter
  have hrewired : .rewired ∉ marksOf t := by
    rw [htwo.marks]
    decide
  have hquiet : ∀ w, .accepted w ∉ since 0 (marksOf t) := by
    rw [htwo.marks]
    simp [since, twoTicksMarks, emissions]
  rcases htwo.trail.conflates backendOf_logBacked hrewired hquiet htwo.found htwo.target (by simp)
      htwo.paced with
    ⟨-, hticks⟩ | ⟨seeds, last, hconflates⟩
  · rw [htwo.ticks] at hticks
    cases hticks
  · exact ⟨t, s, sub, rate, p, seeds, last, htwo, htwo.ticks ▸ hconflates⟩

/-- The seed of the lower key is not handed over in two ticks, though nothing is published, the
transport is open and the consumer keeps up. -/
theorem not_all_survive : ¬ ∀ (t : List Beat) (s : Service) (sub : Subscription)
    (keys : List EventKey) (rate : RateControl) (p : Pipeline) (seeds : List Stamped),
    Trail beats logService t s → s.subscriptions.get? 0 = some sub → sub.target = .keys keys →
      keys ≠ [] → sub.rate = some rate → (∀ w, .written w ∉ marksOf t) →
      s.hub.transport.backend.isQuiet 0 = true → sub.stage = .streaming p →
      (EventKey.sortDistinct keys).length ≤ ticksOf t 0 → .seeded 0 seeds ∈ marksOf t →
      ∀ seed ∈ seeds, seed.event ∈ handed (marksOf t) 0 := by
  intro hall
  obtain ⟨t, s, sub, rate, p, htwo⟩ := exists_twoTicks .adaptive
  have hwritten : ∀ w, .written w ∉ marksOf t := by
    rw [htwo.marks]
    simp [twoTicksMarks]
  have hseeded : .seeded 0 [.invalid lowerKey, .invalid sharedKey] ∈ marksOf t := by
    rw [htwo.marks]
    decide
  have hticks : (EventKey.sortDistinct [lowerKey, sharedKey]).length ≤ ticksOf t 0 := by
    rw [htwo.ticks]
    decide
  have hlower := hall t s sub [lowerKey, sharedKey] rate p _ htwo.trail htwo.found htwo.target
    (by simp) htwo.paced hwritten htwo.quiet htwo.stage hticks hseeded (.invalid lowerKey)
    List.mem_cons_self
  rw [htwo.marks] at hlower
  revert hlower
  decide

end Service

end Observatory
