import Observatory.Proofs.Publisher.Journal
import Observatory.Proofs.Service.Seeding
import Observatory.Proofs.Service.Trail

/-!
# The gauge of running subscriptions

A subscription is counted as active from the first step of its driver on until the driver comes to
its end, and whatever brings the end about takes it back out of the count: a refusal, the end of the
transport's events, a consumer that is gone, a cancellation, or a consumer that takes its driver
down with it. A driver that is told to stop before its first step is never counted.
-/

namespace Observatory

/-- How far a driver has come, as far as the gauge goes. -/
inductive Phase where
  /-- It has not begun. -/
  | ahead
  | running
  /-- It has come to its end, or will never begin. -/
  | past
  deriving DecidableEq

/-- What is seen of the drivers of subscriptions. -/
inductive Pulse where
  /-- The driver took its first step. -/
  | began (id : ReaderId)
  /-- The driver, once begun, came to its end. -/
  | ended (id : ReaderId)
  deriving DecidableEq

def Stage.phase : Stage → Phase
  | .spawned => .ahead
  | .registering _ | .streaming _ | .handing _ _ _ => .running
  | .stopped => .past

namespace Subscription

variable {s s' : Subscription} {h h' : Hub} {id : ReaderId} {p : Pipeline} {e : Event}

/-- What is seen of the next step of a driver. One that is told to stop before it begins comes to no
end. -/
def pulses (s : Subscription) (h : Hub) (id : ReaderId) : List Pulse :=
  let ending := if (s.advance? h id).any fun next => next.1.isStopped then [.ended id] else []
  match s.stage with
  | .spawned => if s.cancelRaised then [] else .began id :: ending
  | _ => ending

/-! ## Drivers -/

/-- What a driver that has begun comes to by a step, with the hub. -/
def Goes (h : Hub) (next : Subscription × Hub) : Prop :=
  next.1.stage.phase = .running ∧ next.2.metrics.active = h.metrics.active ∨
    next.1.stage.phase = .past ∧ next.2.metrics.active = h.metrics.active - 1

theorem goes_onward {hub : Hub} (hphase : s.stage.phase = .running)
    (hactive : hub.metrics.active = h.metrics.active) : Goes h (s, hub) :=
  .inl ⟨hphase, hactive⟩

theorem goes_finish {hub : Hub} (s : Subscription) (hactive : hub.metrics.active = h.metrics.active)
    (id : ReaderId) : Goes h (s.finish hub id) :=
  .inr ⟨rfl, congrArg (· - 1) hactive⟩

theorem goes_register (s : Subscription) (h : Hub) (id : ReaderId) :
    Goes h.subscriptionOpened (s.register h id) := by
  unfold register
  dsimp only
  split
  · exact goes_finish s rfl id
  · exact goes_finish _ rfl id
  · split
    · exact goes_finish _ rfl id
    · exact goes_onward rfl rfl

theorem goes_handOver {hub : Hub} (s : Subscription)
    (hactive : hub.metrics.active = h.metrics.active) (id : ReaderId) (p : Pipeline) (e : Event) :
    Goes h (s.handOver hub id p e) := by
  unfold handOver
  split
  · exact goes_onward rfl hactive
  · exact goes_onward rfl hactive
  · exact goes_onward rfl hactive
  · dsimp only
    split
    · exact goes_finish _ hactive id
    · exact goes_onward rfl hactive

theorem goes_deposit {next : Subscription × Hub} (hstep : s.deposit? h id p e = some next) :
    Goes h next := by
  unfold deposit? at hstep
  split at hstep
  · cases hstep
  · split at hstep
    · cases hstep
      exact goes_finish s rfl id
    · split at hstep
      · cases hstep
        exact goes_onward rfl rfl
      · cases hstep

theorem goes_endCall (s : Subscription) (h : Hub) (p : Pipeline) (e : Event) (ending : CallEnd) :
    Goes h (s.endCall h p e ending) := by
  unfold endCall
  dsimp only
  split
  · exact goes_onward rfl rfl
  · exact goes_onward rfl rfl
  · exact goes_onward rfl rfl

end Subscription

theorem Pipeline.active_advance {p : Pipeline} {target : Target} {h h' : Hub} {reader : ReaderId}
    {step : Pipeline.Step} (hstep : p.advance? target h reader = some (step, h')) :
    h'.metrics.active = h.metrics.active := by
  unfold Pipeline.advance? at hstep
  split at hstep
  · cases hstep
    rfl
  · split at hstep
    · obtain ⟨_, _, heq⟩ := Option.map_eq_some_iff.1 hstep
      cases heq
      rfl
    · have hlive : (h.nextLive reader).2.metrics.active = h.metrics.active := rfl
      dsimp only at hstep
      split at hstep <;> cases hstep <;> exact hlive

namespace Subscription

variable {s s' : Subscription} {h h' : Hub} {id : ReaderId}

theorem goes_proceed {next : Subscription × Hub} (hrunning : s.stage.phase = .running)
    (hstep : s.proceed? h id = some next) : Goes h next := by
  unfold proceed? at hstep
  cases hstage : s.stage with
  | spawned | stopped =>
    rw [hstage] at hrunning
    cases hrunning
  | registering due =>
    simp only [hstage] at hstep
    split at hstep
    · cases hstep
      exact goes_onward rfl rfl
    · cases hstep
  | streaming p =>
    simp only [hstage] at hstep
    split at hstep
    next => cases hstep
    next hpipeline =>
      cases hstep
      exact goes_onward rfl (Pipeline.active_advance hpipeline)
    next e p' hub hpipeline =>
      cases hstep
      exact goes_handOver s (Pipeline.active_advance hpipeline) id p' e
    next hpipeline =>
      cases hstep
      exact goes_finish s (Pipeline.active_advance hpipeline) id
  | handing p e wait =>
    simp only [hstage] at hstep
    cases wait with
    | room => exact goes_deposit hstep
    | callback due ending =>
      dsimp only at hstep
      split at hstep
      · cases hstep
        exact goes_endCall s h p e ending
      · cases hstep
    | forever => cases hstep

/-- What a driver comes to by a step: its phase before, what is seen of it, its phase afterwards,
and by how much the gauge goes up. -/
inductive Turn (id : ReaderId) : Phase → List Pulse → Phase → Int → Prop where
  /-- It was told to stop before it began. -/
  | skip : Turn id .ahead [] .past 0
  | enter : Turn id .ahead [.began id] .running 1
  /-- It ended with its first step. -/
  | flash : Turn id .ahead [.began id, .ended id] .past 0
  | stay : Turn id .running [] .running 0
  | leave : Turn id .running [.ended id] .past (-1)

theorem isStopped_eq_decide (s : Subscription) : s.isStopped = decide (s.stage.phase = .past) := by
  unfold isStopped
  cases s.stage <;> rfl

theorem pulses_of_advance (hstep : s.advance? h id = some (s', h')) : s.pulses h id =
    let ending := if s'.stage.phase = .past then [.ended id] else []
    if s.stage.phase = .ahead then if s.cancelRaised then [] else .began id :: ending
    else ending := by
  unfold pulses
  simp only [hstep, Option.any_some, isStopped_eq_decide, decide_eq_true_eq]
  cases s.stage <;> rfl

/-- A driver that has begun is told to stop, or goes on. -/
theorem goes_advance (hrunning : s.stage.phase = .running)
    (hstep : s.advance? h id = some (s', h')) : Goes h (s', h') := by
  unfold advance? at hstep
  split at hstep
  · cases hstep
  · split at hstep
    · have hstop : Goes h (s.stop h id) := by
        unfold stop
        dsimp only
        split
        next hspawned =>
          rw [hspawned] at hrunning
          cases hrunning
        next => exact .inr ⟨rfl, rfl⟩
      rwa [Option.some.inj hstep] at hstop
    · exact goes_proceed hrunning hstep

theorem turn_advance (hstep : s.advance? h id = some (s', h')) :
    ∃ change, Turn id s.stage.phase (s.pulses h id) s'.stage.phase change ∧
      h'.metrics.active = h.metrics.active + change := by
  rw [pulses_of_advance hstep]
  cases hphase : s.stage.phase with
  | past =>
    have hstopped : s.isStopped = true := by rw [isStopped_eq_decide, hphase]; rfl
    rw [advance?, if_pos hstopped] at hstep
    cases hstep
  | running =>
    rcases goes_advance hphase hstep with ⟨hphase', hactive⟩ | ⟨hphase', hactive⟩
    · rw [hphase']
      exact ⟨0, .stay, hactive.trans (add_zero _).symm⟩
    · rw [hphase']
      exact ⟨-1, .leave, hactive⟩
  | ahead =>
    have hspawned : s.stage = .spawned := by
      cases hstage : s.stage <;> rw [hstage] at hphase <;> first | rfl | cases hphase
    have hrunning : ¬s.isStopped = true := by rw [isStopped_eq_decide, hphase]; decide
    rw [advance?, if_neg hrunning] at hstep
    cases hcancel : s.cancelRaised with
    | true =>
      rw [hcancel, if_pos rfl, stop, hspawned] at hstep
      cases hstep
      exact ⟨0, .skip, (add_zero _).symm⟩
    | false =>
      rw [hcancel, if_neg Bool.false_ne_true, proceed?, hspawned] at hstep
      have hregister := s.goes_register h id
      rw [Option.some.inj hstep] at hregister
      rcases hregister with ⟨hphase', hactive⟩ | ⟨hphase', hactive⟩
      · rw [hphase']
        exact ⟨1, .enter, hactive⟩
      · rw [hphase']
        -- What was counted at the beginning of the step is taken out again at its end.
        have hback : h'.metrics.active = h.metrics.active + 1 - 1 := hactive
        exact ⟨0, .flash, by omega⟩

end Subscription

namespace Service

variable {s s' : Service} {id id' : ReaderId} {a : Action}

/-- What an action is seen to do to the drivers of subscriptions. -/
def pulses (s : Service) : Action → List Pulse
  | .step (.subscription id) => (s.subscriptions.get? id).elim [] fun sub => sub.pulses s.hub id
  | _ => []

/-- How far the driver of a name has come. One that is not there has not begun. -/
def phase (s : Service) (id : ReaderId) : Phase :=
  (s.subscriptions.get? id).elim .ahead fun sub => sub.stage.phase

theorem phase_ne_running
    (h : ∀ sub, s.subscriptions.get? id = some sub → sub.isStopped = true) :
    s.phase id ≠ .running := by
  rw [phase]
  cases hsub : s.subscriptions.get? id with
  | none => exact Phase.noConfusion
  | some sub =>
    have hpast := h sub hsub
    rw [Subscription.isStopped_eq_decide, decide_eq_true_eq] at hpast
    rw [Option.elim_some, hpast]
    exact Phase.noConfusion

theorem phase_eq (s : Service) (id : ReaderId) : s.phase id =
    (s.view.standing id).elim .ahead fun standing => standing.stage.phase := by
  change _ = ((s.subscriptions.get? id).map Subscription.standing).elim _ _
  rw [phase]
  cases s.subscriptions.get? id with
  | none => rfl
  | some sub => rfl

/-- A new driver has not begun, and all others are where they were. -/
theorem phase_of_other (h : s.perform? a = some s') (hother : a ≠ .step (.subscription id)) :
    s'.phase id = s.phase id := by
  rw [phase_eq, phase_eq]
  rcases standing_of_other h hother with hsame | ⟨hnone, target, rate, hnew⟩
  · rw [hsame]
  · rw [hnone, hnew]
    rfl

theorem active_answer (p : Publisher) (h : Hub) (flight : InFlight) :
    (p.answer h flight).2.metrics.active = h.metrics.active := by
  unfold Publisher.answer
  split
  · rfl
  · rfl
  · split
    · rfl
    · rfl

/-- Only drivers of subscriptions change the gauge. -/
theorem active_of_other (h : s.perform? a = some s') (hother : ∀ id, a ≠ .step (.subscription id)) :
    s'.hub.metrics.active = s.hub.metrics.active := by
  obtain ⟨-, hchange⟩ := hub_change h
  generalize s'.hub = hub at hchange
  cases hchange with
  | subscription => exact absurd rfl (hother _)
  | @publisher id p p' hub hp hstep =>
    obtain ⟨-, ⟨flight, -, -, hanswer⟩ | ⟨request, rest, -, -, hoffer⟩⟩ :=
      Publisher.cases_of_advance hstep
    · have hactive := active_answer p s.hub flight
      rwa [hanswer] at hactive
    · cases hoffer
      rfl
  | _ => rfl

/-- An action is no step of the driver of a subscription, or it is one, and no other driver takes
part. -/
theorem still_or_turn (h : s.perform? a = some s') :
    s.pulses a = [] ∧ s'.hub.metrics.active = s.hub.metrics.active ∧
        (∀ id, s'.phase id = s.phase id) ∨
      ∃ id change, Subscription.Turn id (s.phase id) (s.pulses a) (s'.phase id) change ∧
        s'.hub.metrics.active = s.hub.metrics.active + change ∧
        ∀ id' ≠ id, s'.phase id' = s.phase id' := by
  by_cases hdriver : ∃ id, a = .step (.subscription id)
  · obtain ⟨id, rfl⟩ := hdriver
    refine .inr ?_
    have hothers : ∀ id' ≠ id, s'.phase id' = s.phase id' := fun id' hid =>
      phase_of_other h fun heq => hid (by cases heq; rfl)
    obtain ⟨sub, sub', hub, hsub, hstep, rfl⟩ := exists_of_advanceSubscription h
    obtain ⟨change, hturn, hactive⟩ := Subscription.turn_advance hstep
    refine ⟨id, change, ?_, hactive, hothers⟩
    rw [pulses, phase, phase, hsub, Table.get?_insert_self]
    exact hturn
  · rw [not_exists] at hdriver
    have hpulses : s.pulses a = [] := by
      unfold pulses
      split
      next id => exact absurd rfl (hdriver id)
      next => rfl
    exact .inl ⟨hpulses, active_of_other h hdriver, fun id => phase_of_other h (hdriver id)⟩

end Service

/-! ## Trails -/

namespace Pulse

/-- The driver that took its first step. -/
def began? : Pulse → Option ReaderId
  | .began id => some id
  | .ended _ => none

/-- The driver that came to its end. -/
def ended? : Pulse → Option ReaderId
  | .began _ => none
  | .ended id => some id

/-- The drivers that took their first step, in order. -/
def starts (t : List Pulse) : List ReaderId :=
  t.filterMap began?

/-- The drivers that came to their end, in order. -/
def ends (t : List Pulse) : List ReaderId :=
  t.filterMap ended?

/-- The drivers that took their first step and have not come to their end. -/
def running (t : List Pulse) : List ReaderId :=
  (starts t).filter fun id => .ended id ∉ t

variable {t pulses : List Pulse} {pulse : Pulse} {id id' : ReaderId} {phase phase' : Phase}
  {change : Int}

@[simp]
theorem began?_eq_some : pulse.began? = some id ↔ pulse = .began id := by
  cases pulse <;> simp [began?]

@[simp]
theorem ended?_eq_some : pulse.ended? = some id ↔ pulse = .ended id := by
  cases pulse <;> simp [ended?]

theorem mem_starts : id ∈ starts t ↔ .began id ∈ t := by
  simp [starts]

theorem mem_ends : id ∈ ends t ↔ .ended id ∈ t := by
  simp [ends]

theorem nodup_starts (h : t.Nodup) : (starts t).Nodup :=
  h.filterMap fun _ _ _ hid hid' => (began?_eq_some.1 hid).trans (began?_eq_some.1 hid').symm

theorem nodup_ends (h : t.Nodup) : (ends t).Nodup :=
  h.filterMap fun _ _ _ hid hid' => (ended?_eq_some.1 hid).trans (ended?_eq_some.1 hid').symm

/-- What was seen of a driver that has come so far. One that is past its end without having begun
was never seen. -/
def Fits (t : List Pulse) (id : ReaderId) : Phase → Prop
  | .ahead => .began id ∉ t ∧ .ended id ∉ t
  | .running => .began id ∈ t ∧ .ended id ∉ t
  | .past => .began id ∈ t ↔ .ended id ∈ t

/-- Whoever came to an end has begun. -/
theorem Fits.began (h : Fits t id phase) (hended : .ended id ∈ t) : .began id ∈ t := by
  cases phase with
  | ahead => exact absurd hended h.2
  | running => exact h.1
  | past => exact h.2 hended

theorem Fits.turn (h : Fits t id phase) (hturn : Subscription.Turn id phase pulses phase' change) :
    Fits (t ++ pulses) id phase' := by
  cases hturn with
  | skip =>
    rw [List.append_nil]
    exact iff_of_false h.1 h.2
  | enter => exact ⟨by simp, by simp [h.2]⟩
  | flash => exact iff_of_true (by simp) (by simp)
  | stay =>
    rw [List.append_nil]
    exact h
  | leave => exact iff_of_true (List.mem_append_left _ h.1) (by simp)

theorem Fits.other (h : Fits t id' phase') (hid : id' ≠ id) {later : Phase}
    (hturn : Subscription.Turn id phase pulses later change) : Fits (t ++ pulses) id' phase' := by
  have hbegan : .began id' ∈ t ++ pulses ↔ .began id' ∈ t := by
    cases hturn <;> simp [hid]
  have hended : .ended id' ∈ t ++ pulses ↔ .ended id' ∈ t := by
    cases hturn <;> simp [hid]
  unfold Fits at *
  rwa [hbegan, hended]

theorem Fits.nodup (h : Fits t id phase) (hturn : Subscription.Turn id phase pulses phase' change)
    (hnodup : t.Nodup) : (t ++ pulses).Nodup := by
  cases hturn with
  | skip | stay => rwa [List.append_nil]
  | enter => exact List.concat_eq_append ▸ hnodup.concat h.1
  | leave => exact List.concat_eq_append ▸ hnodup.concat h.2
  | flash =>
    refine List.nodup_append.2 ⟨hnodup, by simp, ?_⟩
    rintro pulse hpulse _ hnew rfl
    rcases List.mem_pair.1 hnew with rfl | rfl
    · exact h.1 hpulse
    · exact h.2 hpulse

theorem change_eq (hturn : Subscription.Turn id phase pulses phase' change) :
    change = (starts pulses).length - (ends pulses).length := by
  cases hturn <;> rfl

/-- What is to hold of what was seen of drivers, and of the gauge, which was at `base`. -/
structure Tallies (base : Int) (t : List Pulse) (s : Service) : Prop where
  nodup : t.Nodup
  fits : ∀ id, Fits t id (s.phase id)
  gauge : s.hub.metrics.active = base + (starts t).length - (ends t).length

variable {base : Int} {s s' : Service} {a : Action}

theorem Tallies.step (h : Tallies base t s) (hstep : s.perform? a = some s') :
    Tallies base (t ++ s.pulses a) s' := by
  rcases Service.still_or_turn hstep with ⟨hnone, hactive, hphase⟩ |
    ⟨id, change, hturn, hactive, hothers⟩
  · rw [hnone, List.append_nil]
    exact ⟨h.nodup, fun id => hphase id ▸ h.fits id, hactive.trans h.gauge⟩
  · have hfits := h.fits id
    refine ⟨hfits.nodup hturn h.nodup, fun id' => ?_, ?_⟩
    · by_cases hid : id' = id
      · exact hid ▸ hfits.turn hturn
      · exact hothers id' hid ▸ (h.fits id').other hid hturn
    · have hchange := change_eq hturn
      have hgauge := h.gauge
      simp only [starts, ends, List.filterMap_append, List.length_append] at *
      omega

theorem Tallies.length_running (h : Tallies base t s) :
    (running t).length + (ends t).length = (starts t).length := by
  have hperm : ((starts t).filter fun id => .ended id ∈ t).Perm (ends t) := by
    refine (List.perm_ext_iff_of_nodup ((nodup_starts h.nodup).filter _) (nodup_ends h.nodup)).2
      fun id => ?_
    rw [List.mem_filter, mem_starts, mem_ends, decide_eq_true_eq]
    exact and_iff_right_of_imp (h.fits id).began
  rw [← hperm.length_eq, Nat.add_comm, running]
  have hsplit := List.length_eq_length_filter_add (l := starts t) fun id => decide (.ended id ∈ t)
  simpa using hsplit.symm

theorem Tallies.mem_running (h : Tallies base t s) : id ∈ running t ↔ s.phase id = .running := by
  have hfits := h.fits id
  rw [running, List.mem_filter, mem_starts, decide_eq_true_eq]
  generalize s.phase id = phase at hfits
  cases phase with
  | ahead => exact iff_of_false (fun h => hfits.1 h.1) nofun
  | running => exact iff_of_true hfits rfl
  | past => exact iff_of_false (fun h => h.2 (hfits.1 h.1)) nofun

end Pulse

namespace Service

variable {start s : Service} {t : List Pulse}

theorem Trail.tallies (trail : Trail pulses start t s) (hstart : start.subscriptions = .empty) :
    Pulse.Tallies start.hub.metrics.active t s := by
  induction trail with
  | start =>
    refine ⟨.nil, fun id => ?_, by simp [Pulse.starts, Pulse.ends]⟩
    have hphase : start.phase id = .ahead := by rw [phase, hstart]; rfl
    rw [hphase]
    exact ⟨List.not_mem_nil, List.not_mem_nil⟩
  | step _ hstep ih => exact ih.step hstep

/-- What is to hold of a trail if the gauge is in step with the drivers of subscriptions. -/
structure Balanced (start : Service) (t : List Pulse) (s : Service) : Prop where
  /-- No driver begins twice or comes to its end twice. -/
  once : t.Nodup
  /-- The drivers that began and have not come to their end are those that run now. -/
  running : ∀ id, id ∈ Pulse.running t ↔ s.phase id = .running
  /-- The gauge has gone up by their number. -/
  gauge : s.hub.metrics.active = start.hub.metrics.active + (Pulse.running t).length
  floor : start.hub.metrics.active ≤ s.hub.metrics.active
  /-- When all subscriptions have ended, the gauge is back where it was. -/
  returned : (∀ id sub, s.subscriptions.get? id = some sub → sub.isStopped = true) →
    s.hub.metrics.active = start.hub.metrics.active

/-- The gauge goes up with the first step of a driver and down with its end, whatever brings the end
about, in every run of a service that has no subscriptions at first. -/
theorem Trail.balanced (trail : Trail pulses start t s) (hstart : start.subscriptions = .empty) :
    Balanced start t s := by
  have htallies := trail.tallies hstart
  have hgauge : s.hub.metrics.active =
      start.hub.metrics.active + (Pulse.running t).length := by
    have hlength := htallies.length_running
    have hgauge := htallies.gauge
    omega
  refine ⟨htallies.nodup, fun id => htallies.mem_running, hgauge, by omega, fun hstopped => ?_⟩
  have hnone : Pulse.running t = [] := List.eq_nil_iff_forall_not_mem.2 fun id hid =>
    phase_ne_running (hstopped id) (htallies.mem_running.1 hid)
  rw [hgauge, hnone, List.length_nil, Nat.cast_zero, add_zero]

/-- A subscription to the shared key. -/
def joins (id : ReaderId) (consumer : Consumer) : Action :=
  .subscribe id (.keys [sharedKey]) none consumer

/-- Steps of the driver of a subscription. -/
def drives (id : ReaderId) (steps : Nat) : List Action :=
  List.replicate steps (.step (.subscription id))

/-- Subscriptions that end in all ways, and one that does not end. -/
def departures : List Action :=
  let callback := Consumer.scriptedCallback []
  -- The first one is refused.
  [.script ⟨.handOn, .fail (.rejected "full"), 0, 0, none⟩, joins 0 callback] ++ drives 0 1 ++
  -- The second one is told to stop before its first step, the third one while it registers.
  [.script ⟨.handOn, .handOn, 0, 10, none⟩, joins 1 callback, .raiseCancel 1] ++ drives 1 1 ++
  [joins 2 callback] ++ drives 2 1 ++ [.raiseCancel 2] ++ drives 2 1 ++
  -- The callback of the fourth one panics in the call, and the reader of the fifth one is gone.
  [.script .transparent, joins 3 (.asyncCallback .empty fun _ => .crash)] ++ drives 3 3 ++
  [joins 4 (.channel ⟨1, [], true⟩), .dropConsumer 4] ++ drives 4 4 ++
  -- The sixth one is told to stop while its mailbox is full.
  [joins 5 (.channel ⟨1, [sharedEvent "a"], true⟩)] ++ drives 5 3 ++ [.raiseCancel 5] ++
  drives 5 1 ++
  -- The transport is shut down, and of the last two only one has noticed it.
  [joins 6 callback, joins 7 callback] ++ drives 6 3 ++ drives 7 3 ++ [.shutdown] ++ drives 7 1

theorem balanced_departures : ∃ t s, Trail pulses logService t s ∧
    logService.subscriptions = .empty ∧ Pulse.starts t = [0, 2, 3, 4, 5, 6, 7] ∧
    Pulse.ends t = [0, 2, 3, 4, 5, 7] ∧ s.phase 1 = .past ∧ s.phase 6 = .running ∧
    s.hub.metrics.active = 1 := by
  obtain ⟨t, s, trail, hgood⟩ := exists_trail_of_observed pulses logService departures
    (fun t s => decide (Pulse.starts t = [0, 2, 3, 4, 5, 6, 7] ∧
      Pulse.ends t = [0, 2, 3, 4, 5, 7] ∧ Pulse.running t = [6] ∧ s.phase 1 = .past))
    (by decide +kernel)
  obtain ⟨hstarts, hends, hrunning, hpast⟩ := of_decide_eq_true hgood
  obtain ⟨-, hphase, hgauge, -, -⟩ := trail.balanced rfl
  refine ⟨t, s, trail, rfl, hstarts, hends, hpast, (hphase 6).1 ?_, ?_⟩
  · rw [hrunning]
    exact List.mem_singleton_self 6
  · rw [hgauge, hrunning]
    rfl

end Service

end Observatory
