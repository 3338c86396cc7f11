import Observatory.Proofs.Service.Delivery
import Observatory.Proofs.Subscription.Silence
import Observatory.Proofs.Transport.Idle

/-!
# Pacing

All seeds of a rate-controlled subscription arrive at its pacer before the first tick, and the pacer
keeps the last of them only. As long as the transport has nothing for the subscription, every tick
emits this seed again in adaptive mode, and only the first one does in limiter mode.
-/

namespace Observatory

variable {id : ReaderId} {mode : Mode} {n : Nat} {e : Event} {p : Pipeline}

/-! ## Pipelines -/

/-- Whether the next step of a pipeline is a tick. -/
def Pipeline.isTick (p : Pipeline) (h : Hub) (id : ReaderId) : Bool :=
  p.seeds.isEmpty && h.transport.backend.isQuiet id && (p.tick? h.now).isSome

/-- Whether the next step of a driver services a tick. -/
def Subscription.isTick (s : Subscription) (h : Hub) (id : ReaderId) : Bool :=
  match s.stage with
  | .streaming p => !s.cancelRaised && p.isTick h id
  | _ => false

/-- What `n` ticks emit when nothing arrives but `e`, before the first one. -/
def emissions (mode : Mode) (n : Nat) (e : Event) : List Event :=
  match mode with
  | .adaptive => List.replicate n e
  | .limiter => [e].take n

/-- The pipeline has serviced `n` ticks, and its ticks emit `e` or nothing. -/
inductive Paces (mode : Mode) (e : Event) : Nat → Pipeline → Prop where
  /-- Seeds are left, and `e` is the last one. -/
  | filling {p : Pipeline} {pacing : Pacing} (hpacing : p.pacing = some pacing)
      (hmode : pacing.pacer.mode = mode) (hlast : p.seeds.getLast? = some e) : Paces mode e 0 p
  | ticking {n : Nat} {p : Pipeline} {pacing : Pacing} (hpacing : p.pacing = some pacing)
      (hmode : pacing.pacer.mode = mode) (hseeds : p.seeds = [])
      (hlatest : pacing.pacer.latest = some e)
      (hfresh : pacing.pacer.fresh = decide (n = 0)) : Paces mode e n p

theorem paces_start {seeds : List Stamped} {last : Stamped} (rate : RateControl) (now : Nat)
    (hlast : seeds.getLast? = some last) :
    Paces rate.mode last.event 0 (.start seeds (some rate) now) := by
  have hpacing : (Pipeline.start seeds (some rate) now).pacing =
      some ⟨⟨rate.interval, now⟩, .start rate.mode⟩ := rfl
  refine .filling hpacing rfl ?_
  rw [Pipeline.start, List.getLast?_map, hlast]
  rfl

/-- Every seed replaces the one before it at the pacer. -/
theorem Paces.arrival {x : Event} {rest : List Event} (h : Paces mode e n p)
    (hseeds : p.seeds = x :: rest) :
    ∃ q, Pipeline.arrival { p with seeds := rest } x = .onward q ∧ Paces mode e n q := by
  cases h with
  | @filling _ pacing hpacing hmode hlast =>
    rw [hseeds] at hlast
    simp only [Pipeline.arrival, hpacing]
    refine ⟨_, rfl, ?_⟩
    cases rest with
    | nil =>
      cases hlast
      exact .ticking rfl hmode rfl rfl rfl
    | cons y rest =>
      rw [List.getLast?_cons_cons] at hlast
      exact .filling rfl hmode hlast
  | ticking _ _ hnone =>
    rw [hseeds] at hnone
    cases hnone

theorem Pacer.tick_of_latest (pacer : Pacer) (h : pacer.latest = some e) :
    pacer.tick = if pacer.mode = .adaptive ∨ pacer.fresh then
      (some e, { pacer with fresh := false }) else (none, pacer) := by
  rw [Pacer.tick, h]

def Pipeline.fired (p : Pipeline) (pacing : Pacing) (now : Nat) (pacer : Pacer) : Pipeline :=
  { p with pacing := some ⟨pacing.ticker.fire now, pacer⟩ }

theorem Paces.tick {now : Nat} {step : Pipeline.Step} (h : Paces mode e n p)
    (hseeds : p.seeds = []) (htick : p.tick? now = some step) : ∃ q, Paces mode e (n + 1) q ∧
      (step = .emit e q ∧ emissions mode (n + 1) e = emissions mode n e ++ [e] ∨
        step = .onward q ∧ emissions mode (n + 1) e = emissions mode n e) := by
  cases h with
  | filling _ _ hlast =>
    rw [hseeds] at hlast
    cases hlast
  | @ticking _ _ pacing hpacing hmode _ hlatest hfresh =>
    have hpacer := pacing.pacer.tick_of_latest hlatest
    simp only [Pipeline.tick?, hpacing] at htick
    split at htick
    · cases mode with
      | adaptive =>
        rw [hpacer, if_pos (.inl hmode)] at htick
        cases htick
        exact ⟨p.fired pacing now { pacing.pacer with fresh := false },
          .ticking rfl hmode hseeds hlatest rfl, .inl ⟨rfl, List.replicate_succ'⟩⟩
      | limiter =>
        -- Only the first tick finds that something has arrived.
        cases n with
        | zero =>
          rw [hpacer, if_pos (.inr hfresh)] at htick
          cases htick
          exact ⟨p.fired pacing now { pacing.pacer with fresh := false },
            .ticking rfl hmode hseeds hlatest rfl, .inl ⟨rfl, rfl⟩⟩
        | succ n =>
          rw [hpacer, if_neg (by simp [hmode, hfresh])] at htick
          cases htick
          exact ⟨p.fired pacing now pacing.pacer, .ticking rfl hmode hseeds hlatest hfresh,
            .inr ⟨rfl, by simp [emissions]⟩⟩
    · cases htick

/-! ## Drivers -/

/-- The driver has serviced `n` ticks and handed over what they emitted, or has it ready. -/
inductive Beating (mode : Mode) (e : Event) (n : Nat) (done : List Event) : Stage → Prop where
  | streaming {p : Pipeline} (h : Paces mode e n p) (hdone : done = emissions mode n e) :
      Beating mode e n done (.streaming p)
  | waiting {p : Pipeline} (h : Paces mode e n p) (hdone : done ++ [e] = emissions mode n e) :
      Beating mode e n done (.handing p e .room)
  | calling {p : Pipeline} {e' : Event} {wait : Handover} (h : Paces mode e n p)
      (hdone : done = emissions mode n e) (hwait : wait ≠ .room) :
      Beating mode e n done (.handing p e' wait)
  | stopped (hdone : done <+: emissions mode n e) : Beating mode e n done .stopped

variable {done : List Event} {stage : Stage}

theorem Beating.done_initial (h : Beating mode e n done stage) : done <+: emissions mode n e := by
  cases h with
  | streaming _ hdone => exact hdone ▸ List.prefix_rfl
  | waiting _ hdone => exact hdone ▸ List.prefix_append done [e]
  | calling _ hdone => exact hdone ▸ List.prefix_rfl
  | stopped hdone => exact hdone

section Driver

variable {h h' : Hub} {target : Target} {next : Pipeline.Step} {s s' : Subscription}

/-- What a step of a pipeline comes to, when `n` ticks have been serviced after it and `done` had
been emitted before it. -/
inductive Turn (mode : Mode) (e : Event) (n : Nat) (done : List Event) : Pipeline.Step → Prop where
  | onward {q : Pipeline} (h : Paces mode e n q) (hdone : done = emissions mode n e) :
      Turn mode e n done (.onward q)
  | emit {q : Pipeline} (h : Paces mode e n q) (hdone : done ++ [e] = emissions mode n e) :
      Turn mode e n done (.emit e q)
  | ended (hdone : done = emissions mode n e) : Turn mode e n done .ended

/-- As long as the transport has nothing, a pipeline goes on by its seeds and its ticks. -/
theorem Paces.advance (hpaces : Paces mode e n p) (hidle : h.transport.backend.Idle id)
    (hstep : p.advance? target h id = some (next, h')) :
    p.givenMarks h id = [] ∧ Turn mode e (n + (p.isTick h id).toNat) (emissions mode n e) next := by
  unfold Pipeline.advance? at hstep
  unfold Pipeline.givenMarks Pipeline.isTick
  cases hseeds : p.seeds with
  | cons x rest =>
    simp only [hseeds] at hstep
    obtain ⟨q, hq, hpaces⟩ := hpaces.arrival hseeds
    rw [hq] at hstep
    cases hstep
    exact ⟨rfl, .onward hpaces rfl⟩
  | nil =>
    simp only [hseeds] at hstep
    cases hquiet : h.transport.backend.isQuiet id with
    | true =>
      rw [hquiet, if_pos rfl] at hstep
      obtain ⟨step, htick, heq⟩ := Option.map_eq_some_iff.1 hstep
      cases heq
      rw [htick]
      refine ⟨rfl, ?_⟩
      obtain ⟨q, hpaces, ⟨rfl, hdone⟩ | ⟨rfl, hdone⟩⟩ := hpaces.tick hseeds htick
      · exact .emit hpaces hdone.symm
      · exact .onward hpaces hdone.symm
    | false =>
      rw [hquiet, if_neg (by decide)] at hstep
      -- There may be a reason to ask the transport, but it has nothing to give.
      have hnever := hidle.result_next
      cases hresult : (h.transport.backend.next id).result with
      | item w => exact absurd hresult (hnever w)
      | pending =>
        simp only [Hub.nextLive, hresult] at hstep ⊢
        cases hstep
        exact ⟨rfl, .onward hpaces rfl⟩
      | ended =>
        simp only [Hub.nextLive, hresult] at hstep ⊢
        cases hstep
        exact ⟨rfl, .ended rfl⟩

theorem beating_handOver {done : List Event} (s : Subscription) (h : Hub) (id : ReaderId)
    (hpaces : Paces mode e n p) (hdone : done ++ [e] = emissions mode n e) :
    Beating mode e n (done ++ handed (s.consumer.marks id e) id) (s.handOver h id p e).1.stage := by
  have hone : handed [.handed id e] id = [e] := by simp [handed]
  unfold Subscription.handOver Consumer.marks
  cases s.consumer with
  | stream m => exact .waiting hpaces (by simpa [handed] using hdone)
  | channel m => exact .waiting hpaces (by simpa [handed] using hdone)
  | callback log panics =>
    dsimp only
    rw [hone]
    exact .streaming hpaces hdone
  | asyncCallback log behave =>
    dsimp only
    rw [hone]
    cases behave log.begun with
    | crash => exact .stopped (hdone ▸ List.prefix_rfl)
    | works delay ending => exact .calling hpaces hdone (by simp)

theorem Beating.streaming_step {done : List Event} (hpaces : Paces mode e n p)
    (hdone : done = emissions mode n e) (hstage : s.stage = .streaming p)
    (hcancel : s.cancelRaised = false) (hidle : h.transport.backend.Idle id)
    (hstep : s.proceed? h id = some (s', h')) :
    Beating mode e (n + (s.isTick h id).toNat) (done ++ handed (s.marks h id) id) s'.stage := by
  subst hdone
  simp only [Subscription.proceed?, hstage] at hstep
  simp only [Subscription.isTick, Subscription.marks, hstage, hcancel, Bool.false_eq_true, if_false,
    Bool.not_false, Bool.true_and]
  cases hadvance : p.advance? s.target h id with
  | none =>
    rw [hadvance] at hstep
    cases hstep
  | some taken =>
    obtain ⟨next, between⟩ := taken
    obtain ⟨hgiven, hturn⟩ := hpaces.advance hidle hadvance
    rw [hadvance] at hstep
    rw [hgiven, List.nil_append]
    cases hturn with
    | onward hpaces hdone =>
      cases hstep
      exact .streaming hpaces (by simpa [handed] using hdone)
    | ended hdone =>
      cases hstep
      exact .stopped (by simp [handed, ← hdone])
    | emit hpaces hdone =>
      simp only [Option.some.injEq] at hstep
      have hafter := beating_handOver s between id hpaces hdone
      rwa [hstep] at hafter

theorem Beating.deposit_step {done : List Event} (hpaces : Paces mode e n p)
    (hdone : done ++ [e] = emissions mode n e) (hstep : s.deposit? h id p e = some (s', h')) :
    Beating mode e n (done ++ handed
      (if (s.consumer.mailbox?.map Mailbox.isOpen).getD false then [.handed id e] else []) id)
      s'.stage := by
  simp only [Subscription.deposit?] at hstep
  cases hmailbox : s.consumer.mailbox? with
  | none =>
    rw [hmailbox] at hstep
    cases hstep
  | some m =>
    simp only [hmailbox] at hstep
    rw [Option.map_some, Option.getD_some]
    cases hopen : m.isOpen with
    | false =>
      simp only [hopen] at hstep
      cases hstep
      exact .stopped ⟨[e], by simpa [handed] using hdone⟩
    | true =>
      simp only [hopen, Bool.not_true, Bool.false_eq_true, if_false] at hstep
      split at hstep
      · cases hstep
        exact .streaming hpaces (by simpa [handed] using hdone)
      · cases hstep

theorem Beating.endCall_step {done : List Event} {e' : Event} {ending : CallEnd}
    (hpaces : Paces mode e n p) (hdone : done = emissions mode n e)
    (hstep : s.endCall h p e' ending = (s', h')) : Beating mode e n done s'.stage := by
  unfold Subscription.endCall at hstep
  cases ending with
  | returns | panics =>
    cases hstep
    exact .streaming hpaces hdone
  | unsubscribes =>
    cases hstep
    exact .calling hpaces hdone (by simp)

/-- A driver stops because it was told to, or goes on. -/
theorem Subscription.advance_cases (hstep : s.advance? h id = some (s', h')) :
    (s'.stage = .stopped ∧ s.marks h id = [] ∧ s.isTick h id = false) ∨
      (s.cancelRaised = false ∧ s.stage ≠ .stopped ∧ s.proceed? h id = some (s', h')) := by
  unfold Subscription.advance? at hstep
  split at hstep
  next => cases hstep
  next hrunning =>
    rw [isStopped_iff] at hrunning
    split at hstep
    next hcancel =>
      refine .inl ⟨?_, if_pos hcancel, ?_⟩
      · have hstopped := isStopped_iff.1 (isStopped_stop s h id)
        rwa [Option.some.inj hstep] at hstopped
      · unfold Subscription.isTick
        split
        · rw [hcancel]
          rfl
        · rfl
    next hcancel => exact .inr ⟨by simpa using hcancel, hrunning, hstep⟩

/-- A driver with an idle reader goes on to hand over what its ticks emit. -/
theorem Beating.advance {done : List Event} (hbeat : Beating mode e n done s.stage)
    (hidle : h.transport.backend.Idle id) (hstep : s.advance? h id = some (s', h')) :
    Beating mode e (n + (s.isTick h id).toNat) (done ++ handed (s.marks h id) id) s'.stage := by
  obtain ⟨hstopped, hmarks, htick⟩ | ⟨hcancel, hrunning, hstep⟩ := s.advance_cases hstep
  · rw [hmarks, htick, hstopped]
    exact .stopped (by simpa [handed] using hbeat.done_initial)
  · cases hstage : s.stage with
    | stopped => exact absurd hstage hrunning
    | spawned | registering due =>
      rw [hstage] at hbeat
      cases hbeat
    | streaming p =>
      rw [hstage] at hbeat
      cases hbeat with | streaming hpaces hdone =>
      exact .streaming_step hpaces hdone hstage hcancel hidle hstep
    | handing p e' wait =>
      rw [hstage] at hbeat
      have htick : s.isTick h id = false := by rw [Subscription.isTick, hstage]
      simp only [Subscription.proceed?, hstage] at hstep
      simp only [htick, Subscription.marks, hcancel, hstage, Bool.false_eq_true, if_false]
      -- A driver that hands an event over does not tick.
      cases hbeat with
      | waiting hpaces hdone => exact .deposit_step hpaces hdone hstep
      | calling hpaces hdone hwait =>
        cases wait with
        | room => exact absurd rfl hwait
        | forever => cases hstep
        | callback due ending =>
          dsimp only at hstep ⊢
          split at hstep
          · have hafter := Beating.endCall_step hpaces hdone (Option.some.inj hstep)
            simpa [handed] using hafter
          · cases hstep

/-! ## Subscriptions -/

/-- How far a rate-controlled subscription to keys has come, when `t` was seen and it has serviced
`n` ticks. -/
inductive Paced (rate : RateControl) (keys : List EventKey) (id : ReaderId) (t : List Mark)
    (n : Nat) : Stage → Prop where
  | spawned (hdone : handed t id = []) (hticks : n = 0) : Paced rate keys id t n .spawned
  | registering {due : Nat} (hregistered : .registered id ∈ t) (hdone : handed t id = [])
      (hticks : n = 0) : Paced rate keys id t n (.registering due)
  | unseeded (hdone : handed t id = []) (hticks : n = 0) : Paced rate keys id t n .stopped
  | seeded {stage : Stage} {seeds : List Stamped} {last : Stamped}
      (hregistered : .registered id ∈ t) (hseeded : .seeded id seeds ∈ t)
      (hkeys : seeds.map Stamped.key = EventKey.sortDistinct keys)
      (hlast : seeds.getLast? = some last)
      (hbeat : Beating rate.mode last.event n (handed t id) stage) : Paced rate keys id t n stage

namespace Paced

variable {rate : RateControl} {keys : List EventKey} {t marks : List Mark}

theorem frame (h : Paced rate keys id t n stage) (hhanded : handed marks id = []) :
    Paced rate keys id (t ++ marks) n stage := by
  have hsame : handed (t ++ marks) id = handed t id := by
    rw [handed_append, hhanded, List.append_nil]
  cases h with
  | spawned hdone hticks => exact .spawned (hsame.trans hdone) hticks
  | registering hregistered hdone hticks =>
    exact .registering (List.mem_append_left _ hregistered) (hsame.trans hdone) hticks
  | unseeded hdone hticks => exact .unseeded (hsame.trans hdone) hticks
  | seeded hregistered hseeded hkeys hlast hbeat =>
    exact .seeded (List.mem_append_left _ hregistered) (List.mem_append_left _ hseeded) hkeys hlast
      (hsame.symm ▸ hbeat)

theorem register (hdone : handed t id = []) (hstage : s.stage = .spawned)
    (hcancel : s.cancelRaised = false) :
    Paced rate keys id (t ++ s.marks h id) 0 (s.register h id).1.stage := by
  have hquiet : handed (t ++ []) id = [] := (List.append_nil t).symm ▸ hdone
  have hregistered : handed (t ++ [.registered id]) id = [] := by
    rw [handed_append, hdone]
    rfl
  simp only [Subscription.marks, hcancel, hstage, Subscription.register, Hub.subscriptionOpened,
    Hub.count]
  cases h.transport.script.subscribe with
  | crash => exact .unseeded hquiet rfl
  | fail error => exact .unseeded hquiet rfl
  | handOn =>
    cases s.target.register id h.transport.backend with
    | error error => exact .unseeded hquiet rfl
    | ok backend => exact .registering (List.mem_append_right _ List.mem_cons_self) hregistered rfl

theorem activate {due : Nat} (hdone : handed t id = []) (hregistered : .registered id ∈ t)
    (hkeys : keys ≠ []) (hstage : s.stage = .registering due) (htarget : s.target = .keys keys)
    (hrate : s.rate = some rate) (hcancel : s.cancelRaised = false)
    (hstore : ∀ key, (h.store.read key).key = key) :
    Paced rate keys id (t ++ s.marks h id) 0 (s.activate h).stage := by
  have hmarks : s.marks h id = [.seeded id (h.store.snapshot keys)] := by
    simp [Subscription.marks, hcancel, hstage, htarget, Target.seeds]
  have hhanded : handed (t ++ [.seeded id (h.store.snapshot keys)]) id = [] := by
    rw [handed_append, hdone]
    rfl
  have hsorted : EventKey.sortDistinct keys ≠ [] := by
    obtain ⟨key, hkey⟩ := List.exists_mem_of_ne_nil keys hkeys
    exact List.ne_nil_of_mem (EventKey.mem_sortDistinct.2 hkey)
  obtain ⟨last, hlast⟩ : ∃ last, (h.store.snapshot keys).getLast? = some last := by
    rw [← Option.isSome_iff_exists, List.getLast?_isSome]
    exact fun hnil => hsorted (List.map_eq_nil_iff.1 hnil)
  rw [hmarks]
  refine .seeded (List.mem_append_left _ hregistered) (List.mem_append_right _ List.mem_cons_self)
    ?_ hlast ?_
  · rw [Store.snapshot, List.map_map]
    exact List.map_id'' hstore _
  · rw [hhanded, Subscription.activate, htarget, hrate]
    exact .streaming (paces_start rate h.now hlast) (by cases rate.mode <;> rfl)

theorem stop (h : Paced rate keys id t n stage) : Paced rate keys id t n .stopped := by
  cases h with
  | spawned hdone hticks => exact .unseeded hdone hticks
  | registering _ hdone hticks => exact .unseeded hdone hticks
  | unseeded hdone hticks => exact .unseeded hdone hticks
  | seeded hregistered hseeded hkeys hlast hbeat =>
    exact .seeded hregistered hseeded hkeys hlast (.stopped hbeat.done_initial)

/-- A step of its driver takes a subscription as far as its ticks go. -/
theorem advance (hpaced : Paced rate keys id t n s.stage) (hkeys : keys ≠ [])
    (htarget : s.target = .keys keys) (hrate : s.rate = some rate)
    (hidle : .registered id ∈ t → h.transport.backend.Idle id)
    (hstore : ∀ key, (h.store.read key).key = key) (hstep : s.advance? h id = some (s', h')) :
    Paced rate keys id (t ++ s.marks h id) (n + (s.isTick h id).toNat) s'.stage := by
  obtain ⟨hstopped, hmarks, htick⟩ | ⟨hcancel, hrunning, hproceed⟩ := s.advance_cases hstep
  · rw [hmarks, htick, hstopped, List.append_nil]
    exact hpaced.stop
  · generalize hstage : s.stage = stage at hpaced
    cases hpaced with
    | spawned hdone hticks =>
      simp only [Subscription.proceed?, hstage] at hproceed
      have hafter : s' = (s.register h id).1 :=
        (congrArg Prod.fst (Option.some.inj hproceed)).symm
      rw [hafter, hticks, Subscription.isTick, hstage]
      exact register hdone hstage hcancel
    | registering hregistered hdone hticks =>
      simp only [Subscription.proceed?, hstage] at hproceed
      split at hproceed
      · cases hproceed
        rw [hticks, Subscription.isTick, hstage]
        exact activate hdone hregistered hkeys hstage htarget hrate hcancel hstore
      · cases hproceed
    | unseeded => exact absurd hstage hrunning
    | seeded hregistered hseeded hsorted hlast hbeat =>
      have hafter := Beating.advance (hstage ▸ hbeat) (hidle hregistered) hstep
      rw [← handed_append] at hafter
      exact .seeded (List.mem_append_left _ hregistered) (List.mem_append_left _ hseeded) hsorted
        hlast hafter

end Paced

end Driver

end Observatory
