import Observatory.Proofs.Service.Closed
import Observatory.Proofs.Subscription.Silence

/-!
# Subscriptions that come too late

A subscription to keys that begins when the transport is closed is refused in its driver's first
step, unless it was cancelled before. It is never ready, and its consumer gets nothing.
-/

namespace Observatory

namespace Subscription

variable {s s' : Subscription} {h h' : Hub} {id id' : ReaderId} {keys : List EventKey}
  {name : String} {e : Event}

/-- What a subscription to keys can be when the transport is closed. -/
inductive Doomed (name : String) (s : Subscription) : Prop where
  | waiting (hstage : s.stage = .spawned) (hstate : s.state = .pending)
  | failed (hstage : s.stage = .stopped) (hstate : s.state = .failed (.transport (.closed name)))
  | cancelled (hstage : s.stage = .stopped) (hstate : s.state = .cancelled false)

/-- What becomes of such a subscription at once, and what is said of it. -/
inductive Fall (name : String) (s : Subscription) (said : List Sight) (s' : Subscription) :
    Prop where
  | rest (hstage : s'.stage = s.stage) (hstate : s'.state = s.state)
  | refuse (hpending : s.state = .pending) (hcancel : s.cancelRaised = false)
      (hstage : s'.stage = .stopped) (hstate : s'.state = .failed (.transport (.closed name)))
  | cancel (hpending : s.state = .pending) (hcancel : s.cancelRaised = true)
      (hstage : s'.stage = .stopped) (hstate : s'.state = .cancelled false)
  | resolve (hresolved : .resolved ∈ said) (hstage : s.stage = .stopped)
      (hstage' : s'.stage = .stopped) (hstate : s'.state = s.state.cancel)

theorem Doomed.fall {said : List Sight} (hd : Doomed name s) (hfall : Fall name s said s') :
    Doomed name s' := by
  cases hfall with
  | rest hstage hstate =>
    cases hd with
    | waiting hspawned hpending => exact .waiting (hstage.trans hspawned) (hstate.trans hpending)
    | failed hstopped hfailed => exact .failed (hstage.trans hstopped) (hstate.trans hfailed)
    | cancelled hstopped hcancelled =>
      exact .cancelled (hstage.trans hstopped) (hstate.trans hcancelled)
  | refuse _ _ hstage hstate => exact .failed hstage hstate
  | cancel _ _ hstage hstate => exact .cancelled hstage hstate
  | resolve _ hstopped hstage hstate =>
    refine .cancelled hstage ?_
    cases hd with
    | waiting hspawned hpending =>
      rw [hstopped] at hspawned
      cases hspawned
    | failed _ hfailed =>
      rw [hstate, hfailed]
      rfl
    | cancelled _ hcancelled =>
      rw [hstate, hcancelled]
      rfl

theorem register_of_closed (hscript : h.transport.script = .transparent)
    (hclosed : h.transport.backend.closed = true) (hkeys : s.target = .keys keys) :
    (s.register h id).1 = { s with
      stage := .stopped
      state := s.state.refuse (.transport (.closed h.transport.backend.name)) } := by
  have hrefused : s.target.register id h.transport.backend =
      .error (.closed h.transport.backend.name) := by
    rw [hkeys]
    exact Backend.subscribe_of_closed hclosed id keys
  have hopened : h.subscriptionOpened.transport = h.transport := rfl
  have hanswer : h.transport.script.subscribe = .handOn := by
    rw [hscript]
    rfl
  unfold register
  simp only [hopened, hanswer, hrefused]
  rfl

/-- The first step of the driver is its last. -/
theorem Doomed.advance (hd : Doomed name s) (hscript : h.transport.script = .transparent)
    (hclosed : h.transport.backend.closed = true) (hname : h.transport.backend.name = name)
    (hkeys : s.target = .keys keys) (hstep : s.advance? h id = some (s', h')) :
    s'.stage = .stopped ∧ ∀ said, Fall name s said s' := by
  unfold advance? at hstep
  split at hstep
  next => cases hstep
  next hrunning =>
    rw [isStopped_iff] at hrunning
    cases hd with
    | failed hstopped => exact absurd hstopped hrunning
    | cancelled hstopped => exact absurd hstopped hrunning
    | waiting hspawned hpending =>
      split at hstep
      next hcancel =>
        simp only [stop, hspawned, hpending] at hstep
        cases hstep
        exact ⟨rfl, fun _ => .cancel hpending hcancel rfl rfl⟩
      next hcancel =>
        rw [Bool.not_eq_true] at hcancel
        have hregister : (s.register h id).1 = _ := register_of_closed hscript hclosed hkeys
        rw [proceed?, hspawned] at hstep
        rw [Option.some.inj hstep, hpending, hname] at hregister
        rw [show s' = _ from hregister]
        exact ⟨rfl, fun _ => .refuse hpending hcancel rfl rfl⟩

theorem advance?_ne_none_of_spawned (hspawned : s.stage = .spawned) : s.advance? h id ≠ none := by
  have hrunning : s.isStopped = false := by rw [isStopped, hspawned]
  rw [advance?, hrunning, if_neg Bool.false_ne_true]
  split
  · exact Option.some_ne_none _
  · rw [proceed?, hspawned]
    exact Option.some_ne_none _

theorem handed_not_mem_of_spawned (hspawned : s.stage = .spawned) :
    .handed id' e ∉ s.marks h id := by
  unfold marks
  split
  · exact List.not_mem_nil
  · rw [hspawned]
    dsimp only
    split <;> simp

end Subscription

open Subscription

namespace Service

variable {s s' : Service} {a : Action} {id : ReaderId} {name : String} {sub sub' : Subscription}
  {keys : List EventKey} {t t' : List (Service × Action)}

theorem target_eq (h : s.perform? a = some s') (hsub : s.subscriptions.get? id = some sub)
    (hsub' : s'.subscriptions.get? id = some sub') : sub'.target = sub.target := by
  obtain ⟨stage, heq⟩ := (step_view h).exists_standing (standing_of_get? hsub)
  rw [standing_of_get? hsub'] at heq
  exact congrArg Standing.target (Option.some.inj heq)

theorem Shut.fall (hs : Shut name s) (h : s.perform? a = some s')
    (hsub : s.subscriptions.get? id = some sub) (hkeys : sub.target = .keys keys)
    (hd : Doomed name sub) : ∃ sub', s'.subscriptions.get? id = some sub' ∧
      Fall name sub (s.signals id a) sub' ∧
      (a = .step (.subscription id) → sub'.stage = .stopped) := by
  by_cases ha : a = .step (.subscription id)
  · subst ha
    obtain ⟨sub₀, sub', hub, hsub₀, hstep, rfl⟩ := exists_of_advanceSubscription h
    cases hsub.symm.trans hsub₀
    obtain ⟨hstage, hfall⟩ := hd.advance hs.script hs.closed hs.name hkeys hstep
    exact ⟨sub', Table.get?_insert_self .., hfall _, fun _ => hstage⟩
  · obtain ⟨sub', hsub', hmove⟩ := exists_move h hsub
    -- Nobody else takes the driver any further, and so most moves cannot be made.
    have hstage : sub'.stage = sub.stage := by
      rcases standing_of_other h ha with heq | ⟨hnone, -⟩
      · rw [standing_of_get? hsub, standing_of_get? hsub'] at heq
        exact congrArg Standing.stage (Option.some.inj heq)
      · rw [standing_of_get? hsub] at hnone
        cases hnone
    refine ⟨sub', hsub', ?_, fun heq => absurd heq ha⟩
    generalize s.signals id a = said at hmove
    cases hmove with
    | onward _ hstate => exact .rest hstage hstate
    | refuse error hspawned =>
      rw [hspawned] at hstage
      cases hstage
    | acknowledge stage hrunning hspawned =>
      cases hd with
      | waiting hbefore => exact absurd (hstage.trans hbefore) hspawned
      | failed hstopped => exact absurd hstopped hrunning
      | cancelled hstopped => exact absurd hstopped hrunning
    | stop hrunning => exact absurd hstage.symm hrunning
    | resolve hstopped => exact .resolve List.mem_cons_self hstopped hstopped rfl

/-! ## Along a run -/

/-- The subscription was told to stop while its registration was pending. -/
def CancelledPending (id : ReaderId) (t : List (Service × Action)) : Prop :=
  ∃ taken ∈ t, ∃ sub, taken.1.subscriptions.get? id = some sub ∧ sub.state = .pending ∧
    sub.cancelRaised = true

/-- What has become of a subscription that came too late. -/
structure Late (name : String) (id : ReaderId) (t : List (Service × Action))
    (sub : Subscription) : Prop where
  doomed : Doomed name sub
  -- A cancellation comes before the refusal, or with the end of an unsubscribe.
  cancelled : sub.state = .cancelled false →
    CancelledPending id t ∨ .resolved ∈ readOff (sights id) t
  silent : ∀ e, .handed id e ∉ readOff marks t

theorem CancelledPending.append (h : CancelledPending id t) (t' : List (Service × Action)) :
    CancelledPending id (t ++ t') := by
  obtain ⟨taken, htaken, hcancelled⟩ := h
  exact ⟨taken, List.mem_append_left _ htaken, hcancelled⟩

theorem Late.step (hlate : Late name id t sub) (hs : Shut name s)
    (h : s.perform? a = some s') (hsub : s.subscriptions.get? id = some sub)
    (hkeys : sub.target = .keys keys) (hsub' : s'.subscriptions.get? id = some sub') :
    Late name id (t ++ record s a) sub' := by
  obtain ⟨sub₁, hsub₁, hfall, -⟩ := hs.fall h hsub hkeys hlate.doomed
  cases hsub'.symm.trans hsub₁
  refine ⟨hlate.doomed.fall hfall, fun hcancelled => ?cancelled, fun e hm => ?silent⟩
  case cancelled =>
    rw [readOff_record, List.mem_append]
    cases hfall with
    | rest hstage hstate =>
      rcases hlate.cancelled (hstate.symm.trans hcancelled) with hpending | hresolved
      · exact .inl (hpending.append _)
      · exact .inr (.inl hresolved)
    | refuse _ _ _ hstate => cases hcancelled.symm.trans hstate
    | cancel hpending hraised =>
      exact .inl ⟨(s, a), List.mem_append_right _ List.mem_cons_self, sub, hsub, hpending, hraised⟩
    | resolve hresolved => exact .inr (.inr (List.mem_append_left _ hresolved))
  case silent =>
    rw [readOff_record, List.mem_append] at hm
    rcases hm with hm | hm
    · exact hlate.silent e hm
    · obtain ⟨running, hrunning, hhanded⟩ := exists_of_handed hm
      cases hsub.symm.trans hrunning
      have hnot := (Subscription.running_of_handed hhanded).2.2
      cases hlate.doomed with
      | waiting hspawned => exact handed_not_mem_of_spawned hspawned hhanded
      | failed hstopped => exact hnot hstopped
      | cancelled hstopped => exact hnot hstopped

/-- There is no subscription of a name yet, or it came too late. -/
def AtMostLate (name : String) (id : ReaderId) (t : List (Service × Action))
    (x : Option Subscription) : Prop :=
  (x = none → ∀ e, .handed id e ∉ readOff marks t) ∧
    ∀ sub keys, x = some sub → sub.target = .keys keys → Late name id t sub

theorem AtMostLate.step (hlate : AtMostLate name id t (s.subscriptions.get? id))
    (hs : Shut name s) (h : s.perform? a = some s') :
    AtMostLate name id (t ++ record s a) (s'.subscriptions.get? id) := by
  cases hbefore : s.subscriptions.get? id with
  | some sub =>
    obtain ⟨sub', hsub', -⟩ := exists_move h hbefore
    refine ⟨fun hnone => ?_, fun later keys hlater hkeys => ?_⟩
    · rw [hsub'] at hnone
      cases hnone
    · have hsame : sub.target = .keys keys := (target_eq h hbefore hlater).symm.trans hkeys
      exact (hlate.2 sub keys hbefore hsame).step hs h hbefore hsame hlater
  | none =>
    have hsilent : ∀ e, .handed id e ∉ readOff marks (t ++ record s a) := by
      intro e hm
      rw [readOff_record, List.mem_append] at hm
      rcases hm with hm | hm
      · exact hlate.1 hbefore e hm
      · obtain ⟨sub, hsub, -⟩ := exists_of_handed hm
        cases hbefore.symm.trans hsub
    refine ⟨fun _ => hsilent, fun sub keys hsub hkeys => ?_⟩
    have hchange : Change _ (s.signals id a) (s'.subscriptions.get? id) := change h
    rw [hbefore, hsub] at hchange
    generalize s.signals id a = said at hchange
    cases hchange with
    | new target rate consumer => exact ⟨.waiting rfl rfl, (nomatch ·), hsilent⟩

theorem Trail.atMostLate {start : Service} (hstart : Shut name start)
    (hnone : start.subscriptions.get? id = none)
    (hplain : ∀ taken ∈ t, taken.2.isPlain = true) (trail : Trail record start t s) :
    AtMostLate name id t (s.subscriptions.get? id) := by
  induction trail with
  | start => exact ⟨fun _ _ => List.not_mem_nil, fun _ _ hsub => nomatch hnone.symm.trans hsub⟩
  | step trail h ih =>
    rw [List.forall_mem_append] at hplain
    exact (ih hplain.1).step (trail.keeps Shut.step hstart hplain.1) h

/-! ## In the end -/

theorem advance?_subscription (hsub : s.subscriptions.get? id = some sub)
    (h : s.advance? (.subscription id) = none) : sub.advance? s.hub id = none := by
  by_contra hsome
  obtain ⟨next, hnext⟩ := Option.ne_none_iff_exists'.1 hsome
  simp [advance?, advanceSubscription?, hsub, hnext] at h

theorem Course.Fair.stops {c : Course s} (fair : c.Fair (.subscription id))
    (hs : ∀ n, Shut name (c.state n)) (hsub : s.subscriptions.get? id = some sub)
    (hkeys : sub.target = .keys keys) (hd : Doomed name sub) :
    ∃ n, ∀ m, n ≤ m → ∃ sub', (c.state m).subscriptions.get? id = some sub' ∧
      sub'.target = .keys keys ∧ sub'.stage = .stopped := by
  have hall : ∀ n, ∃ sub', (c.state n).subscriptions.get? id = some sub' ∧
      sub'.target = .keys keys ∧ Doomed name sub' := by
    intro n
    induction n with
    | zero =>
      rw [c.start]
      exact ⟨sub, hsub, hkeys, hd⟩
    | succ n ih =>
      obtain ⟨sub, hsub, hkeys, hd⟩ := ih
      obtain ⟨sub', hsub', hfall, -⟩ := (hs n).fall (c.step n) hsub hkeys hd
      exact ⟨sub', hsub', (target_eq (c.step n) hsub hsub').trans hkeys, hd.fall hfall⟩
  -- One turn is enough, and a driver that has no step to take has stopped already.
  have hstop : ∃ n sub', (c.state n).subscriptions.get? id = some sub' ∧
      sub'.target = .keys keys ∧ sub'.stage = .stopped := by
    obtain ⟨n, -, hturn⟩ := fair.turns 0
    obtain ⟨sub, hsub, hkeys, hd⟩ := hall n
    rcases hturn with haction | hstuck
    · obtain ⟨sub', hsub', -, hstopped⟩ := (hs n).fall (c.step n) hsub hkeys hd
      exact ⟨n + 1, sub', hsub', (target_eq (c.step n) hsub hsub').trans hkeys,
        hstopped haction⟩
    · refine ⟨n, sub, hsub, hkeys, ?_⟩
      cases hd with
      | waiting hspawned =>
        exact absurd (advance?_subscription hsub hstuck) (advance?_ne_none_of_spawned hspawned)
      | failed hstopped => exact hstopped
      | cancelled hstopped => exact hstopped
  obtain ⟨n, hn⟩ := hstop
  refine ⟨n, fun m hm => ?_⟩
  induction m, hm using Nat.le_induction with
  | base => exact hn
  | succ m _ ih =>
    obtain ⟨sub, hsub, hkeys, hstopped⟩ := ih
    obtain ⟨sub', hsub', hmove⟩ := exists_move (c.step m) hsub
    exact ⟨sub', hsub', (target_eq (c.step m) hsub hsub').trans hkeys,
      (hmove.of_stopped hstopped).1⟩

end Service

end Observatory
