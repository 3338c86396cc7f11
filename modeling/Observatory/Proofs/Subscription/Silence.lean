import Observatory.Proofs.Subscription.Lifecycle

/-!
# The end of a subscription

Once a subscription was told to stop, its driver stops at the next step, whatever it waits for, and
nothing is handed to the consumer any more. An unsubscribe ends when the driver has stopped, and
leaves the subscription cancelled for ever, even one whose registration had been refused.
-/

namespace Observatory

namespace Subscription

variable {s s' : Subscription} {marks : List Sight} {h : Hub} {id id' : ReaderId} {e : Event}

theorem Move.cancelRaised (hmove : s.Move marks s') (hcancel : s.cancelRaised = true) :
    s'.cancelRaised = true := by
  cases hmove with
  | onward _ _ _ _ hraised => exact hraised hcancel
  | _ => exact hcancel

theorem Move.isStream (hmove : s.Move marks s') : s'.consumer.isStream = s.consumer.isStream := by
  cases hmove with
  | onward _ _ _ _ _ hstream => exact hstream
  | _ => rfl

/-- A driver that has stopped stays so, and only an unsubscribe changes the state. -/
theorem Move.of_stopped (hmove : s.Move marks s') (hstopped : s.stage = .stopped) :
    s'.stage = .stopped ∧ (s'.state = s.state ∨ s'.state = s.state.cancel) := by
  cases hmove with
  | onward _ hstate _ hstage => exact ⟨hstage hstopped, .inl hstate⟩
  | refuse _ hspawned =>
    rw [hstopped] at hspawned
    cases hspawned
  | acknowledge _ hrunning => exact absurd hstopped hrunning
  | stop hrunning => exact absurd hstopped hrunning
  | resolve => exact ⟨hstopped, .inr rfl⟩

/-- Only a driver that runs and was not told to stop hands over events. -/
theorem running_of_handed (hmark : .handed id' e ∈ s.marks h id) :
    id' = id ∧ s.cancelRaised = false ∧ s.stage ≠ .stopped := by
  unfold Subscription.marks at hmark
  split at hmark
  next => cases hmark
  next hcancel =>
    rw [Bool.not_eq_true] at hcancel
    cases hstage : s.stage with
    | stopped =>
      rw [hstage] at hmark
      cases hmark
    | spawned =>
      simp only [hstage] at hmark
      split at hmark <;> simp at hmark
    | registering due => simp [hstage] at hmark
    | streaming p =>
      simp only [hstage] at hmark
      refine ⟨?_, hcancel, by simp⟩
      -- What the transport gives is marked as well, but as given and not as handed over.
      rcases List.mem_append.1 hmark with hgiven | hhanded
      · unfold Pipeline.givenMarks at hgiven
        split at hgiven
        · split at hgiven <;> simp at hgiven
        · cases hgiven
      · split at hhanded
        · unfold Consumer.marks at hhanded
          split at hhanded
          · cases hhanded
          · cases hhanded
          · exact (Mark.handed.inj (List.mem_singleton.1 hhanded)).1
          · exact (Mark.handed.inj (List.mem_singleton.1 hhanded)).1
        · cases hhanded
    | handing p next wait =>
      simp only [hstage] at hmark
      refine ⟨?_, hcancel, by simp⟩
      cases wait with
      | room =>
        dsimp only at hmark
        split at hmark
        · exact (Mark.handed.inj (List.mem_singleton.1 hmark)).1
        · cases hmark
      | callback => cases hmark
      | forever => cases hmark

theorem take_of_cancelRaised (hstream : s.consumer.isStream = true)
    (hcancel : s.cancelRaised = true) : s.take.1 = .ended := by
  unfold Subscription.take
  cases hconsumer : s.consumer with
  | stream m => simp [Consumer.mailbox?, hcancel]
  | _ =>
    rw [hconsumer] at hstream
    cases hstream

theorem advance?_of_cancelRaised (hrunning : s.isStopped = false)
    (hcancel : s.cancelRaised = true) : s.advance? h id = some (s.stop h id) := by
  rw [Subscription.advance?, hrunning, hcancel]
  rfl

theorem isStopped_stop (s : Subscription) (h : Hub) (id : ReaderId) :
    (s.stop h id).1.isStopped = true := by
  unfold Subscription.stop
  dsimp only
  split <;> rfl

end Subscription

theorem Publisher.handed_not_mem (p : Publisher) (h : Hub) (id : ReaderId) (e : Event) :
    .handed id e ∉ p.marks h := by
  unfold Publisher.marks
  split
  · unfold InFlight.answerMark
    split
    · simp
    · simp
    · split <;> simp
  · simp
  · simp

open Sight

/-- The state in which an unsubscribe is to leave a subscription: failed if its registration was
refused, and cancelled otherwise. -/
def Promised (t : List Sight) (x : Lifecycle) : Prop :=
  (∀ error, .refused error ∈ t → x = .failed error) ∧
    ((∀ error, .refused error ∉ t) → ∃ wasReady, x = .cancelled wasReady)

namespace Service

variable {settings : Settings} {origin : UtcTime} {transport : Transport} {id : ReaderId}
  {s s' : Service} {t : List Sight} {a : Action} {sub : Subscription} {marks : List Mark}
  {e : Event}

theorem exists_of_handed (hmark : .handed id e ∈ s.marks a) :
    ∃ sub, s.subscriptions.get? id = some sub ∧ .handed id e ∈ sub.marks s.hub id := by
  cases a with
  | step actor =>
    cases actor with
    | subscription id' =>
      cases hsub : s.subscriptions.get? id' with
      | none =>
        rw [marks, hsub] at hmark
        cases hmark
      | some sub =>
        rw [marks, hsub] at hmark
        obtain ⟨rfl, -⟩ := Subscription.running_of_handed hmark
        exact ⟨sub, hsub, hmark⟩
    | publisher id' =>
      cases hp : s.publishers.get? id' with
      | none =>
        rw [marks, hp] at hmark
        cases hmark
      | some p =>
        rw [marks, hp] at hmark
        exact absurd hmark (p.handed_not_mem s.hub id e)
    | task _ => cases hmark
  | getAll keys => simp [marks] at hmark
  | get _ | clearStore | rewire _ => simp [marks] at hmark
  | _ => cases hmark

theorem running_of_handed (hmark : .handed id e ∈ s.marks a) :
    ∃ sub, s.subscriptions.get? id = some sub ∧ sub.cancelRaised = false ∧
      sub.stage ≠ .stopped := by
  obtain ⟨sub, hsub, hhanded⟩ := exists_of_handed hmark
  exact ⟨sub, hsub, (Subscription.running_of_handed hhanded).2⟩

/-- There goes on to be a subscription, and it makes moves. -/
theorem exists_move (h : s.perform? a = some s') (hsub : s.subscriptions.get? id = some sub) :
    ∃ sub', s'.subscriptions.get? id = some sub' ∧ sub.Move (s.signals id a) sub' := by
  have hchange : Change _ (s.signals id a) (s'.subscriptions.get? id) := change h
  rw [hsub] at hchange
  generalize s'.subscriptions.get? id = x' at hchange ⊢
  cases hchange with
  | move hmove => exact ⟨_, rfl, hmove⟩

/-- The next step of a driver that was told to stop is its end. -/
theorem stops_next (hsub : s.subscriptions.get? id = some sub) (hrunning : sub.isStopped = false)
    (hcancel : sub.cancelRaised = true) : ∃ next ended,
      s.advance? (.subscription id) = some next ∧ next.subscriptions.get? id = some ended ∧
        ended.isStopped = true := by
  have hstop : sub.advance? s.hub id = some (sub.stop s.hub id) :=
    Subscription.advance?_of_cancelRaised hrunning hcancel
  refine ⟨{ s with
    hub := (sub.stop s.hub id).2
    subscriptions := s.subscriptions.insert id (sub.stop s.hub id).1 }, (sub.stop s.hub id).1, ?_,
    Table.get?_insert_self .., sub.isStopped_stop s.hub id⟩
  simp only [advance?, advanceSubscription?, hsub, Option.bind_eq_bind, Option.bind_some, hstop]
  rfl

/-- What the cancelled subscription goes on to be. -/
theorem Run.cancelled (run : Run s marks s') (hsub : s.subscriptions.get? id = some sub)
    (hcancel : sub.cancelRaised = true) : (∀ e, .handed id e ∉ marks) ∧
      ∃ sub', s'.subscriptions.get? id = some sub' ∧ sub'.cancelRaised = true ∧
        sub'.consumer.isStream = sub.consumer.isStream := by
  induction run with
  | start => exact ⟨by simp, sub, hsub, hcancel, rfl⟩
  | step run h ih =>
    obtain ⟨hsilent, sub', hsub', hcancel', hstream⟩ := ih
    obtain ⟨sub'', hsub'', hmove⟩ := exists_move h hsub'
    refine ⟨fun e hmark => ?_, sub'', hsub'', hmove.cancelRaised hcancel',
      hmove.isStream.trans hstream⟩
    rcases List.mem_append.1 hmark with hmark | hmark
    · exact hsilent e hmark
    · obtain ⟨running, hrunning, hnot, -⟩ := running_of_handed hmark
      cases hsub'.symm.trans hrunning
      rw [hcancel'] at hnot
      cases hnot

/-- What the unsubscribed subscription goes on to be. -/
theorem Run.stopped (run : Run s marks s') (hsub : s.subscriptions.get? id = some sub)
    (hstopped : sub.stage = .stopped) (hstate : sub.state.cancel = sub.state) :
    (∀ e, .handed id e ∉ marks) ∧
      ∃ sub', s'.subscriptions.get? id = some sub' ∧ sub'.stage = .stopped ∧
        sub'.state = sub.state := by
  induction run with
  | start => exact ⟨by simp, sub, hsub, hstopped, rfl⟩
  | step run h ih =>
    obtain ⟨hsilent, sub', hsub', hstopped', hstate'⟩ := ih
    obtain ⟨sub'', hsub'', hmove⟩ := exists_move h hsub'
    obtain ⟨hstopped'', hstate''⟩ := hmove.of_stopped hstopped'
    refine ⟨fun e hmark => ?_, sub'', hsub'', hstopped'', ?_⟩
    · rcases List.mem_append.1 hmark with hmark | hmark
      · exact hsilent e hmark
      · obtain ⟨running, hrunning, -, hnot⟩ := running_of_handed hmark
        cases hsub'.symm.trans hrunning
        exact hnot hstopped'
    · rcases hstate'' with hsame | hcancel
      · exact hsame.trans hstate'
      · rw [hcancel, hstate', hstate]

/-- An unsubscribe that came to its end found the driver stopped, and left the subscription
cancelled. -/
theorem Trail.resolved
    (trail : Trail (sights id) (withTransport settings origin transport) t s)
    (hsub : s.subscriptions.get? id = some sub) (hresolved : .resolved ∈ t) :
    sub.stage = .stopped ∧ ∃ wasReady, sub.state = .cancelled wasReady := by
  induction trail generalizing sub with
  | start => cases hresolved
  | @step t s s' a trail h ih =>
    cases hbefore : s.subscriptions.get? id with
    | none =>
      -- The subscription has just been made, so that no unsubscribe was seen.
      have hnext := trail.seen.next h
      rw [hsub] at hnext
      have hseen := trail.seen
      rw [hbefore] at hseen
      generalize s.sights id a = seen at hnext hresolved
      cases hseen
      cases hnext with
      | new => simp at hresolved
      | move hlived => exact absurd hlived.last (by simp [states])
    | some old =>
      obtain ⟨sub', hsub', hmove⟩ := exists_move h hbefore
      cases hsub.symm.trans hsub'
      rw [sights_eq h, List.mem_append, List.mem_append] at hresolved
      rcases hresolved with hearlier | hnow | hstate
      · obtain ⟨hstopped, wasReady, hcancelled⟩ := ih hbefore hearlier
        obtain ⟨hstopped', hstate⟩ := hmove.of_stopped hstopped
        refine ⟨hstopped', wasReady, ?_⟩
        rcases hstate with hsame | hcancel
        · rw [hsame, hcancelled]
        · rw [hcancel, hcancelled]
          rfl
      · generalize s.signals id a = signals at hnow hmove
        cases hmove with
        | resolve hstopped => exact ⟨hstopped, old.state.everReady, rfl⟩
        | _ => simp at hnow
      · simp [hsub] at hstate

/-- What those who cancel a subscription can rely on. -/
structure Silenced (id : ReaderId) (t : List Sight) (s : Service) (sub : Subscription) : Prop where
  /-- From the cancellation on nothing is handed over, the driver stops at its next step, and a
  stream gives nothing but its end. -/
  cancelled : sub.cancelRaised = true → ∀ marks s', Run s marks s' →
    (∀ e, .handed id e ∉ marks) ∧ ∃ sub', s'.subscriptions.get? id = some sub' ∧
      sub'.cancelRaised = true ∧
      (sub'.isStopped = true ∨ ∃ next ended, s'.advance? (.subscription id) = some next ∧
        next.subscriptions.get? id = some ended ∧ ended.isStopped = true) ∧
      (sub.consumer.isStream = true → sub'.take.1 = .ended)
  /-- No unsubscribe comes to its end before the driver has stopped. -/
  waits : sub.isStopped = false → sub.unsubscribed? = none ∧ .resolved ∉ t
  /-- Once one has, nothing is handed over, and the state is a cancellation for ever. -/
  resolved : .resolved ∈ t → ∀ marks s', Run s marks s' →
    (∀ e, .handed id e ∉ marks) ∧ ∃ sub' wasReady, s'.subscriptions.get? id = some sub' ∧
      sub'.isStopped = true ∧ sub.state = .cancelled wasReady ∧ sub'.state = sub.state
  /-- That is the state that it is to be, just if the registration was not refused. -/
  promised_iff : .resolved ∈ t → (Promised t sub.state ↔ ∀ error, .refused error ∉ t)

/-- Whatever a subscription is doing, it comes to its end as those who cancel it rely on. -/
theorem Trail.silences
    (trail : Trail (sights id) (withTransport settings origin transport) t s)
    (hsub : s.subscriptions.get? id = some sub) : Silenced id t s sub where
  cancelled hcancel marks s' run := by
    obtain ⟨hsilent, sub', hsub', hcancel', hstream⟩ := run.cancelled hsub hcancel
    refine ⟨hsilent, sub', hsub', hcancel', ?_, fun h =>
      Subscription.take_of_cancelRaised (hstream.trans h) hcancel'⟩
    cases hstopped : sub'.isStopped with
    | true => exact .inl rfl
    | false => exact .inr (stops_next hsub' hstopped hcancel')
  waits hrunning := by
    refine ⟨by rw [Subscription.unsubscribed?, hrunning]; rfl, fun hresolved => ?_⟩
    have hstopped := Subscription.isStopped_iff.2 (trail.resolved hsub hresolved).1
    rw [hrunning] at hstopped
    cases hstopped
  resolved hresolved marks s' run := by
    obtain ⟨hstopped, wasReady, hcancelled⟩ := trail.resolved hsub hresolved
    have hstate : sub.state.cancel = sub.state := by rw [hcancelled]; rfl
    obtain ⟨hsilent, sub', hsub', hstopped', hstate'⟩ := run.stopped hsub hstopped hstate
    exact ⟨hsilent, sub', wasReady, hsub', Subscription.isStopped_iff.2 hstopped', hcancelled,
      hstate'⟩
  promised_iff hresolved := by
    obtain ⟨-, wasReady, hcancelled⟩ := trail.resolved hsub hresolved
    rw [hcancelled]
    constructor
    · intro hpromised error hrefused
      cases hpromised.1 error hrefused
    · intro hnone
      exact ⟨fun error hrefused => absurd hrefused (hnone error), fun _ => ⟨wasReady, rfl⟩⟩

/-- The driver waits for room in the mailbox of a stream when the subscription is cancelled. -/
def fullMailbox : List Action :=
  [.publish (.own 0) (sharedEvent "a"), .step (.publisher (.own 0)), .step (.publisher (.own 0)),
    .subscribe 0 (.keys [sharedKey]) none (.stream ⟨1, [], true⟩), .step (.subscription 0),
    .step (.subscription 0), .step (.subscription 0), .step (.subscription 0),
    .publish (.own 0) (sharedEvent "b"), .step (.publisher (.own 0)), .step (.publisher (.own 0)),
    .step (.subscription 0), .raiseCancel 0, .step (.subscription 0), .endUnsubscribe 0]

theorem silences_fullMailbox : ∃ t s sub, Trail (sights 0) logService t s ∧
    s.subscriptions.get? 0 = some sub ∧ .resolved ∈ t ∧ sub.cancelRaised = true ∧
      sub.consumer.mailbox?.map Mailbox.items = some [sharedEvent "a"] ∧ Silenced 0 t s sub := by
  obtain ⟨t, s, trail, hgood⟩ := exists_trail_of_observed (sights 0) logService fullMailbox
    (fun t s => decide (Sight.resolved ∈ t) &&
      (s.subscriptions.get? 0).any fun sub : Subscription => sub.cancelRaised &&
        decide (sub.consumer.mailbox?.map Mailbox.items = some [sharedEvent "a"]))
    (by decide +kernel)
  simp only [Bool.and_eq_true, decide_eq_true_eq, Option.any_eq_true] at hgood
  obtain ⟨hresolved, sub, hsub, hcancel, hitems⟩ := hgood
  exact ⟨t, s, sub, trail, hsub, hresolved, hcancel, hitems, trail.silences hsub⟩

/-- A subscription that was refused and then unsubscribed is not in the state of a failed one. -/
theorem not_promised : ¬∀ t s sub, Trail (sights 0) logService t s →
    s.subscriptions.get? 0 = some sub → .resolved ∈ t → Promised t sub.state := by
  intro hall
  obtain ⟨s, trail⟩ := exists_refusal
  have hseen := trail.seen
  cases hsub : s.subscriptions.get? 0 with
  | none =>
    rw [hsub] at hseen
    cases hseen
  | some sub =>
    rw [hsub] at hseen
    have hstate : Lifecycle.cancelled false = sub.state := Option.some.inj (Lived.last hseen)
    have hpromised := hall _ s sub trail hsub (by decide)
    cases hstate.trans (hpromised.1 (.transport (.rejected "link down")) (by decide))

end Service

end Observatory
