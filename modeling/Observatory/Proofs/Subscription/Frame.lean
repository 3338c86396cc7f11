import Observatory.Bus.Service

/-!
# What subscriptions leave alone

The driver of a subscription reads the store and asks the transport. Of the hub it changes the
readers of the backend and the counters that are about subscriptions, and nothing else.
-/

namespace Observatory

/-- The part of a hub that subscriptions leave alone. -/
def Hub.still (h : Hub) : Duration × Store × Script × Nat × Nat :=
  (h.now, h.store, h.transport.script, h.metrics.published, h.metrics.failures)

theorem Hub.script_of_still {h h' : Hub} (heq : h'.still = h.still) :
    h'.transport.script = h.transport.script :=
  congrArg (fun part => part.2.2.1) heq

theorem Pipeline.still_advance {p : Pipeline} {target : Target} {h h' : Hub} {reader : ReaderId}
    {step : Pipeline.Step} (hstep : p.advance? target h reader = some (step, h')) :
    h'.still = h.still := by
  unfold Pipeline.advance? at hstep
  split at hstep
  · cases hstep
    rfl
  · split at hstep
    · obtain ⟨_, _, heq⟩ := Option.map_eq_some_iff.1 hstep
      cases heq
      rfl
    · -- What the reader missed is counted elsewhere.
      have hlive : (h.nextLive reader).2.still = h.still := rfl
      dsimp only at hstep
      split at hstep <;> cases hstep <;> exact hlive

namespace Subscription

variable {sub sub' : Subscription} {h h' : Hub} {reader : ReaderId}

theorem still_stop (sub : Subscription) (h : Hub) (reader : ReaderId) :
    (sub.stop h reader).2.still = h.still := by
  unfold stop
  dsimp only
  split <;> rfl

theorem still_register (sub : Subscription) (h : Hub) (reader : ReaderId) :
    (sub.register h reader).2.still = h.still := by
  unfold register
  dsimp only
  split
  · rfl
  · rfl
  · split <;> rfl

theorem still_handOver (sub : Subscription) (h : Hub) (reader : ReaderId) (p : Pipeline)
    (e : Event) : (sub.handOver h reader p e).2.still = h.still := by
  unfold handOver
  split
  · rfl
  · rfl
  · rfl
  · dsimp only
    split <;> rfl

theorem still_deposit {p : Pipeline} {e : Event}
    (hstep : sub.deposit? h reader p e = some (sub', h')) : h'.still = h.still := by
  unfold deposit? at hstep
  split at hstep
  · cases hstep
  · split at hstep
    · cases hstep
      rfl
    · split at hstep <;> cases hstep
      rfl

theorem still_endCall (sub : Subscription) (h : Hub) (p : Pipeline) (e : Event)
    (ending : CallEnd) : (sub.endCall h p e ending).2.still = h.still := by
  unfold endCall
  dsimp only
  split <;> rfl

theorem still_proceed (hstep : sub.proceed? h reader = some (sub', h')) :
    h'.still = h.still := by
  unfold proceed? at hstep
  split at hstep
  next => cases hstep
  next =>
    have hregister := sub.still_register h reader
    rwa [Option.some.inj hstep] at hregister
  next =>
    split at hstep <;> cases hstep
    rfl
  next =>
    split at hstep
    next => cases hstep
    next hpipeline =>
      cases hstep
      exact Pipeline.still_advance hpipeline
    next e p' hub hpipeline =>
      have hhanded := sub.still_handOver hub reader p' e
      rw [Option.some.inj hstep] at hhanded
      exact hhanded.trans (Pipeline.still_advance hpipeline)
    next hub hpipeline =>
      cases hstep
      have hclosed : (hub.subscriptionClosed reader).still = hub.still := rfl
      exact hclosed.trans (Pipeline.still_advance hpipeline)
  next => exact still_deposit hstep
  next p e due ending _ =>
    split at hstep
    · have hended := sub.still_endCall h p e ending
      rwa [Option.some.inj hstep] at hended
    · cases hstep
  next => cases hstep

theorem still_advance (hstep : sub.advance? h reader = some (sub', h')) : h'.still = h.still := by
  unfold advance? at hstep
  split at hstep
  · cases hstep
  · split at hstep
    · have hstopped := sub.still_stop h reader
      rwa [Option.some.inj hstep] at hstopped
    · exact still_proceed hstep

end Subscription

end Observatory
