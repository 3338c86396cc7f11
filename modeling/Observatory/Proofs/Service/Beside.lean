import Observatory.Proofs.Service.Run
import Observatory.Proofs.Transport.Beside

/-!
# Drivers beside each other

What drivers do on hubs that differ in one reader and in their counters at most: publishers, tasks
and the subscriptions of all other readers take the same steps, and what the subscription of that
reader does on one side leaves the hubs beside each other.
-/

namespace Observatory

variable {a id : ReaderId}

/-! ## Hubs -/

namespace Hub

variable {h h' : Hub} {b b' : Backend}

/-- The hubs differ in the reader `a` and in their counters at most. -/
def Beside (a : ReaderId) (h h' : Hub) : Prop :=
  ∃ backend metrics, h.transport.backend.Beside a backend ∧
    h' = { h with transport := { h.transport with backend }, metrics }

/-- What a step gives beside its hub is the same, and the hubs are beside each other. -/
def Paired {α : Type} (a : ReaderId) (x y : α × Hub) : Prop :=
  y.1 = x.1 ∧ x.2.Beside a y.2

namespace Beside

theorem shared (hb : h.Beside a h') :
    h'.now = h.now ∧ h'.store = h.store ∧ h'.transport.script = h.transport.script := by
  obtain ⟨backend, metrics, -, rfl⟩ := hb
  exact ⟨rfl, rfl, rfl⟩

theorem backend (hb : h.Beside a h') :
    h.transport.backend.Beside a h'.transport.backend := by
  obtain ⟨backend, metrics, hbackend, rfl⟩ := hb
  exact hbackend

theorem withBackend (hb : h.Beside a h') (hbackend : b.Beside a b') :
    (h.withBackend b).Beside a (h'.withBackend b') := by
  obtain ⟨_, metrics, -, rfl⟩ := hb
  exact ⟨b', metrics, hbackend, rfl⟩

theorem count (hb : h.Beside a h') (f f' : Metrics → Metrics) :
    (h.count f).Beside a (h'.count f') := by
  obtain ⟨backend, metrics, hbackend, rfl⟩ := hb
  exact ⟨backend, f' metrics, hbackend, rfl⟩

theorem withStore (hb : h.Beside a h') (store : Store) :
    { h with store }.Beside a { h' with store } := by
  obtain ⟨backend, metrics, hbackend, rfl⟩ := hb
  exact ⟨backend, metrics, hbackend, rfl⟩

theorem eventDelivered (hb : h.Beside a h') : h.eventDelivered.Beside a h'.eventDelivered :=
  hb.count _ _

theorem subscriptionClosed (hb : h.Beside a h') (id : ReaderId) :
    (h.subscriptionClosed id).Beside a (h'.subscriptionClosed id) :=
  (hb.withBackend (hb.backend.drop id)).count _ _

theorem nextLive (hb : h.Beside a h') (hid : id ≠ a) :
    Paired a (h.nextLive id) (h'.nextLive id) := by
  obtain ⟨hresult, -, hnext⟩ := hb.backend.next hid
  obtain ⟨_, metrics, -, rfl⟩ := hb
  exact ⟨hresult, _, _, hnext, rfl⟩

/-! What `a` does on one side -/

theorem count_own (hb : h.Beside a h') (f : Metrics → Metrics) : (h.count f).Beside a h' :=
  hb.count f id

theorem withBackend_own (hb : h.Beside a h') (hbackend : b.Beside a h'.transport.backend) :
    (h.withBackend b).Beside a h' :=
  hb.withBackend hbackend

theorem subscriptionClosed_own (hb : h.Beside a h') : (h.subscriptionClosed a).Beside a h' :=
  (hb.withBackend_own hb.backend.drop_own).count_own _

theorem nextLive_own (hb : h.Beside a h') : (h.nextLive a).2.Beside a h' :=
  (hb.withBackend_own hb.backend.next_own).count_own _

end Beside

end Hub

/-! ## Publishers -/

namespace Publisher

variable {h h' : Hub} {p : Publisher} {flight : InFlight}

theorem paired_refuse (hb : h.Beside a h') (error : TransportError) :
    Hub.Paired a (p.refuse h flight error) (p.refuse h' flight error) := by
  obtain ⟨backend, metrics, hbackend, rfl⟩ := hb
  exact ⟨rfl, backend, _, hbackend, rfl⟩

theorem paired_answer (hb : h.Beside a h') :
    Hub.Paired a (p.answer h flight) (p.answer h' flight) := by
  unfold Publisher.answer
  cases flight.verdict with
  | crash => exact ⟨rfl, hb⟩
  | fail error => exact paired_refuse hb error
  | handOn =>
    have hpublish := hb.backend.publish flight.written
    dsimp only
    generalize h.transport.backend.publish flight.written = x at hpublish
    generalize h'.transport.backend.publish flight.written = x' at hpublish
    cases hpublish with
    | ok hbackend =>
      obtain ⟨_, metrics, -, rfl⟩ := hb
      exact ⟨rfl, _, _, hbackend, rfl⟩
    | error error => exact paired_refuse hb error

theorem answerMark_eq (hb : h.Beside a h') : flight.answerMark h' = flight.answerMark h := by
  unfold InFlight.answerMark
  cases flight.verdict with
  | crash => rfl
  | fail error => rfl
  | handOn =>
    have hpublish := hb.backend.publish flight.written
    dsimp only
    generalize h.transport.backend.publish flight.written = x at hpublish
    generalize h'.transport.backend.publish flight.written = x' at hpublish
    cases hpublish with
    | ok hbackend => rfl
    | error error => rfl

theorem paired_advance (hb : h.Beside a h') :
    Option.Rel (Hub.Paired a) (p.advance? h) (p.advance? h') ∧ p.marks h' = p.marks h := by
  obtain ⟨hnow, hstore, hscript⟩ := hb.shared
  unfold Publisher.advance? Publisher.marks
  rw [hnow, hstore]
  cases p.inFlight with
  | some flight =>
    refine ⟨?_, congrArg (fun m => [m]) (answerMark_eq hb)⟩
    dsimp only
    split
    · exact .none
    · split
      · exact .some (paired_answer hb)
      · exact .none
  | none =>
    cases p.queue with
    | nil =>
      refine ⟨?_, rfl⟩
      dsimp only
      split
      · exact .none
      · exact .none
    | cons request rest =>
      refine ⟨?_, rfl⟩
      dsimp only
      split
      · exact .none
      · obtain ⟨backend, metrics, hbackend, rfl⟩ := hb
        exact .some ⟨rfl, backend, metrics, hbackend, rfl⟩

end Publisher

theorem PublishTask.advance?_eq {h h' : Hub} (hb : h.Beside a h') (task : PublishTask)
    (p : Publisher) : task.advance? h' p = task.advance? h p := by
  obtain ⟨backend, metrics, -, rfl⟩ := hb
  rfl

/-! ## Subscriptions -/

namespace Pipeline

variable {h h' : Hub} {p : Pipeline} {target : Target}

theorem paired_advance (p : Pipeline) (target : Target) (hb : h.Beside a h') (hid : id ≠ a) :
    Option.Rel (Hub.Paired a) (p.advance? target h id) (p.advance? target h' id) ∧
      p.givenMarks h' id = p.givenMarks h id := by
  obtain ⟨hnow, -, -⟩ := hb.shared
  obtain ⟨hlive, hafter⟩ := hb.nextLive hid
  unfold Pipeline.advance? Pipeline.givenMarks
  rw [hb.backend.isQuiet hid, hnow, hlive]
  refine ⟨?_, rfl⟩
  cases p.seeds with
  | cons e seeds => exact .some ⟨rfl, hb⟩
  | nil =>
    dsimp only
    split
    · cases p.tick? h.now with
      | none => exact .none
      | some step => exact .some ⟨rfl, hb⟩
    · rw [hlive]
      cases (h.nextLive id).1 with
      | item w => exact .some ⟨rfl, hafter⟩
      | pending => exact .some ⟨rfl, hafter⟩
      | ended => exact .some ⟨rfl, hafter⟩

theorem advance_own {step : Step} {hub : Hub} (hb : h.Beside a h')
    (hstep : p.advance? target h a = some (step, hub)) : hub.Beside a h' := by
  unfold Pipeline.advance? at hstep
  split at hstep
  · cases hstep
    exact hb
  · split at hstep
    · obtain ⟨_, -, heq⟩ := Option.map_eq_some_iff.1 hstep
      cases heq
      exact hb
    · have hlive := hb.nextLive_own
      generalize h.nextLive a = live at hstep hlive
      obtain ⟨result, after⟩ := live
      cases result with
      | item w =>
        cases hstep
        exact hlive
      | pending =>
        cases hstep
        exact hlive
      | ended =>
        cases hstep
        exact hlive

end Pipeline

namespace Subscription

variable {h h' : Hub} {s : Subscription} {p : Pipeline} {e : Event}

theorem paired_finish (hb : h.Beside a h') : Hub.Paired a (s.finish h id) (s.finish h' id) :=
  ⟨rfl, hb.subscriptionClosed id⟩

theorem paired_stop (hb : h.Beside a h') : Hub.Paired a (s.stop h id) (s.stop h' id) := by
  unfold Subscription.stop
  dsimp only
  split
  · exact ⟨rfl, hb⟩
  · exact ⟨rfl, hb.subscriptionClosed id⟩

theorem paired_register (hb : h.Beside a h') :
    Hub.Paired a (s.register h id) (s.register h' id) := by
  have hopened : h.subscriptionOpened.Beside a h'.subscriptionOpened := hb.count _ _
  obtain ⟨hnow, -, hscript⟩ := hopened.shared
  have hregister := hopened.backend.register s.target id
  unfold Subscription.register
  dsimp only
  rw [hscript, hnow]
  cases h.subscriptionOpened.transport.script.subscribe with
  | crash => exact paired_finish hopened
  | fail error => exact paired_finish hopened
  | handOn =>
    dsimp only
    generalize s.target.register id h.subscriptionOpened.transport.backend = x at hregister
    generalize s.target.register id h'.subscriptionOpened.transport.backend = x' at hregister
    cases hregister with
    | ok hbackend => exact ⟨rfl, hopened.withBackend hbackend⟩
    | error error => exact paired_finish hopened

theorem paired_handOver (hb : h.Beside a h') :
    Hub.Paired a (s.handOver h id p e) (s.handOver h' id p e) := by
  obtain ⟨hnow, -, -⟩ := hb.shared
  unfold Subscription.handOver
  rw [hnow]
  cases s.consumer with
  | stream m => exact ⟨rfl, hb⟩
  | channel m => exact ⟨rfl, hb⟩
  | callback log panics => exact ⟨rfl, hb.eventDelivered⟩
  | asyncCallback log behave =>
    dsimp only
    cases behave log.begun with
    | crash => exact paired_finish hb
    | works delay ending => exact ⟨rfl, hb⟩

theorem paired_deposit (hb : h.Beside a h') :
    Option.Rel (Hub.Paired a) (s.deposit? h id p e) (s.deposit? h' id p e) := by
  unfold Subscription.deposit?
  cases s.consumer.mailbox? with
  | none => exact .none
  | some m =>
    dsimp only
    split
    · exact .some (paired_finish hb)
    · split
      · exact .some ⟨rfl, hb.eventDelivered⟩
      · exact .none

theorem paired_endCall {ending : CallEnd} (hb : h.Beside a h') :
    Hub.Paired a (s.endCall h p e ending) (s.endCall h' p e ending) := by
  obtain ⟨hnow, -, -⟩ := hb.shared
  unfold Subscription.endCall
  rw [hnow]
  cases ending with
  | returns => exact ⟨rfl, hb.eventDelivered⟩
  | panics => exact ⟨rfl, hb.eventDelivered⟩
  | unsubscribes => exact ⟨rfl, hb⟩

theorem paired_proceed (hb : h.Beside a h') (hid : id ≠ a) :
    Option.Rel (Hub.Paired a) (s.proceed? h id) (s.proceed? h' id) := by
  obtain ⟨hnow, hstore, -⟩ := hb.shared
  unfold Subscription.proceed?
  cases s.stage with
  | stopped => exact .none
  | spawned => exact .some (paired_register hb)
  | registering due =>
    dsimp only
    rw [hnow]
    split
    · refine .some ⟨?_, hb⟩
      unfold Subscription.activate
      rw [hnow, hstore]
    · exact .none
  | streaming p =>
    have hpipeline := (Pipeline.paired_advance p s.target hb hid).1
    dsimp only
    generalize p.advance? s.target h id = x at hpipeline
    generalize p.advance? s.target h' id = x' at hpipeline
    cases hpipeline with
    | none => exact .none
    | @some step step' hpaired =>
      obtain ⟨next, hub⟩ := step
      obtain ⟨next', hub'⟩ := step'
      obtain ⟨rfl, hbeside⟩ : next' = next ∧ hub.Beside a hub' := hpaired
      cases next' with
      | onward q => exact .some ⟨rfl, hbeside⟩
      | emit e q => exact .some (paired_handOver hbeside)
      | ended => exact .some (paired_finish hbeside)
  | handing p e wait =>
    cases wait with
    | room => exact paired_deposit hb
    | callback due ending =>
      dsimp only
      rw [hnow]
      split
      · exact .some (paired_endCall hb)
      · exact .none
    | forever => exact .none

theorem paired_advance (hb : h.Beside a h') (hid : id ≠ a) :
    Option.Rel (Hub.Paired a) (s.advance? h id) (s.advance? h' id) := by
  unfold Subscription.advance?
  split
  · exact .none
  · split
    · exact .some (paired_stop hb)
    · exact paired_proceed hb hid

theorem marks_eq (hb : h.Beside a h') (hid : id ≠ a) : s.marks h' id = s.marks h id := by
  obtain ⟨-, hstore, hscript⟩ := hb.shared
  unfold Subscription.marks
  split
  · rfl
  · cases s.stage with
    | spawned =>
      -- Both backends take the registration or both refuse it.
      have hregister := hb.backend.register s.target id
      dsimp only
      rw [hscript]
      generalize s.target.register id h.transport.backend = x at hregister
      generalize s.target.register id h'.transport.backend = x' at hregister
      cases hregister with
      | ok hbackend => cases h.transport.script.subscribe <;> rfl
      | error error => cases h.transport.script.subscribe <;> rfl
    | registering due =>
      dsimp only
      rw [hstore]
    | streaming p =>
      obtain ⟨hpipeline, hgiven⟩ := Pipeline.paired_advance p s.target hb hid
      dsimp only
      rw [hgiven]
      generalize p.advance? s.target h id = x at hpipeline
      generalize p.advance? s.target h' id = x' at hpipeline
      cases hpipeline with
      | none => rfl
      | @some step step' hpaired =>
        obtain ⟨next, hub⟩ := step
        obtain ⟨next', hub'⟩ := step'
        obtain ⟨rfl, -⟩ : next' = next ∧ hub.Beside a hub' := hpaired
        cases next' with
        | onward q => rfl
        | emit e q => rfl
        | ended => rfl
    | stopped => rfl
    | handing p e wait => cases wait <;> rfl

/-! What the subscription `a` does on one side -/

theorem handOver_own (hb : h.Beside a h') : (s.handOver h a p e).2.Beside a h' := by
  unfold Subscription.handOver
  cases s.consumer with
  | stream m => exact hb
  | channel m => exact hb
  | callback log panics => exact hb.count_own _
  | asyncCallback log behave =>
    dsimp only
    cases behave log.begun with
    | crash => exact hb.subscriptionClosed_own
    | works delay ending => exact hb

theorem register_own (hb : h.Beside a h') : (s.register h a).2.Beside a h' := by
  have hopened : h.subscriptionOpened.Beside a h' := hb.count_own _
  unfold Subscription.register
  dsimp only
  cases h.subscriptionOpened.transport.script.subscribe with
  | crash => exact hopened.subscriptionClosed_own
  | fail error => exact hopened.subscriptionClosed_own
  | handOn =>
    dsimp only
    cases hregister : s.target.register a h.subscriptionOpened.transport.backend with
    | error error => exact hopened.subscriptionClosed_own
    | ok backend => exact hopened.withBackend_own (hopened.backend.register_own hregister)

theorem deposit_own {s' : Subscription} {hub : Hub} {p : Pipeline} {e : Event} (hb : h.Beside a h')
    (hstep : s.deposit? h a p e = some (s', hub)) : hub.Beside a h' := by
  unfold Subscription.deposit? at hstep
  split at hstep
  · cases hstep
  · split at hstep
    · cases hstep
      exact hb.subscriptionClosed_own
    · split at hstep
      · cases hstep
        exact hb.count_own _
      · cases hstep

theorem endCall_own {p : Pipeline} {e : Event} {ending : CallEnd} (hb : h.Beside a h') :
    (s.endCall h p e ending).2.Beside a h' := by
  unfold Subscription.endCall
  cases ending with
  | returns => exact hb.count_own _
  | panics => exact hb.count_own _
  | unsubscribes => exact hb

theorem proceed_own {s' : Subscription} {hub : Hub} (hb : h.Beside a h')
    (hstep : s.proceed? h a = some (s', hub)) : hub.Beside a h' := by
  unfold Subscription.proceed? at hstep
  cases hstage : s.stage with
  | stopped =>
    rw [hstage] at hstep
    cases hstep
  | spawned =>
    simp only [hstage] at hstep
    have hregister := register_own (s := s) hb
    rwa [Option.some.inj hstep] at hregister
  | registering due =>
    simp only [hstage] at hstep
    split at hstep
    · cases hstep
      exact hb
    · cases hstep
  | streaming p =>
    simp only [hstage] at hstep
    split at hstep
    next => cases hstep
    next hadvance =>
      cases hstep
      exact Pipeline.advance_own hb hadvance
    next e q between hadvance =>
      have hhand := handOver_own (s := s) (p := q) (e := e) (Pipeline.advance_own hb hadvance)
      rwa [Option.some.inj hstep] at hhand
    next hadvance =>
      cases hstep
      exact (Pipeline.advance_own hb hadvance).subscriptionClosed_own
  | handing p e wait =>
    simp only [hstage] at hstep
    cases wait with
    | room => exact deposit_own hb hstep
    | callback due ending =>
      dsimp only at hstep
      split at hstep
      · have hend : (s.endCall h p e ending).2.Beside a h' := endCall_own hb
        rwa [Option.some.inj hstep] at hend
      · cases hstep
    | forever => cases hstep

theorem advance_own {s' : Subscription} {hub : Hub} (hb : h.Beside a h')
    (hstep : s.advance? h a = some (s', hub)) : hub.Beside a h' := by
  unfold Subscription.advance? at hstep
  split at hstep
  · cases hstep
  · split at hstep
    · have hstop : (s.stop h a).2.Beside a h' := by
        unfold Subscription.stop
        dsimp only
        split
        · exact hb
        · exact hb.subscriptionClosed_own
      rwa [Option.some.inj hstep] at hstop
    · exact proceed_own hb hstep

end Subscription

end Observatory
