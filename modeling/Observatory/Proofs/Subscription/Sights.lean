import Observatory.Proofs.Service.Trail

/-!
# What is seen of a subscription

The states that a subscription goes through, the refusal of its registration, and the ends of
unsubscribes. Whatever a service does, a subscription makes one of few moves.
-/

namespace Observatory

/-- What is seen of a subscription. -/
inductive Sight where
  /-- The transport did not take the registration. -/
  | refused (error : BusError)
  /-- An unsubscribe came to its end. -/
  | resolved
  /-- The state after an action. -/
  | state (x : Lifecycle)
  deriving DecidableEq

/-- Whether events go to a stream. -/
def Consumer.isStream : Consumer → Bool
  | .stream _ => true
  | _ => false

/-- The refusal that the next step of the driver runs into, if it does. -/
def Subscription.refusals (s : Subscription) (h : Hub) (id : ReaderId) : List Sight :=
  if s.cancelRaised then []
  else
    match s.stage with
    | .spawned =>
      match h.transport.script.subscribe, s.target.register id h.transport.backend with
      | .fail error, _ => [.refused (.transport error)]
      | .handOn, .error error => [.refused (.transport error)]
      | _, _ => []
    | _ => []

namespace Service

/-- What an action says of the subscription of a name. -/
def signals (id : ReaderId) (s : Service) : Action → List Sight
  | .step (.subscription id') =>
    if id' = id then (s.subscriptions.get? id).elim [] fun sub => sub.refusals s.hub id else []
  | .endUnsubscribe id' =>
    if id' = id then
      (s.subscriptions.get? id).elim [] fun sub =>
        if sub.unsubscribed?.isSome then [.resolved] else []
    else []
  | _ => []

/-- What is seen of an action, the state at last. -/
def sights (id : ReaderId) (s : Service) (a : Action) : List Sight :=
  s.signals id a ++
    (((s.perform? a).bind fun next => next.subscriptions.get? id).map fun sub =>
      .state sub.state).toList

end Service

namespace Subscription

/-- What can become of a subscription at once, and what is said of it. -/
inductive Move (s : Subscription) : List Sight → Subscription → Prop where
  /-- Nothing that changes its state. -/
  | onward (s' : Subscription) (hstate : s'.state = s.state)
      (hspawned : s'.stage = .spawned → s.stage = .spawned)
      (hstopped : s.stage = .stopped → s'.stage = .stopped)
      (hcancel : s.cancelRaised = true → s'.cancelRaised = true)
      (hstream : s'.consumer.isStream = s.consumer.isStream) : Move s [] s'
  | refuse (error : BusError) (hspawned : s.stage = .spawned) :
      Move s [.refused error] { s with stage := .stopped, state := s.state.refuse error }
  | acknowledge (stage : Stage) (hrunning : s.stage ≠ .stopped) (hspawned : stage ≠ .spawned) :
      Move s [] { s with stage, state := s.state.acknowledge }
  | stop (hrunning : s.stage ≠ .stopped) :
      Move s [] { s with stage := .stopped, state := s.state.cancel }
  | resolve (hstopped : s.stage = .stopped) :
      Move s [.resolved] { s with state := s.state.cancel }

variable {s s' : Subscription} {h h' : Hub} {id : ReaderId} {p : Pipeline} {e : Event}

theorem isStopped_iff : s.isStopped = true ↔ s.stage = .stopped := by
  unfold isStopped
  cases s.stage <;> simp

/-- A driver that has not stopped goes on to any stage but the first. -/
theorem Move.advance (hrunning : s.stage ≠ .stopped) (hstate : s'.state = s.state)
    (hspawned : s'.stage ≠ .spawned) (hcancel : s.cancelRaised = true → s'.cancelRaised = true)
    (hstream : s'.consumer.isStream = s.consumer.isStream) : s.Move [] s' :=
  .onward s' hstate (fun h => absurd h hspawned) (fun h => absurd h hrunning) hcancel hstream

theorem Move.consumer {consumer : Consumer} (hstream : consumer.isStream = s.consumer.isStream) :
    s.Move [] { s with consumer } :=
  .onward _ rfl id id id hstream

theorem isStream_withMailbox (consumer : Consumer) (m : Mailbox) :
    (consumer.withMailbox m).isStream = consumer.isStream := by
  cases consumer <;> rfl

theorem isStream_withLog (consumer : Consumer) (log : CallLog) :
    (consumer.withLog log).isStream = consumer.isStream := by
  cases consumer <;> rfl

theorem Move.rest (s : Subscription) : s.Move [] s :=
  .consumer rfl

theorem Move.take (s : Subscription) : s.Move [] s.take.2 := by
  unfold Subscription.take
  cases s.consumer.mailbox? with
  | none => exact .rest s
  | some m =>
    dsimp only
    split
    all_goals
      split
      · exact .rest s
      · cases m.items with
        | nil => exact .rest s
        | cons e items => exact .consumer (isStream_withMailbox s.consumer { m with items })

theorem Move.takeCalls (s : Subscription) (limit : Nat) : s.Move [] (s.takeCalls limit).2 := by
  unfold Subscription.takeCalls
  split
  · exact .rest s
  · exact .consumer (isStream_withLog ..)

theorem Move.dropConsumer (s : Subscription) : s.Move [] s.dropConsumer := by
  unfold Subscription.dropConsumer
  split
  next hconsumer => exact .onward _ rfl id id (fun _ => rfl) (by rw [hconsumer]; rfl)
  next hconsumer => exact .consumer (by rw [hconsumer]; rfl)
  next => exact .rest s

theorem Move.unsubscribed (s : Subscription) :
    s.Move (if s.unsubscribed?.isSome then [.resolved] else []) (s.unsubscribed?.getD s) := by
  unfold Subscription.unsubscribed?
  split
  next hstopped => exact .resolve (isStopped_iff.1 hstopped)
  next => exact .rest s

/-! ## The driver -/

theorem Move.stopped (hrunning : s.stage ≠ .stopped) : s.Move [] (s.stop h id).1 := by
  unfold Subscription.stop
  dsimp only
  split
  · exact .stop hrunning
  · exact .stop hrunning

theorem Move.register (hspawned : s.stage = .spawned) (hcancel : s.cancelRaised = false) :
    s.Move (s.refusals h id) (s.register h id).1 := by
  have hrunning : s.stage ≠ .stopped := by simp [hspawned]
  have hscript : h.subscriptionOpened.transport = h.transport := rfl
  have hrefusals : s.refusals h id =
      match h.transport.script.subscribe, s.target.register id h.transport.backend with
      | .fail error, _ => [.refused (.transport error)]
      | .handOn, .error error => [.refused (.transport error)]
      | _, _ => [] := by
    rw [Subscription.refusals, hcancel, if_neg Bool.false_ne_true, hspawned]
  rw [hrefusals]
  unfold Subscription.register
  dsimp only
  rw [hscript]
  cases h.transport.script.subscribe with
  | crash => exact .advance hrunning rfl (by simp [Subscription.finish]) (fun h => h) rfl
  | fail error => exact .refuse (.transport error) hspawned
  | handOn =>
    cases s.target.register id h.transport.backend with
    | error error => exact .refuse (.transport error) hspawned
    | ok backend => exact .advance hrunning rfl (by simp) (fun h => h) rfl

theorem Move.handOver (hrunning : s.stage ≠ .stopped) : s.Move [] (s.handOver h id p e).1 := by
  unfold Subscription.handOver
  cases hconsumer : s.consumer with
  | stream m => exact .advance hrunning rfl (by simp) (fun h => h) (by rw [hconsumer])
  | channel m => exact .advance hrunning rfl (by simp) (fun h => h) (by rw [hconsumer])
  | callback log panics =>
    exact .advance hrunning rfl (by simp) (fun h => h) (by rw [hconsumer]; rfl)
  | asyncCallback log behave =>
    dsimp only
    cases behave log.begun with
    | crash =>
      exact .advance hrunning rfl (by simp [Subscription.finish]) (fun h => h)
        (by rw [hconsumer]; rfl)
    | works delay ending =>
      exact .advance hrunning rfl (by simp) (fun h => h) (by rw [hconsumer]; rfl)

theorem Move.deposit (hrunning : s.stage ≠ .stopped)
    (hstep : s.deposit? h id p e = some (s', h')) : s.Move [] s' := by
  unfold Subscription.deposit? at hstep
  split at hstep
  · cases hstep
  · split at hstep
    · cases hstep
      exact .advance hrunning rfl (by simp) (fun h => h) rfl
    · split at hstep
      · cases hstep
        exact .advance hrunning rfl (by simp) (fun h => h) (isStream_withMailbox ..)
      · cases hstep

theorem Move.endCall {ending : CallEnd} (hrunning : s.stage ≠ .stopped)
    (hstep : s.endCall h p e ending = (s', h')) : s.Move [] s' := by
  unfold Subscription.endCall at hstep
  cases hlog : s.consumer.log? with
  | none =>
    simp only [hlog] at hstep
    cases ending with
    | returns => cases hstep; exact .advance hrunning rfl (by simp) (fun h => h) rfl
    | panics => cases hstep; exact .advance hrunning rfl (by simp) (fun h => h) rfl
    | unsubscribes => cases hstep; exact .advance hrunning rfl (by simp) (fun _ => rfl) rfl
  | some log =>
    simp only [hlog] at hstep
    have hstream := isStream_withLog s.consumer (log.record h.now e)
    cases ending with
    | returns => cases hstep; exact .advance hrunning rfl (by simp) (fun h => h) hstream
    | panics => cases hstep; exact .advance hrunning rfl (by simp) (fun h => h) hstream
    | unsubscribes => cases hstep; exact .advance hrunning rfl (by simp) (fun _ => rfl) hstream

theorem Move.proceed (hrunning : s.stage ≠ .stopped) (hcancel : s.cancelRaised = false)
    (hstep : s.proceed? h id = some (s', h')) : s.Move (s.refusals h id) s' := by
  -- Only the first step of a driver can be refused.
  have hquiet : s.stage ≠ .spawned → s.refusals h id = [] := by
    intro hspawned
    unfold Subscription.refusals
    rw [hcancel, if_neg Bool.false_ne_true]
    split
    next heq => exact absurd heq hspawned
    next => rfl
  unfold Subscription.proceed? at hstep
  cases hstage : s.stage with
  | stopped => exact absurd hstage hrunning
  | spawned =>
    simp only [hstage] at hstep
    have hregister : s.Move (s.refusals h id) (s.register h id).1 := .register hstage hcancel
    rwa [Option.some.inj hstep] at hregister
  | registering due =>
    rw [hquiet (by simp [hstage])]
    simp only [hstage] at hstep
    split at hstep
    · cases hstep
      exact .acknowledge _ hrunning (by simp)
    · cases hstep
  | streaming p =>
    rw [hquiet (by simp [hstage])]
    simp only [hstage] at hstep
    split at hstep
    next => cases hstep
    next =>
      cases hstep
      exact .advance hrunning rfl (by simp) (fun h => h) rfl
    next e q hub _ =>
      have hhand : s.Move [] (s.handOver hub id q e).1 := .handOver hrunning
      rwa [Option.some.inj hstep] at hhand
    next =>
      cases hstep
      exact .advance hrunning rfl (by simp) (fun h => h) rfl
  | handing p e wait =>
    rw [hquiet (by simp [hstage])]
    simp only [hstage] at hstep
    cases wait with
    | room => exact .deposit hrunning hstep
    | callback due ending =>
      dsimp only at hstep
      split at hstep
      · exact .endCall hrunning (Option.some.inj hstep)
      · cases hstep
    | forever => cases hstep

theorem Move.driver (hstep : s.advance? h id = some (s', h')) : s.Move (s.refusals h id) s' := by
  unfold Subscription.advance? at hstep
  split at hstep
  next => cases hstep
  next hrunning =>
    rw [isStopped_iff] at hrunning
    split at hstep
    next hcancel =>
      have hquiet : s.refusals h id = [] := if_pos hcancel
      have hstop : s.Move [] (s.stop h id).1 := .stopped hrunning
      rw [hquiet]
      rwa [Option.some.inj hstep] at hstop
    next hcancel => exact .proceed hrunning (by simpa using hcancel) hstep

end Subscription

/-! ## Actions -/

namespace Service

/-- What becomes of the subscription of a name, if there is one. -/
inductive Change : Option Subscription → List Sight → Option Subscription → Prop where
  | none : Change none [] none
  | new (target : Target) (rate : Option RateControl) (consumer : Consumer) :
      Change Option.none [] (some (.start target rate consumer))
  | move {sub sub' : Subscription} {t : List Sight} (hmove : sub.Move t sub') :
      Change (some sub) t (some sub')

variable {s s' : Service} {id id' : ReaderId} {a : Action}

theorem Change.rest (x : Option Subscription) : Change x [] x := by
  cases x with
  | none => exact .none
  | some sub => exact .move (.rest sub)

theorem Change.modify {f : Subscription → Subscription}
    (hf : ∀ sub : Subscription, sub.Move [] (f sub)) :
    Change (s.subscriptions.get? id) [] ((s.modifySubscription id' f).subscriptions.get? id) := by
  unfold modifySubscription
  by_cases hid : id = id'
  · subst hid
    rw [Table.get?_modify_self]
    cases s.subscriptions.get? id with
    | none => exact .none
    | some sub => exact .move (hf sub)
  · rw [Table.get?_modify_of_ne _ _ hid]
    exact .rest _

theorem Change.endUnsubscribe :
    Change (s.subscriptions.get? id) (s.signals id (.endUnsubscribe id'))
      ((s.modifySubscription id' fun sub =>
        sub.unsubscribed?.getD sub).subscriptions.get? id) := by
  unfold modifySubscription
  by_cases hid : id' = id
  · subst hid
    rw [signals, if_pos rfl, Table.get?_modify_self]
    cases s.subscriptions.get? id' with
    | none => exact .none
    | some sub => exact .move (.unsubscribed sub)
  · rw [signals, if_neg hid, Table.get?_modify_of_ne _ _ (Ne.symm hid)]
    exact .rest _

theorem Change.driver (h : s.advanceSubscription? id' = some s') :
    Change (s.subscriptions.get? id) (s.signals id (.step (.subscription id')))
      (s'.subscriptions.get? id) := by
  obtain ⟨sub, sub', hub, hsub, hstep, rfl⟩ := exists_of_advanceSubscription h
  by_cases hid : id' = id
  · subst hid
    rw [signals, if_pos rfl, hsub, Table.get?_insert_self]
    exact .move (.driver hstep)
  · rw [signals, if_neg hid, Table.get?_insert_of_ne _ _ (Ne.symm hid)]
    exact .rest _

theorem subscriptions_closePublisher (s : Service) (id : PublisherId) :
    (s.closePublisher id).subscriptions = s.subscriptions := by
  obtain ⟨publishers, tasks, hclose⟩ := s.exists_of_closePublisher id
  rw [hclose]

theorem subscriptions_shutdown (s : Service) : s.shutdown.subscriptions = s.subscriptions := by
  obtain ⟨publishers, tasks, hshutdown⟩ := s.exists_of_shutdown
  rw [hshutdown]

/-- Whatever a service does, a subscription makes one of its moves. -/
theorem change (h : s.perform? a = some s') :
    Change (s.subscriptions.get? id) (s.signals id a) (s'.subscriptions.get? id) := by
  cases a with
  | subscribe id' target rate consumer =>
    simp only [perform?] at h
    split at h
    next => cases h
    next hfree =>
      cases h
      -- Names are given once, so this subscription begins now or goes by another name.
      change Change _ [] ((s.subscriptions.insert id' _).get? id)
      by_cases hid : id = id'
      · subst hid
        rw [Table.contains, Bool.not_eq_true, Option.isSome_eq_false_iff,
          Option.isNone_iff_eq_none] at hfree
        rw [hfree, Table.get?_insert_self]
        exact .new target rate consumer
      · rw [Table.get?_insert_of_ne _ _ hid]
        exact .rest _
  | raiseCancel id' =>
    cases h
    exact .modify fun sub => .onward _ rfl (fun h => h) (fun h => h) (fun _ => rfl) rfl
  | endUnsubscribe id' =>
    cases h
    exact .endUnsubscribe
  | dropConsumer id' =>
    cases h
    exact .modify .dropConsumer
  | take id' =>
    cases h
    exact .modify .take
  | takeCalls id' limit =>
    cases h
    exact .modify fun sub => .takeCalls sub limit
  | shutdown =>
    cases h
    rw [subscriptions_shutdown]
    exact .rest _
  | closePublisher id' =>
    cases h
    rw [subscriptions_closePublisher]
    exact .rest _
  | startPeriodic name publisher schedule generate reports =>
    obtain ⟨tasks, rfl⟩ := exists_of_startPeriodic h
    exact .rest _
  | startStream name publisher item reports =>
    obtain ⟨tasks, rfl⟩ := exists_of_startStream h
    exact .rest _
  | step actor =>
    cases actor with
    | subscription id' => exact .driver h
    | publisher id' =>
      obtain ⟨p, p', hub, -, -, rfl⟩ := exists_of_advancePublisher h
      exact .rest _
    | task name =>
      obtain ⟨entry, task, p, -, -, rfl⟩ := exists_of_advanceTask h
      exact .rest _
  | publish _ _ | usePublisher _ | cancelTask _ | takeFailures _ | get _ | getAll _ | clearStore
  | script _ | rewire _ | wait _ =>
    cases h
    exact .rest _

end Service

end Observatory
