import Observatory.Proofs.Service.View

/-!
# Services as views

Every action of a service is a step of its view. Each operation of the service is followed once,
here; what holds of all runs is then a matter of the steps of views.
-/

namespace Observatory

namespace View

theorem Step.unchanged {v v' : View} (h : v' = v) : Step v [] v' := by
  subst h
  exact .read [] fun m hm => absurd hm List.not_mem_nil

theorem setFlight_of_eq {v : View} {id : PublisherId} {flight : Option InFlight}
    (h : flight = v.flight id) : v.setFlight id flight = v := by
  subst h
  simp only [setFlight, Function.update_eq_self]

end View

namespace Service

variable {s s' : Service}

/-! ## Publishers -/

theorem publisher_of_get? {id : PublisherId} {p : Publisher} (h : s.publishers.get? id = some p) :
    s.publisher id = p := by
  rw [publisher, h]
  rfl

theorem inFlight_withPublisher (s : Service) (id : PublisherId) (p : Publisher) :
    (fun id' => ((s.withPublisher id p).publisher id').inFlight) =
      Function.update (fun id' => (s.publisher id').inFlight) id p.inFlight := by
  funext id'
  by_cases h : id' = id
  · subst h
    simp [publisher, withPublisher]
  · simp [publisher, withPublisher, h]

theorem view_withPublisher (s : Service) (id : PublisherId) (p : Publisher) :
    (s.withPublisher id p).view = s.view.setFlight id p.inFlight := by
  simp only [view, View.setFlight, ← inFlight_withPublisher]
  rfl

theorem view_withPublisher_of_eq {id : PublisherId} {p : Publisher}
    (h : p.inFlight = (s.publisher id).inFlight) : (s.withPublisher id p).view = s.view := by
  rw [view_withPublisher]
  exact View.setFlight_of_eq h

theorem inFlight_publish (p : Publisher) (event : Event) :
    (p.publish event).2.inFlight = p.inFlight := by
  unfold Publisher.publish
  dsimp only
  split
  · rfl
  · split
    · rfl
    · rfl

theorem view_publish (s : Service) (id : PublisherId) (event : Event) :
    (s.publish id event).2.view = s.view :=
  view_withPublisher_of_eq (inFlight_publish _ event)

theorem view_usePublisher (s : Service) (id : PublisherId) : (s.usePublisher id).view = s.view :=
  view_withPublisher_of_eq rfl

theorem view_closePublisher (s : Service) (id : PublisherId) :
    (s.closePublisher id).view = s.view := by
  unfold closePublisher
  dsimp only
  split
  · rfl
  · change (s.withPublisher id (s.publisher id).close).view = s.view
    exact view_withPublisher_of_eq rfl

theorem view_shutdown (s : Service) :
    s.shutdown.view = s.view.withBackend s.view.backend.shutdown := by
  have hclose : (if s.publishers.contains .shared then s.closePublisher .shared else s).view =
      s.view := by
    split
    · exact view_closePublisher s .shared
    · rfl
  unfold shutdown
  rw [← hclose]
  rfl

theorem inFlight_use (task : PublishTask) (p : Publisher) (product : Product) :
    (task.use p product).2.inFlight = p.inFlight := by
  cases product with
  | event e => exact inFlight_publish p e
  | nothing => rfl
  | panic => rfl

theorem inFlight_advanceTask {task task' : PublishTask} {h : Hub} {p p' : Publisher}
    (hstep : task.advance? h p = some (task', p')) : p'.inFlight = p.inFlight := by
  unfold PublishTask.advance? at hstep
  cases hphase : task.phase with
  | finished =>
    rw [hphase] at hstep
    cases hstep
  | idle =>
    rw [hphase] at hstep
    obtain ⟨_, _, heq⟩ := Option.map_eq_some_iff.1 hstep
    cases heq
    rfl
  | making due product =>
    simp only [hphase] at hstep
    split at hstep
    · cases hstep
      rfl
    · split at hstep
      · have huse := inFlight_use task p product
        rwa [Option.some.inj hstep] at huse
      · cases hstep
  | publishing ticket =>
    rw [hphase] at hstep
    obtain ⟨_, _, heq⟩ := Option.map_eq_some_iff.1 hstep
    cases heq
    rfl

theorem view_advanceTask {id : TaskId} (h : s.advanceTask? id = some s') : s'.view = s.view := by
  simp only [advanceTask?, Option.bind_eq_bind, Option.bind_eq_some_iff] at h
  obtain ⟨entry, _, ⟨task, p⟩, hstep, heq⟩ := h
  cases heq
  exact view_withPublisher_of_eq (inFlight_advanceTask hstep)

/-! ## Drivers of publishers -/

theorem view_advance (id : PublisherId) (p : Publisher) (h : Hub) :
    { s.withPublisher id p with hub := h }.view =
      ((s.view.withStore h.store).withBackend h.transport.backend).setFlight id p.inFlight := by
  simp only [view, View.setFlight, View.withStore, View.withBackend, ← inFlight_withPublisher]
  rfl

theorem step_answer {id : PublisherId} {p p' : Publisher} {h : Hub} {flight : InFlight}
    (hp : s.publishers.get? id = some p) (hflight : p.inFlight = some flight)
    (hstep : p.answer s.hub flight = (p', h)) :
    View.Step s.view [flight.answerMark s.hub] { s.withPublisher id p' with hub := h }.view := by
  have hview : s.view.flight id = some flight := by
    rw [← hflight, ← publisher_of_get? hp]
    rfl
  rw [view_advance]
  unfold Publisher.answer at hstep
  unfold InFlight.answerMark
  cases hverdict : flight.verdict with
  | crash =>
    rw [hverdict] at hstep
    cases hstep
    exact .crash id flight hview
  | fail error =>
    rw [hverdict] at hstep
    cases hstep
    exact .refuse id flight hview
  | handOn =>
    simp only [hverdict] at hstep ⊢
    cases hpublish : s.hub.transport.backend.publish flight.written with
    | error error =>
      simp only [hpublish] at hstep ⊢
      cases hstep
      exact .refuse id flight hview
    | ok backend =>
      simp only [hpublish] at hstep ⊢
      cases hstep
      exact .accept id flight backend hview hpublish

theorem step_advancePublisher {id : PublisherId} (h : s.advancePublisher? id = some s') :
    View.Step s.view (s.marks (.step (.publisher id))) s'.view := by
  simp only [advancePublisher?, Option.bind_eq_bind, Option.bind_eq_some_iff] at h
  obtain ⟨p, hp, ⟨p', hub⟩, hstep, heq⟩ := h
  cases heq
  simp only [marks, hp, Option.elim_some, Publisher.marks]
  unfold Publisher.advance? at hstep
  split at hstep
  · cases hstep
  · cases hflight : p.inFlight with
    | some flight =>
      simp only [hflight] at hstep ⊢
      split at hstep
      · exact step_answer hp hflight (Option.some.inj hstep)
      · cases hstep
    | none =>
      cases hqueue : p.queue with
      | nil =>
        simp only [hflight, hqueue] at hstep
        cases hstep
      | cons request rest =>
        simp only [hflight, hqueue] at hstep ⊢
        cases hstep
        have hfree : s.view.flight id = none := by
          rw [← hflight, ← publisher_of_get? hp]
          rfl
        rw [view_advance]
        exact View.Step.offer id request.event
          ⟨request.ticket, ⟨s.hub.store.lastStamp + 1, request.event⟩,
            s.hub.store.entries.get? request.event.key, s.hub.transport.script.publish,
            s.hub.now + s.hub.transport.script.publishDelay⟩ hfree rfl rfl

/-! ## Subscriptions -/

theorem view_modifySubscription {id : ReaderId} {f : Subscription → Subscription}
    (hf : ∀ sub, (f sub).standing = sub.standing) :
    (s.modifySubscription id f).view = s.view := by
  have hstanding : (fun id' => ((s.subscriptions.modify id f).get? id').map
      Subscription.standing) = fun id' => (s.subscriptions.get? id').map Subscription.standing := by
    funext id'
    by_cases h : id' = id
    · subst h
      rw [Table.get?_modify_self, Option.map_map]
      exact congrArg (fun g => (s.subscriptions.get? id').map g) (funext hf)
    · rw [Table.get?_modify_of_ne _ _ h]
  simp only [view, ← hstanding]
  rfl

theorem standing_unsubscribed (sub : Subscription) :
    (sub.unsubscribed?.getD sub).standing = sub.standing := by
  unfold Subscription.unsubscribed?
  split
  · rfl
  · rfl

theorem standing_dropConsumer (sub : Subscription) : sub.dropConsumer.standing = sub.standing := by
  unfold Subscription.dropConsumer
  split
  · rfl
  · rfl
  · rfl

theorem standing_take (sub : Subscription) : sub.take.2.standing = sub.standing := by
  unfold Subscription.take
  cases sub.consumer.mailbox? with
  | none => rfl
  | some m =>
    dsimp only
    split
    all_goals
      split
      · rfl
      · cases m.items with
        | nil => rfl
        | cons e items => rfl

theorem standing_takeCalls (sub : Subscription) (limit : Nat) :
    (sub.takeCalls limit).2.standing = sub.standing := by
  unfold Subscription.takeCalls
  split
  · rfl
  · rfl

theorem standing_insert (s : Service) (id : ReaderId) (sub : Subscription) :
    (fun id' => ((s.subscriptions.insert id sub).get? id').map Subscription.standing) =
      Function.update (fun id' => (s.subscriptions.get? id').map Subscription.standing) id
        (some sub.standing) := by
  funext id'
  by_cases h : id' = id
  · subst h
    simp
  · simp [h]

theorem view_insert (id : ReaderId) (sub : Subscription) {h : Hub}
    (hstore : h.store = s.hub.store) :
    { s with hub := h, subscriptions := s.subscriptions.insert id sub }.view =
      (s.view.withBackend h.transport.backend).setStanding id sub.standing := by
  simp only [view, View.setStanding, View.withBackend, ← standing_insert, hstore]
  rfl

theorem step_subscribe {id : ReaderId} (target : Target) (rate : Option RateControl)
    (consumer : Consumer) (hfree : s.subscriptions.contains id = false) :
    View.Step s.view [] (s.subscribe id target rate consumer).view := by
  have hnone : s.view.standing id = none := by
    rw [Table.contains, Option.isSome_eq_false_iff, Option.isNone_iff_eq_none] at hfree
    simp only [view, hfree, Option.map_none]
  have hview : (s.subscribe id target rate consumer).view =
      s.view.setStanding id ⟨target, rate, .spawned⟩ :=
    view_insert id (.start target rate consumer) rfl
  rw [hview]
  exact .subscribe id target rate hnone

/-! ## Drivers of subscriptions -/

theorem standing_of_get? {id : ReaderId} {sub : Subscription}
    (h : s.subscriptions.get? id = some sub) : s.view.standing id = some sub.standing := by
  simp only [view, h, Option.map_some]

/-- A driver that ends leaves at most its reader behind in need of removal. -/
theorem step_stopped {id : ReaderId} {sub sub' : Subscription} {h : Hub}
    (hsub : s.subscriptions.get? id = some sub)
    (htarget : sub'.target = sub.target) (hrate : sub'.rate = sub.rate)
    (hstage : sub'.stage = .stopped) (hstore : h.store = s.hub.store)
    (hbackend : h.transport.backend = s.hub.transport.backend ∨
      h.transport.backend = s.hub.transport.backend.drop id) :
    View.Step s.view []
      { s with hub := h, subscriptions := s.subscriptions.insert id sub' }.view := by
  rw [view_insert id sub' hstore]
  have hstanding : sub'.standing = ⟨sub.target, sub.rate, .stopped⟩ := by
    rw [Subscription.standing, htarget, hrate, hstage]
  rw [hstanding]
  exact .stop id sub.target sub.rate sub.stage _ (standing_of_get? hsub) hbackend

theorem step_stop {id : ReaderId} {sub : Subscription} (hsub : s.subscriptions.get? id = some sub) :
    View.Step s.view []
      { s with hub := (sub.stop s.hub id).2
               subscriptions := s.subscriptions.insert id (sub.stop s.hub id).1 }.view := by
  unfold Subscription.stop
  dsimp only
  split
  · exact step_stopped hsub rfl rfl rfl rfl (.inl rfl)
  · exact step_stopped hsub rfl rfl rfl rfl (.inr rfl)

theorem step_register {id : ReaderId} {sub : Subscription}
    (hsub : s.subscriptions.get? id = some sub) (hstage : sub.stage = .spawned)
    (hcancel : sub.cancelRaised = false) :
    View.Step s.view (sub.marks s.hub id)
      { s with hub := (sub.register s.hub id).2
               subscriptions := s.subscriptions.insert id (sub.register s.hub id).1 }.view := by
  simp only [Subscription.marks, hcancel, hstage]
  unfold Subscription.register
  dsimp only
  have hscript : s.hub.subscriptionOpened.transport = s.hub.transport := rfl
  rw [hscript]
  cases s.hub.transport.script.subscribe with
  | crash => exact step_stopped hsub rfl rfl rfl rfl (.inr rfl)
  | fail error => exact step_stopped hsub rfl rfl rfl rfl (.inr rfl)
  | handOn =>
    cases hregister : sub.target.register id s.hub.transport.backend with
    | error error => exact step_stopped hsub rfl rfl rfl rfl (.inr rfl)
    | ok backend =>
      dsimp only
      rw [view_insert]
      · refine View.Step.register id sub.target sub.rate _ backend ?_ hregister
        rw [← hstage]
        exact standing_of_get? hsub
      · rfl

theorem inflow_advance {p : Pipeline} {target : Target} {h h' : Hub} {id : ReaderId}
    {next : Pipeline.Step} (hstep : p.advance? target h id = some (next, h')) :
    Inflow id target h.transport.backend p (p.givenMarks h id) next h'.transport.backend ∧
      h'.store = h.store := by
  unfold Pipeline.advance? at hstep
  unfold Pipeline.givenMarks
  cases hseeds : p.seeds with
  | cons e seeds =>
    simp only [hseeds] at hstep
    cases hstep
    exact ⟨.seed e seeds hseeds, rfl⟩
  | nil =>
    simp only [hseeds] at hstep
    cases hquiet : h.transport.backend.isQuiet id with
    | true =>
      rw [hquiet, if_pos rfl] at hstep
      obtain ⟨_, htick, heq⟩ := Option.map_eq_some_iff.1 hstep
      cases heq
      exact ⟨.tick h.now _ hseeds htick, rfl⟩
    | false =>
      rw [hquiet, if_neg (by decide)] at hstep
      cases hresult : (h.transport.backend.next id).result with
      | item w =>
        simp only [Hub.nextLive, hresult] at hstep ⊢
        cases hstep
        exact ⟨.live w hseeds hresult, rfl⟩
      | pending =>
        simp only [Hub.nextLive, hresult] at hstep ⊢
        cases hstep
        exact ⟨.pending hseeds hresult, rfl⟩
      | ended =>
        simp only [Hub.nextLive, hresult] at hstep ⊢
        cases hstep
        exact ⟨.ended hseeds hresult, rfl⟩

/-- Handing over an event changes of a subscription its stage and its consumer only. -/
theorem outflow_handOver (sub : Subscription) (h : Hub) (id : ReaderId) (p : Pipeline) (e : Event) :
    Outflow id h.transport.backend (.emit e p) (sub.consumer.marks id e)
        (sub.handOver h id p e).1.stage (sub.handOver h id p e).2.transport.backend ∧
      (sub.handOver h id p e).2.store = h.store ∧
      (sub.handOver h id p e).1.standing =
        ⟨sub.target, sub.rate, (sub.handOver h id p e).1.stage⟩ := by
  unfold Subscription.handOver
  cases hconsumer : sub.consumer with
  | stream m => exact ⟨.wait p e, rfl, rfl⟩
  | channel m => exact ⟨.wait p e, rfl, rfl⟩
  | callback log panics => exact ⟨.call p e, rfl, rfl⟩
  | asyncCallback log behave =>
    dsimp only
    cases hcall : behave log.begun with
    | crash => exact ⟨.crash p e, rfl, rfl⟩
    | works delay ending => exact ⟨.begin p e (h.now + delay) ending, rfl, rfl⟩

theorem step_streaming {id : ReaderId} {sub sub' : Subscription} {h : Hub} {p : Pipeline}
    (hsub : s.subscriptions.get? id = some sub) (hstage : sub.stage = .streaming p)
    (hcancel : sub.cancelRaised = false)
    (hstep : sub.proceed? s.hub id = some (sub', h)) :
    View.Step s.view (sub.marks s.hub id)
      { s with hub := h, subscriptions := s.subscriptions.insert id sub' }.view := by
  have hstanding : s.view.standing id = some ⟨sub.target, sub.rate, .streaming p⟩ := by
    rw [← hstage]
    exact standing_of_get? hsub
  simp only [Subscription.proceed?, hstage] at hstep
  simp only [Subscription.marks, hcancel, hstage]
  cases hadvance : p.advance? sub.target s.hub id with
  | none =>
    rw [hadvance] at hstep
    cases hstep
  | some taken =>
    obtain ⟨next, between⟩ := taken
    obtain ⟨hin, hstore⟩ := inflow_advance hadvance
    rw [hadvance] at hstep
    cases next with
    | onward q =>
      cases hstep
      rw [view_insert id _ hstore]
      exact .flow id sub.target sub.rate p _ _ [] _ _ _ hstanding hin (.onward q)
    | ended =>
      cases hstep
      have hclosed : (between.subscriptionClosed id).store = s.hub.store := hstore
      rw [view_insert id _ hclosed]
      exact .flow id sub.target sub.rate p _ _ [] _ _ _ hstanding hin .ended
    | emit e q =>
      obtain ⟨hout, hafter, hsame⟩ := outflow_handOver sub between id q e
      simp only [Option.some.injEq] at hstep
      rw [hstep] at hout hafter hsame
      rw [view_insert id sub' (hafter.trans hstore), hsame]
      exact .flow id sub.target sub.rate p _ _ _ _ _ _ hstanding hin hout

theorem step_deposit {id : ReaderId} {sub sub' : Subscription} {h : Hub} {p : Pipeline} {e : Event}
    (hsub : s.subscriptions.get? id = some sub) (hstage : sub.stage = .handing p e .room)
    (hcancel : sub.cancelRaised = false)
    (hstep : sub.deposit? s.hub id p e = some (sub', h)) :
    View.Step s.view (sub.marks s.hub id)
      { s with hub := h, subscriptions := s.subscriptions.insert id sub' }.view := by
  simp only [Subscription.marks, hcancel, hstage]
  unfold Subscription.deposit? at hstep
  cases hmailbox : sub.consumer.mailbox? with
  | none =>
    rw [hmailbox] at hstep
    cases hstep
  | some m =>
    simp only [hmailbox] at hstep
    cases hopen : m.isOpen with
    | false =>
      simp only [hopen] at hstep
      cases hstep
      simp only [Option.map_some, hopen, Option.getD_some]
      exact step_stopped hsub rfl rfl rfl rfl (.inr rfl)
    | true =>
      simp only [hopen, Bool.not_true, Bool.false_eq_true, if_false] at hstep
      split at hstep
      · cases hstep
        simp only [Option.map_some, hopen, Option.getD_some]
        have hstore : s.hub.eventDelivered.store = s.hub.store := rfl
        rw [view_insert id _ hstore]
        refine .deposit id sub.target sub.rate p e ?_
        rw [← hstage]
        exact standing_of_get? hsub
      · cases hstep

theorem step_endCall {id : ReaderId} {sub sub' : Subscription} {h : Hub} {p : Pipeline} {e : Event}
    {due : Nat} {ending : CallEnd} (hsub : s.subscriptions.get? id = some sub)
    (hstage : sub.stage = .handing p e (.callback due ending))
    (hstep : sub.endCall s.hub p e ending = (sub', h)) :
    View.Step s.view []
      { s with hub := h, subscriptions := s.subscriptions.insert id sub' }.view := by
  have hstanding : s.view.standing id = some ⟨sub.target, sub.rate,
      .handing p e (.callback due ending)⟩ := by
    rw [← hstage]
    exact standing_of_get? hsub
  have hafter : h.store = s.hub.store ∧ h.transport.backend = s.hub.transport.backend ∧
      ∃ stage, sub'.standing = ⟨sub.target, sub.rate, stage⟩ ∧
        (stage = .streaming p ∨ stage = .handing p e .forever) := by
    unfold Subscription.endCall at hstep
    cases hlog : sub.consumer.log? with
    | none =>
      simp only [hlog] at hstep
      cases ending with
      | returns => cases hstep; exact ⟨rfl, rfl, _, rfl, .inl rfl⟩
      | panics => cases hstep; exact ⟨rfl, rfl, _, rfl, .inl rfl⟩
      | unsubscribes => cases hstep; exact ⟨rfl, rfl, _, rfl, .inr rfl⟩
    | some log =>
      simp only [hlog] at hstep
      cases ending with
      | returns => cases hstep; exact ⟨rfl, rfl, _, rfl, .inl rfl⟩
      | panics => cases hstep; exact ⟨rfl, rfl, _, rfl, .inl rfl⟩
      | unsubscribes => cases hstep; exact ⟨rfl, rfl, _, rfl, .inr rfl⟩
  obtain ⟨hstore, hbackend, stage, hsame, hcases⟩ := hafter
  rw [view_insert id sub' hstore, hsame, hbackend]
  exact .endCall id sub.target sub.rate p e due ending stage hstanding hcases

theorem step_advanceSubscription {id : ReaderId} (h : s.advanceSubscription? id = some s') :
    View.Step s.view (s.marks (.step (.subscription id))) s'.view := by
  simp only [advanceSubscription?, Option.bind_eq_bind, Option.bind_eq_some_iff] at h
  obtain ⟨sub, hsub, ⟨sub', hub⟩, hstep, heq⟩ := h
  cases heq
  simp only [marks, hsub, Option.elim_some]
  unfold Subscription.advance? at hstep
  split at hstep
  · cases hstep
  · split at hstep
    next hcancel =>
      -- A driver that was told to stop does so, whatever it is at, and nothing is seen of that.
      have hmarks : sub.marks s.hub id = [] := by rw [Subscription.marks, if_pos hcancel]
      rw [hmarks]
      have hstop := step_stop hsub
      rwa [Option.some.inj hstep] at hstop
    next hcancel =>
      rw [Bool.not_eq_true] at hcancel
      cases hstage : sub.stage with
      | stopped =>
        simp only [Subscription.proceed?, hstage] at hstep
        cases hstep
      | spawned =>
        simp only [Subscription.proceed?, hstage] at hstep
        have hregister := step_register hsub hstage hcancel
        rwa [Option.some.inj hstep] at hregister
      | registering due =>
        simp only [Subscription.proceed?, hstage] at hstep
        split at hstep
        · cases hstep
          simp only [Subscription.marks, hcancel, hstage]
          rw [view_insert id _ rfl]
          refine .activate id sub.target sub.rate due s.hub.now ?_
          rw [← hstage]
          exact standing_of_get? hsub
        · cases hstep
      | streaming p => exact step_streaming hsub hstage hcancel hstep
      | handing p e wait =>
        cases wait with
        | room =>
          simp only [Subscription.proceed?, hstage] at hstep
          exact step_deposit hsub hstage hcancel hstep
        | callback due ending =>
          simp only [Subscription.proceed?, hstage] at hstep
          simp only [Subscription.marks, hcancel, hstage]
          split at hstep
          · exact step_endCall hsub hstage (Option.some.inj hstep)
          · cases hstep
        | forever =>
          simp only [Subscription.proceed?, hstage] at hstep
          cases hstep

/-! ## Actions -/

theorem getAll_marks (s : Service) (keys : List EventKey) :
    ∀ m ∈ s.marks (.getAll keys), ∃ key, m = .read key (s.view.store.read key) := by
  intro m hm
  obtain ⟨key, _, rfl⟩ := List.mem_map.1 hm
  exact ⟨key, rfl⟩

/-- Every action of a service is a step of its view. -/
theorem step_view {a : Action} (h : s.perform? a = some s') :
    View.Step s.view (s.marks a) s'.view := by
  cases a with
  | publish id event =>
    cases h
    exact .unchanged (view_publish s id event)
  | usePublisher id =>
    cases h
    exact .unchanged (view_usePublisher s id)
  | closePublisher id =>
    cases h
    exact .unchanged (view_closePublisher s id)
  | shutdown =>
    cases h
    rw [view_shutdown]
    exact .shutdown
  | startPeriodic id publisher schedule generate reports =>
    simp only [perform?] at h
    split at h
    · cases h
    · unfold startPeriodic at h
      cases hcheck : schedule.check with
      | error error =>
        rw [hcheck] at h
        cases h
      | ok _ =>
        rw [hcheck] at h
        cases h
        exact .unchanged (view_usePublisher s publisher)
  | startStream id publisher item reports =>
    simp only [perform?] at h
    split at h
    · cases h
    · cases h
      exact .unchanged (view_usePublisher s publisher)
  | cancelTask id =>
    cases h
    exact .unchanged rfl
  | takeFailures id =>
    cases h
    exact .unchanged rfl
  | subscribe id target rate consumer =>
    simp only [perform?] at h
    split at h
    next => cases h
    next hfree =>
      cases h
      rw [Bool.not_eq_true] at hfree
      exact step_subscribe target rate consumer hfree
  | raiseCancel id =>
    cases h
    exact .unchanged (view_modifySubscription fun _ => rfl)
  | endUnsubscribe id =>
    cases h
    exact .unchanged (view_modifySubscription standing_unsubscribed)
  | dropConsumer id =>
    cases h
    exact .unchanged (view_modifySubscription standing_dropConsumer)
  | take id =>
    cases h
    exact .unchanged (view_modifySubscription standing_take)
  | takeCalls id limit =>
    cases h
    exact .unchanged (view_modifySubscription fun sub => standing_takeCalls sub limit)
  | get key =>
    cases h
    refine .read _ fun m hm => ⟨key, ?_⟩
    exact List.mem_singleton.1 hm
  | getAll keys =>
    cases h
    exact .read _ (getAll_marks s keys)
  | clearStore =>
    cases h
    exact .clear
  | script script =>
    cases h
    exact .unchanged rfl
  | rewire transport =>
    cases h
    exact .rewire transport.backend
  | wait time =>
    cases h
    exact .unchanged rfl
  | step actor =>
    cases actor with
    | publisher id => exact step_advancePublisher h
    | task id => exact .unchanged (view_advanceTask h)
    | subscription id => exact step_advanceSubscription h

end Service

end Observatory
