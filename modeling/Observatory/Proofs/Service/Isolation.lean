import Observatory.Proofs.Service.Beside
import Observatory.Proofs.Service.Delivery

/-!
# Isolation of subscriptions

Two services that differ in one subscription at most go on to do so, whether both take a step that
is not about this subscription or one of them takes a step that is. So a run without the steps of a
subscription is the same run for everybody else.
-/

namespace Observatory

variable {a id : ReaderId}

/-- The subscription that an action is about. -/
def Action.reader? : Action → Option ReaderId
  | .subscribe id _ _ _ | .raiseCancel id | .endUnsubscribe id | .dropConsumer id | .take id
  | .takeCalls id _ | .step (.subscription id) => some id
  | _ => none

theorem Pipeline.reader?_givenMarks {p : Pipeline} {h : Hub} {m : Mark}
    (hm : m ∈ p.givenMarks h id) : m.reader? = some id := by
  unfold Pipeline.givenMarks at hm
  split at hm
  · split at hm
    · cases List.mem_singleton.1 hm
      rfl
    · cases hm
    · cases hm
  · cases hm

theorem Consumer.reader?_marks {consumer : Consumer} {e : Event} {m : Mark}
    (hm : m ∈ consumer.marks id e) : m.reader? = some id := by
  unfold Consumer.marks at hm
  split at hm
  · cases hm
  · cases hm
  · cases List.mem_singleton.1 hm
    rfl
  · cases List.mem_singleton.1 hm
    rfl

theorem Subscription.reader?_marks {sub : Subscription} {h : Hub} {m : Mark}
    (hm : m ∈ sub.marks h id) : m.reader? = some id := by
  unfold Subscription.marks at hm
  split at hm
  · cases hm
  · cases hstage : sub.stage with
    | stopped =>
      rw [hstage] at hm
      cases hm
    | spawned =>
      simp only [hstage] at hm
      split at hm
      · cases List.mem_singleton.1 hm
        rfl
      · cases hm
    | registering due =>
      simp only [hstage] at hm
      cases List.mem_singleton.1 hm
      rfl
    | streaming p =>
      simp only [hstage] at hm
      rcases List.mem_append.1 hm with hgiven | hhanded
      · exact Pipeline.reader?_givenMarks hgiven
      · split at hhanded
        · exact Consumer.reader?_marks hhanded
        · cases hhanded
    | handing p e wait =>
      simp only [hstage] at hm
      cases wait with
      | room =>
        dsimp only at hm
        split at hm
        · cases List.mem_singleton.1 hm
          rfl
        · cases hm
      | callback => cases hm
      | forever => cases hm

theorem Publisher.reader?_marks {p : Publisher} {h : Hub} {m : Mark} (hm : m ∈ p.marks h) :
    m.reader? = none := by
  unfold Publisher.marks at hm
  split at hm
  · rw [List.mem_singleton.1 hm]
    unfold InFlight.answerMark
    split
    · rfl
    · rfl
    · split
      · rfl
      · rfl
  · rw [List.mem_singleton.1 hm]
    rfl
  · cases hm

namespace Service

variable {s s' t : Service} {action : Action}

/-- The services differ in the subscription `a` and in their counters at most. -/
def Beside (a : ReaderId) (s s' : Service) : Prop :=
  ∃ hub subscriptions, s.hub.Beside a hub ∧
    (∀ id, id ≠ a → subscriptions.get? id = s.subscriptions.get? id) ∧
      s' = { s with hub, subscriptions }

theorem reader?_marks {m : Mark} (hm : m ∈ s.marks action) : m.reader? = action.reader? := by
  cases action with
  | step actor =>
    cases actor with
    | subscription id =>
      cases hsub : s.subscriptions.get? id with
      | none =>
        rw [marks, hsub] at hm
        cases hm
      | some sub =>
        rw [marks, hsub] at hm
        exact Subscription.reader?_marks hm
    | publisher id =>
      cases hp : s.publishers.get? id with
      | none =>
        rw [marks, hp] at hm
        cases hm
      | some p =>
        rw [marks, hp] at hm
        exact Publisher.reader?_marks hm
    | task id => cases hm
  | getAll keys =>
    obtain ⟨key, -, rfl⟩ := List.mem_map.1 hm
    rfl
  | get key =>
    cases List.mem_singleton.1 hm
    rfl
  | clearStore =>
    cases List.mem_singleton.1 hm
    rfl
  | rewire transport =>
    cases List.mem_singleton.1 hm
    rfl
  | _ => cases hm

namespace Beside

theorem modifySubscription (hb : s.Beside a s') (id : ReaderId)
    (f : Subscription → Subscription) :
    (s.modifySubscription id f).Beside a (s'.modifySubscription id f) := by
  obtain ⟨hub, subscriptions, hhub, hsubs, rfl⟩ := hb
  refine ⟨hub, subscriptions.modify id f, hhub, fun id' hid => ?_, rfl⟩
  by_cases heq : id' = id
  · rw [heq, Service.modifySubscription, Table.get?_modify_self, Table.get?_modify_self,
      ← heq, hsubs id' hid]
  · rw [Service.modifySubscription, Table.get?_modify_of_ne _ _ heq,
      Table.get?_modify_of_ne _ _ heq, hsubs id' hid]

theorem modifySubscription_own (hb : s.Beside a s') (f : Subscription → Subscription) :
    (s.modifySubscription a f).Beside a s' := by
  obtain ⟨hub, subscriptions, hhub, hsubs, rfl⟩ := hb
  refine ⟨hub, subscriptions, hhub, fun id hid => ?_, rfl⟩
  rw [Service.modifySubscription, Table.get?_modify_of_ne _ _ hid, hsubs id hid]

theorem closePublisher (hb : s.Beside a s') (id : PublisherId) :
    (s.closePublisher id).Beside a (s'.closePublisher id) := by
  obtain ⟨hub, subscriptions, hhub, hsubs, rfl⟩ := hb
  unfold Service.closePublisher
  change (if (s.publisher id).closed then s else _).Beside a
    (if (s.publisher id).closed then _ else _)
  split
  · exact ⟨hub, subscriptions, hhub, hsubs, rfl⟩
  · exact ⟨hub, subscriptions, hhub, hsubs, rfl⟩

theorem shutdown (hb : s.Beside a s') : s.shutdown.Beside a s'.shutdown := by
  have hclose : (if s.publishers.contains .shared then s.closePublisher .shared else s).Beside a
      (if s'.publishers.contains .shared then s'.closePublisher .shared else s') := by
    have hsame : s'.publishers = s.publishers := by
      obtain ⟨hub, subscriptions, -, -, rfl⟩ := hb
      rfl
    rw [hsame]
    split
    · exact hb.closePublisher .shared
    · exact hb
  unfold Service.shutdown
  generalize (if s.publishers.contains .shared then s.closePublisher .shared else s) = x at hclose
  generalize (if s'.publishers.contains .shared then s'.closePublisher .shared else s') = x'
    at hclose
  obtain ⟨hub, subscriptions, hhub, hsubs, rfl⟩ := hclose
  exact ⟨_, subscriptions, hhub.withBackend hhub.backend.shutdown, hsubs, rfl⟩

theorem publisher (hb : s.Beside a s') {id : PublisherId}
    (h : s.advancePublisher? id = some t) :
    ∃ t', s'.advancePublisher? id = some t' ∧ t.Beside a t' ∧
      s'.marks (.step (.publisher id)) = s.marks (.step (.publisher id)) := by
  obtain ⟨hub, subscriptions, hhub, hsubs, rfl⟩ := hb
  obtain ⟨p, p', after, hp, hstep, rfl⟩ := exists_of_advancePublisher h
  obtain ⟨hrel, hmarks⟩ := Publisher.paired_advance (p := p) hhub
  rw [hstep] at hrel
  cases hstep' : p.advance? hub with
  | none =>
    rw [hstep'] at hrel
    cases hrel
  | some step' =>
    rw [hstep'] at hrel
    cases hrel with | some hpaired
    obtain ⟨p'', after'⟩ := step'
    obtain ⟨rfl, hafter⟩ : p'' = p' ∧ after.Beside a after' := hpaired
    refine ⟨_, ?_, ⟨after', subscriptions, hafter, hsubs, rfl⟩, ?_⟩
    · simp only [advancePublisher?, hp, hstep', Option.bind_eq_bind, Option.bind_some]
      rfl
    · simp only [marks, hp, Option.elim_some, hmarks]

theorem task (hb : s.Beside a s') {id : TaskId} (h : s.advanceTask? id = some t) :
    ∃ t', s'.advanceTask? id = some t' ∧ t.Beside a t' := by
  obtain ⟨hub, subscriptions, hhub, hsubs, rfl⟩ := hb
  obtain ⟨entry, task, p, hentry, hstep, rfl⟩ := exists_of_advanceTask h
  refine ⟨_, ?_, ⟨hub, subscriptions, hhub, hsubs, rfl⟩⟩
  have hstep' := (PublishTask.advance?_eq hhub entry.task (s.publisher entry.publisher)).trans hstep
  have hpublisher : { s with hub, subscriptions }.publisher entry.publisher =
      s.publisher entry.publisher := rfl
  simp only [advanceTask?, hentry, hpublisher, hstep', Option.bind_eq_bind, Option.bind_some]
  rfl

theorem subscription (hb : s.Beside a s') (hid : id ≠ a)
    (h : s.advanceSubscription? id = some t) :
    ∃ t', s'.advanceSubscription? id = some t' ∧ t.Beside a t' ∧
      s'.marks (.step (.subscription id)) = s.marks (.step (.subscription id)) := by
  obtain ⟨hub, subscriptions, hhub, hsubs, rfl⟩ := hb
  obtain ⟨sub, sub', after, hsub, hstep, rfl⟩ := exists_of_advanceSubscription h
  have hsub' : subscriptions.get? id = some sub := (hsubs id hid).trans hsub
  have hrel := Subscription.paired_advance (s := sub) hhub hid
  rw [hstep] at hrel
  cases hstep' : sub.advance? hub id with
  | none =>
    rw [hstep'] at hrel
    cases hrel
  | some step' =>
    rw [hstep'] at hrel
    cases hrel with | some hpaired
    obtain ⟨sub'', after'⟩ := step'
    obtain ⟨rfl, hafter⟩ : sub'' = sub' ∧ after.Beside a after' := hpaired
    refine ⟨_, ?_, ⟨after', subscriptions.insert id sub'', hafter, ?_, rfl⟩, ?_⟩
    · simp only [advanceSubscription?, hsub', hstep', Option.bind_eq_bind, Option.bind_some]
      rfl
    · exact Backend.get?_insert_same hsubs
    · simp only [marks, hsub, hsub', Option.elim_some, Subscription.marks_eq hhub hid]

theorem startPeriodic (hb : s.Beside a s') {id : TaskId} {publisher : PublisherId}
    {schedule : Schedule} {generate : Nat → GeneratorCall} {reports : Bool}
    (h : s.perform? (.startPeriodic id publisher schedule generate reports) = some t) :
    ∃ t', s'.perform? (.startPeriodic id publisher schedule generate reports) = some t' ∧
      t.Beside a t' := by
  obtain ⟨hub, subscriptions, hhub, hsubs, rfl⟩ := hb
  simp only [perform?] at h ⊢
  split at h
  · cases h
  · unfold Service.startPeriodic at h ⊢
    cases hcheck : schedule.check with
    | error error =>
      rw [hcheck] at h
      cases h
    | ok _ =>
      rw [hcheck] at h
      cases h
      rw [if_neg ‹_›]
      exact ⟨_, rfl, hub, subscriptions, hhub, hsubs, rfl⟩

theorem startStream (hb : s.Beside a s') {id : TaskId} {publisher : PublisherId}
    {item : Nat → Option StreamItem} {reports : Bool}
    (h : s.perform? (.startStream id publisher item reports) = some t) :
    ∃ t', s'.perform? (.startStream id publisher item reports) = some t' ∧ t.Beside a t' := by
  obtain ⟨hub, subscriptions, hhub, hsubs, rfl⟩ := hb
  simp only [perform?] at h ⊢
  split at h
  · cases h
  · cases h
    rw [if_neg ‹_›]
    exact ⟨_, rfl, hub, subscriptions, hhub, hsubs, rfl⟩

theorem subscribe (hb : s.Beside a s') (hid : id ≠ a) {target : Target}
    {rate : Option RateControl} {consumer : Consumer}
    (h : s.perform? (.subscribe id target rate consumer) = some t) :
    ∃ t', s'.perform? (.subscribe id target rate consumer) = some t' ∧ t.Beside a t' := by
  obtain ⟨hub, subscriptions, hhub, hsubs, rfl⟩ := hb
  have hsame : subscriptions.contains id = s.subscriptions.contains id := by
    rw [Table.contains, hsubs id hid, Table.contains]
  simp only [perform?, hsame] at h ⊢
  split at h
  · cases h
  · cases h
    rw [if_neg ‹_›]
    exact ⟨_, rfl, hub, _, hhub, Backend.get?_insert_same hsubs, rfl⟩

theorem perform (hb : s.Beside a s') (haction : action.reader? ≠ some a)
    (hwired : ∀ transport, action ≠ .rewire transport) (h : s.perform? action = some t) :
    ∃ t', s'.perform? action = some t' ∧ t.Beside a t' ∧ s'.marks action = s.marks action := by
  have hne : ∀ {id}, action.reader? = some id → id ≠ a := by
    rintro id hid rfl
    exact haction hid
  have hboth := hb
  -- Of the other service only the hub and the subscriptions may differ, and few actions use them.
  obtain ⟨hub, subscriptions, hhub, hsubs, rfl⟩ := hb
  obtain ⟨-, hstore, -⟩ := hhub.shared
  cases action with
  | closePublisher id =>
    cases h
    exact ⟨_, rfl, hboth.closePublisher id, rfl⟩
  | shutdown =>
    cases h
    exact ⟨_, rfl, hboth.shutdown, rfl⟩
  | startPeriodic id publisher schedule generate reports =>
    obtain ⟨t', ht', hafter⟩ := hboth.startPeriodic h
    exact ⟨t', ht', hafter, rfl⟩
  | startStream id publisher item reports =>
    obtain ⟨t', ht', hafter⟩ := hboth.startStream h
    exact ⟨t', ht', hafter, rfl⟩
  | subscribe id target rate consumer =>
    obtain ⟨t', ht', hafter⟩ := hboth.subscribe (hne rfl) h
    exact ⟨t', ht', hafter, rfl⟩
  | raiseCancel id =>
    cases h
    exact ⟨_, rfl, hboth.modifySubscription id _, rfl⟩
  | endUnsubscribe id =>
    cases h
    exact ⟨_, rfl, hboth.modifySubscription id _, rfl⟩
  | dropConsumer id =>
    cases h
    exact ⟨_, rfl, hboth.modifySubscription id _, rfl⟩
  | take id =>
    cases h
    exact ⟨_, rfl, hboth.modifySubscription id _, rfl⟩
  | takeCalls id limit =>
    cases h
    exact ⟨_, rfl, hboth.modifySubscription id _, rfl⟩
  | get key =>
    cases h
    exact ⟨_, rfl, hboth, by simp only [marks, hstore]⟩
  | getAll keys =>
    cases h
    exact ⟨_, rfl, hboth, by simp only [marks, hstore]⟩
  | clearStore =>
    cases h
    refine ⟨_, rfl, ⟨_, subscriptions, hhub.withStore s.hub.store.clear, hsubs, ?_⟩, rfl⟩
    rw [clearStore, hstore]
    rfl
  | script script =>
    cases h
    obtain ⟨backend, metrics, hbackend, rfl⟩ := hhub
    exact ⟨_, rfl, ⟨_, subscriptions, ⟨backend, metrics, hbackend, rfl⟩, hsubs, rfl⟩, rfl⟩
  | wait time =>
    cases h
    obtain ⟨backend, metrics, hbackend, rfl⟩ := hhub
    exact ⟨_, rfl, ⟨_, subscriptions, ⟨backend, metrics, hbackend, rfl⟩, hsubs, rfl⟩, rfl⟩
  | rewire transport => exact absurd rfl (hwired transport)
  | step actor =>
    cases actor with
    | publisher id => exact hboth.publisher h
    | task id =>
      obtain ⟨t', ht', hafter⟩ := hboth.task h
      exact ⟨t', ht', hafter, rfl⟩
    | subscription id => exact hboth.subscription (hne rfl) h
  | publish _ _ | usePublisher _ | cancelTask _ | takeFailures _ =>
    cases h
    exact ⟨_, rfl, ⟨hub, subscriptions, hhub, hsubs, rfl⟩, rfl⟩

theorem perform_own (hb : s.Beside a s') (haction : action.reader? = some a)
    (h : s.perform? action = some t) : t.Beside a s' := by
  cases action with
  | subscribe id target rate consumer =>
    cases haction
    simp only [perform?] at h
    split at h
    · cases h
    · cases h
      obtain ⟨hub, subscriptions, hhub, hsubs, rfl⟩ := hb
      refine ⟨hub, subscriptions, hhub, fun id hid => ?_, rfl⟩
      rw [Service.subscribe, Table.get?_insert_of_ne _ _ hid, hsubs id hid]
  | raiseCancel id =>
    cases haction
    cases h
    exact hb.modifySubscription_own _
  | endUnsubscribe id =>
    cases haction
    cases h
    exact hb.modifySubscription_own _
  | dropConsumer id =>
    cases haction
    cases h
    exact hb.modifySubscription_own _
  | take id =>
    cases haction
    cases h
    exact hb.modifySubscription_own _
  | takeCalls id limit =>
    cases haction
    cases h
    exact hb.modifySubscription_own _
  | step actor =>
    cases actor with
    | subscription id =>
      cases haction
      obtain ⟨sub, sub', after, hsub, hstep, rfl⟩ := exists_of_advanceSubscription h
      obtain ⟨hub, subscriptions, hhub, hsubs, rfl⟩ := hb
      refine ⟨hub, subscriptions, Subscription.advance_own hhub hstep, fun id hid => ?_, rfl⟩
      rw [Table.get?_insert_of_ne _ _ hid, hsubs id hid]
    | publisher id => cases haction
    | task id => cases haction
  | _ => cases haction

end Beside

/-- The run without the steps of a subscription is possible, looks the same to everybody else, and
ends beside the whole run. -/
theorem Beside.follow {actions : List Action} {last : Service} {marks : List Mark}
    (hb : s.Beside a s') (hwired : ∀ transport, .rewire transport ∉ actions)
    (h : s.follow actions = some (marks, last)) :
    ∃ last', s'.follow (actions.filter fun action => action.reader? ≠ some a) =
        some (marks.filter fun m => m.reader? ≠ some a, last') ∧ last.Beside a last' := by
  induction actions generalizing s s' marks with
  | nil =>
    cases h
    exact ⟨s', rfl, hb⟩
  | cons action actions ih =>
    simp only [Service.follow, Option.bind_eq_bind, Option.bind_eq_some_iff] at h
    obtain ⟨next, hnext, ⟨rest, end'⟩, hrest, heq⟩ := h
    cases heq
    have hlater : ∀ transport, .rewire transport ∉ actions :=
      fun transport hmem => hwired transport (List.mem_cons_of_mem _ hmem)
    rw [List.filter_append]
    -- The other service leaves the action out if it is about `a`, and takes it along otherwise.
    by_cases haction : action.reader? = some a
    · have hmarks : ((s.marks action).filter fun m => m.reader? ≠ some a) = [] := by
        rw [List.filter_eq_nil_iff]
        intro m hm
        simp [(reader?_marks hm).trans haction]
      obtain ⟨last', hfollow, hlast⟩ := ih (hb.perform_own haction hnext) hlater hrest
      refine ⟨last', ?_, hlast⟩
      rw [List.filter_cons_of_neg (by simp [haction]), hmarks, List.nil_append, hfollow]
    · have hmarks : ((s.marks action).filter fun m => m.reader? ≠ some a) = s.marks action := by
        rw [List.filter_eq_self]
        intro m hm
        simp [reader?_marks hm, haction]
      have hstill : ∀ transport, action ≠ .rewire transport := by
        rintro transport rfl
        exact hwired transport List.mem_cons_self
      obtain ⟨next', hnext', hbeside, hsame⟩ := hb.perform haction hstill hnext
      obtain ⟨last', hfollow, hlast⟩ := ih hbeside hlater hrest
      refine ⟨last', ?_, hlast⟩
      rw [List.filter_cons_of_pos (by simp [haction])]
      simp only [Service.follow, hnext', Option.bind_eq_bind, Option.bind_some, hfollow, hsame,
        hmarks]
      rfl

theorem handed_without (marks : List Mark) (hid : id ≠ a) :
    handed (marks.filter fun m => m.reader? ≠ some a) id = handed marks id := by
  unfold handed
  rw [List.filterMap_filter]
  refine List.filterMap_congr fun m _ => ?_
  cases m with
  | handed id' e =>
    by_cases heq : id' = id
    · simp [Mark.reader?, heq, hid]
    · simp [heq]
  | _ => simp

theorem beside_withTransport {settings : Settings} {slot : Nat} {origin : UtcTime}
    {transport : Transport}
    (hbackend : backendOf settings slot = .ok transport.backend) (a : ReaderId) :
    (withTransport settings origin transport).Beside a
      (withTransport settings origin transport) := by
  refine ⟨_, _, ⟨transport.backend, _, ?_, rfl⟩, fun _ _ => rfl, rfl⟩
  change transport.backend.Beside a transport.backend
  generalize transport.backend = backend at hbackend
  unfold backendOf at hbackend
  split at hbackend
  · cases hbackend
    exact .log fun _ _ => rfl
  · split at hbackend
    next t ht =>
      cases hbackend
      exact .keyspace (.create ht) (.create ht) fun _ _ => rfl
    next => cases hbackend

/-- Nobody but the subscription `a` can tell the two runs apart. -/
structure SameWithout (a : ReaderId) (marks : List Mark) (s : Service) (marks' : List Mark)
    (s' : Service) : Prop where
  trace : marks' = marks.filter fun m => m.reader? ≠ some a
  publishers : s'.publishers = s.publishers
  tasks : s'.tasks = s.tasks
  store : s'.hub.store = s.hub.store
  now : s'.hub.now = s.hub.now
  subscriptions : ∀ id, id ≠ a → s'.subscriptions.get? id = s.subscriptions.get? id
  handed : ∀ id, id ≠ a → handed marks' id = handed marks id

/-- Without the steps of a subscription a run is possible, too, and at every point of it all
publishes have come to the same, the store is the same, and all other subscriptions have handed over
the same events and are in the same state. -/
theorem follow_without {settings : Settings} {slot : Nat} {origin : UtcTime}
    {transport : Transport} {actions : List Action} {marks : List Mark} {last : Service}
    (a : ReaderId)
    (hbackend : backendOf settings slot = .ok transport.backend)
    (hwired : ∀ transport, .rewire transport ∉ actions)
    (h : (withTransport settings origin transport).follow actions = some (marks, last)) :
    ∀ early, early <+: actions → ∃ t s t' s',
      (withTransport settings origin transport).follow early = some (t, s) ∧
      (withTransport settings origin transport).follow
        (early.filter fun action => action.reader? ≠ some a) = some (t', s') ∧
      SameWithout a t s t' s' := by
  rintro early ⟨rest, rfl⟩
  obtain ⟨t, s, -, hfollow, -, -⟩ := exists_of_follow_append h
  have hearly : ∀ transport, .rewire transport ∉ early :=
    fun transport hmem => hwired transport (List.mem_append_left rest hmem)
  obtain ⟨s', hfollow', hub, subscriptions, hhub, hsubs, rfl⟩ :=
    (beside_withTransport hbackend a).follow hearly hfollow
  obtain ⟨hnow, hstore, -⟩ := hhub.shared
  exact ⟨t, s, _, _, hfollow, hfollow', rfl, rfl, rfl, hstore, hnow, hsubs,
    fun _ hid => handed_without t hid⟩

/-- The settings of a service on a keyspace whose channels keep two events. -/
def narrow : Settings :=
  { Settings.default with transport := .keyspace, channelCapacity := 2 }

def narrowService (t : Keyspace) : Service :=
  withTransport narrow .epoch (.ofBackend (.keyspace t))

/-- The first subscription stalls until it is overtaken, panics, and is dropped, next to another one
on the same key. -/
def neighbours : List Action :=
  let publish (id : String) : List Action :=
    [.publish (.own 0) (sharedEvent id), .step (.publisher (.own 0)), .step (.publisher (.own 0))]
  [Action.subscribe 0 (.keys [sharedKey]) none (.scriptedCallback [2]), .step (.subscription 0)] ++
    publish "a" ++
    [Action.subscribe 1 (.keys [sharedKey]) none (.scriptedCallback []), .step (.subscription 1),
      .step (.subscription 1), .step (.subscription 1), .step (.subscription 0)] ++
    publish "b" ++ [Action.step (.subscription 1)] ++
    publish "c" ++ [Action.step (.subscription 1)] ++
    publish "d" ++ [Action.step (.subscription 0), .step (.subscription 0), .step (.subscription 1),
      .raiseCancel 0, .step (.subscription 0)] ++
    publish "e" ++ [Action.step (.subscription 1)]

theorem follow_without_neighbour : ∃ k t s t' s', Keyspace.create? Keyspace.usualSlot 2 = some k ∧
    (narrowService k).follow neighbours = some (t, s) ∧
    (narrowService k).follow (neighbours.filter fun action => action.reader? ≠ some 0) =
      some (t', s') ∧
    SameWithout 0 t s t' s' ∧ s.hub.metrics.lagged = 2 ∧
    handed t 0 = [sharedEvent "a", sharedEvent "c"] ∧
    handed t 1 = ["a", "b", "c", "d", "e"].map sharedEvent := by
  have hrun : ((Keyspace.create? Keyspace.usualSlot 2).bind fun k =>
      (narrowService k).follow neighbours).any (fun last => decide (last.2.hub.metrics.lagged = 2 ∧
        handed last.1 0 = [sharedEvent "a", sharedEvent "c"] ∧
        handed last.1 1 = ["a", "b", "c", "d", "e"].map sharedEvent)) = true := by
    decide +kernel
  obtain ⟨⟨t, s⟩, hfollow, hgood⟩ := (Option.any_eq_true _ _).1 hrun
  obtain ⟨k, hcreate, hfollow⟩ := Option.bind_eq_some_iff.1 hfollow
  have hbackend : backendOf narrow = .ok (.keyspace k) := by
    unfold backendOf
    simp only [narrow, hcreate]
  have hwired : ∀ transport, .rewire transport ∉ neighbours := by
    intro transport
    simp [neighbours]
  obtain ⟨t₀, s₀, t', s', hfollow₀, hfollow', hsame⟩ :=
    follow_without 0 hbackend hwired hfollow neighbours List.prefix_rfl
  cases hfollow.symm.trans hfollow₀
  exact ⟨k, t, s, t', s', hcreate, hfollow, hfollow', hsame, of_decide_eq_true hgood⟩

end Service

end Observatory
