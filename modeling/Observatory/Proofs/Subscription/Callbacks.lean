import Observatory.Proofs.Subscription.Resampling
import Observatory.Proofs.Subscription.Sights

/-!
# Callbacks

What comes out of the pipeline of a subscription goes to its callback, one call for each event, and
the next event is asked for when the call is over. Calls may panic. A callback that takes its time
ends the driver if it panics before it comes back with its work. Every other panic leaves the driver
where a call that returns leaves it.
-/

namespace Observatory

/-! ## What is seen -/

/-- What is seen of the driver of a subscription, and of those who look at the calls. -/
inductive Scene where
  /-- The driver was told to stop, and stops. -/
  | cancelled
  /-- The driver does not get registered. -/
  | turnedAway
  /-- What the pipeline answers. -/
  | response (r : Response)
  /-- Someone looks at recorded calls, which were made with these events. -/
  | taken (events : List Event)
  deriving DecidableEq

namespace Scene

/-- What has come out of the pipeline. -/
def outputs (t : List Scene) : List Event :=
  t.filterMap fun
    | .response r => r.event?
    | _ => none

/-- The events of the calls that someone has looked at. -/
def looked (t : List Scene) : List Event :=
  t.flatMap fun
    | .taken events => events
    | _ => []

/-- The driver had a reason to end: it was told to, or there was nothing to go on with. -/
def Excused (t : List Scene) : Prop :=
  .cancelled ∈ t ∨ .turnedAway ∈ t ∨ .response .ended ∈ t

theorem outputs_append (t t' : List Scene) : outputs (t ++ t') = outputs t ++ outputs t' :=
  List.filterMap_append

theorem looked_append (t t' : List Scene) : looked (t ++ t') = looked t ++ looked t' :=
  List.flatMap_append

theorem excused_append {t t' : List Scene} : Excused (t ++ t') ↔ Excused t ∨ Excused t' := by
  simp only [Excused, List.mem_append]
  tauto

theorem outputs_response (t : List Scene) (r : Response) :
    outputs (t ++ [.response r]) = outputs t ++ r.event?.toList := by
  rw [outputs_append]
  cases r with
  | silence => rfl
  | emit e => rfl
  | ended => rfl

end Scene

open Scene

/-- What is seen of the next step of the driver. -/
def Subscription.scenes (s : Subscription) (h : Hub) (id : ReaderId) : List Scene :=
  if s.cancelRaised then [.cancelled]
  else
    match s.stage with
    | .spawned => if (s.register h id).1.isStopped then [.turnedAway] else []
    | .streaming p =>
      ((p.advance? s.target h id).map fun next => .response next.1.response).toList
    | _ => []

/-- What is seen of the subscription of a name when an action is taken. -/
def Service.scenes (id : ReaderId) (s : Service) : Action → List Scene
  | .step (.subscription id') =>
    if id' = id then (s.subscriptions.get? id).elim [] fun sub => sub.scenes s.hub id else []
  | .takeCalls id' limit =>
    if id' = id then
      (s.subscriptions.get? id).elim [] fun sub =>
        [.taken ((sub.takeCalls limit).1.map Prod.snd)]
    else []
  | _ => []

/-- Whether a call panics before it comes back with its work. -/
def Consumer.crashes (consumer : Consumer) (call : Nat) : Bool :=
  match consumer with
  | .asyncCallback _ behave => behave call = .crash
  | _ => false

/-- The events of all recorded calls, whether someone has looked at them or not. -/
def recorded (t : List Scene) (log : CallLog) : List Event :=
  looked t ++ log.records.map Prod.snd

/-- A subscription whose callback cannot stop it. -/
structure Undeterred (id : ReaderId) (t : List Scene) (sub : Subscription) (log : CallLog) :
    Prop where
  /-- There is one call for each event that came out of the pipeline. -/
  begun : log.begun = (outputs t).length
  inOrder : recorded t log <+: outputs t
  /-- One call at most is not recorded. -/
  single : (outputs t).length ≤ (recorded t log).length + 1
  /-- The driver asks for the next event when the call for the last one is over. -/
  settled : ∀ p, sub.stage = .streaming p → recorded t log = outputs t
  calling : ∀ p e due ending, sub.stage = .handing p e (.callback due ending) →
    recorded t log ++ [e] = outputs t
  /-- A call that is over leads back to the pipeline, however it ended. -/
  resumes : ∀ p e wait, sub.stage = .handing p e wait → sub.cancelRaised = false →
    ∃ due ending, wait = .callback due ending ∧
      ∀ h, due ≤ h.now → ending ≠ .unsubscribes →
        ∃ next hub, sub.advance? h id = some (next, hub) ∧ next.stage = .streaming p ∧
          next.state = sub.state
  goesOn : sub.stage = .stopped → Excused t
  ready : ∀ p, (sub.stage = .streaming p ∨ ∃ e wait, sub.stage = .handing p e wait) →
    sub.state = .ready

variable {id : ReaderId} {consumer : Consumer} {t : List Scene} {excused : Prop}
  {out done : List Event} {state : Lifecycle} {raised : Bool} {stage : Stage}
  {sub sub' : Subscription} {log : CallLog} {h h' : Hub} {p : Pipeline} {e : Event}

/-! ## The driver -/

/-- None of the calls for these events crashes. -/
def Calm (consumer : Consumer) (out : List Event) : Prop :=
  ∀ call < out.length, consumer.crashes call = false

theorem calm_nil : Calm consumer [] :=
  fun _ hcall => absurd hcall (Nat.not_lt_zero _)

theorem Calm.concat (hcalm : Calm consumer out) (hlast : consumer.crashes out.length = false)
    (e : Event) : Calm consumer (out ++ [e]) := by
  intro call hcall
  rw [List.length_append, List.length_singleton] at hcall
  rcases Nat.lt_succ_iff_lt_or_eq.1 hcall with hold | rfl
  · exact hcalm call hold
  · exact hlast

theorem not_calm {call : Nat} (hcall : call < out.length) (hcrash : consumer.crashes call = true) :
    ¬ Calm consumer out := by
  intro hcalm
  rw [hcalm call hcall] at hcrash
  cases hcrash

/-- How far the driver has come when `out` came out of the pipeline and the calls for `done` are
recorded. A driver that has stopped was excused, or one of its calls has crashed. -/
inductive Progress (consumer : Consumer) (excused : Prop) (out done : List Event) :
    Lifecycle → Bool → Stage → Prop where
  | spawned {raised : Bool} (hexcused : ¬ excused) (hout : out = []) (hdone : done = []) :
      Progress consumer excused out done .pending raised .spawned
  | registering {raised : Bool} {due : Nat} (hexcused : ¬ excused) (hout : out = [])
      (hdone : done = []) : Progress consumer excused out done .pending raised (.registering due)
  | streaming {raised : Bool} {p : Pipeline} (hexcused : ¬ excused) (hdone : done = out)
      (hcalm : Calm consumer out) : Progress consumer excused out done .ready raised (.streaming p)
  | calling {raised : Bool} {p : Pipeline} {e : Event} {due : Nat} {ending : CallEnd}
      (hexcused : ¬ excused) (hdone : done ++ [e] = out) (hcalm : Calm consumer out) :
      Progress consumer excused out done .ready raised (.handing p e (.callback due ending))
  /-- The call waits for the driver, which was told to stop. -/
  | leaving {p : Pipeline} {e : Event} (hexcused : ¬ excused) (hdone : done = out)
      (hcalm : Calm consumer out) :
      Progress consumer excused out done .ready true (.handing p e .forever)
  | ended {state : Lifecycle} {raised : Bool} (hexcused : excused)
      (hdone : done = out ∨ ∃ e, done ++ [e] = out) (hcalm : Calm consumer out) :
      Progress consumer excused out done state raised .stopped
  | crashed {state : Lifecycle} {raised : Bool} (hexcused : ¬ excused)
      (hcrash : ¬ Calm consumer out) : Progress consumer excused out done state raised .stopped

namespace Progress

variable {due : Nat} {ending : CallEnd} {wait : Handover}

/-! ### Steps -/

theorem raise (hp : Progress consumer excused out done state raised stage) :
    Progress consumer excused out done state true stage := by
  cases hp with
  | spawned hexcused hout hdone => exact .spawned hexcused hout hdone
  | registering hexcused hout hdone => exact .registering hexcused hout hdone
  | streaming hexcused hdone hcalm => exact .streaming hexcused hdone hcalm
  | calling hexcused hdone hcalm => exact .calling hexcused hdone hcalm
  | leaving hexcused hdone hcalm => exact .leaving hexcused hdone hcalm
  | ended hexcused hdone hcalm => exact .ended hexcused hdone hcalm
  | crashed hexcused hcrash => exact .crashed hexcused hcrash

/-- The state of a driver that has stopped says nothing of its calls. -/
theorem of_stopped (hp : Progress consumer excused out done state raised .stopped)
    (state' : Lifecycle) : Progress consumer excused out done state' raised .stopped := by
  cases hp with
  | ended hexcused hdone hcalm => exact .ended hexcused hdone hcalm
  | crashed hexcused hcrash => exact .crashed hexcused hcrash

/-- A driver that has an excuse may stop at any time, and a call that is under way is not waited
for. -/
theorem finish (hp : Progress consumer excused out done state raised stage)
    (hrunning : stage ≠ .stopped) (state' : Lifecycle) (raised' : Bool) :
    Progress consumer True out done state' raised' .stopped := by
  cases hp with
  | spawned _ hout hdone =>
    exact .ended trivial (.inl (hdone.trans hout.symm)) (hout ▸ calm_nil)
  | registering _ hout hdone =>
    exact .ended trivial (.inl (hdone.trans hout.symm)) (hout ▸ calm_nil)
  | streaming _ hdone hcalm => exact .ended trivial (.inl hdone) hcalm
  | calling _ hdone hcalm => exact .ended trivial (.inr ⟨_, hdone⟩) hcalm
  | leaving _ hdone hcalm => exact .ended trivial (.inl hdone) hcalm
  | ended => exact absurd rfl hrunning
  | crashed => exact absurd rfl hrunning

theorem register (hp : Progress consumer excused out done state raised .spawned) (due : Nat) :
    Progress consumer excused out done state raised (.registering due) := by
  cases hp with | spawned hexcused hout hdone =>
  exact .registering hexcused hout hdone

theorem activate (hp : Progress consumer excused out done state raised (.registering due))
    (p : Pipeline) :
    Progress consumer excused out done state.acknowledge raised (.streaming p) := by
  cases hp with | registering hexcused hout hdone =>
  exact .streaming hexcused (hdone.trans hout.symm) (hout ▸ calm_nil)

theorem onward (hp : Progress consumer excused out done state raised (.streaming p))
    (q : Pipeline) : Progress consumer excused out done state raised (.streaming q) := by
  cases hp with | streaming hexcused hdone hcalm =>
  exact .streaming hexcused hdone hcalm

theorem call (hp : Progress consumer excused out done state raised (.streaming p))
    (hlast : consumer.crashes out.length = false) (q : Pipeline) (e : Event) :
    Progress consumer excused (out ++ [e]) (done ++ [e]) state raised (.streaming q) := by
  cases hp with | streaming hexcused hdone hcalm =>
  exact .streaming hexcused (by rw [hdone]) (hcalm.concat hlast e)

theorem begin (hp : Progress consumer excused out done state raised (.streaming p))
    (hlast : consumer.crashes out.length = false) (q : Pipeline) (e : Event) (due : Nat)
    (ending : CallEnd) : Progress consumer excused (out ++ [e]) done state raised
      (.handing q e (.callback due ending)) := by
  cases hp with | streaming hexcused hdone hcalm =>
  exact .calling hexcused (by rw [hdone]) (hcalm.concat hlast e)

theorem crash (hp : Progress consumer excused out done state raised (.streaming p))
    (hcrash : consumer.crashes out.length = true) (e : Event) :
    Progress consumer excused (out ++ [e]) done state raised .stopped := by
  cases hp with | streaming hexcused _ _ =>
  exact .crashed hexcused (not_calm (by simp) hcrash)

theorem resume
    (hp : Progress consumer excused out done state raised (.handing p e (.callback due ending))) :
    Progress consumer excused out (done ++ [e]) state raised (.streaming p) := by
  cases hp with | calling hexcused hdone hcalm =>
  exact .streaming hexcused hdone hcalm

theorem leave
    (hp : Progress consumer excused out done state raised (.handing p e (.callback due ending))) :
    Progress consumer excused out (done ++ [e]) state true (.handing p e .forever) := by
  cases hp with | calling hexcused hdone hcalm =>
  exact .leaving hexcused hdone hcalm

/-! ### What they keep -/

/-- If no call has crashed, the calls follow what came out of the pipeline. -/
theorem initial (hp : Progress consumer excused out done state raised stage)
    (hcalm : Calm consumer out) : done <+: out ∧ out.length ≤ done.length + 1 := by
  cases hp with
  | spawned _ hout hdone => simp [hout, hdone]
  | registering _ hout hdone => simp [hout, hdone]
  | streaming _ hdone _ => simp [hdone]
  | calling _ hdone _ => simp [← hdone]
  | leaving _ hdone _ => simp [hdone]
  | ended _ hdone _ =>
    obtain rfl | ⟨e, rfl⟩ := hdone
    · simp
    · simp
  | crashed _ hcrash => exact absurd hcalm hcrash

theorem excused_iff (hp : Progress consumer excused out done state raised .stopped) :
    excused ↔ Calm consumer out := by
  cases hp with
  | ended hexcused _ hcalm => exact iff_of_true hexcused hcalm
  | crashed hexcused hcrash => exact iff_of_false hexcused hcrash

theorem calm (hp : Progress consumer excused out done state raised stage)
    (hrunning : stage ≠ .stopped) : Calm consumer out := by
  cases hp with
  | spawned _ hout _ => exact hout ▸ calm_nil
  | registering _ hout _ => exact hout ▸ calm_nil
  | streaming _ _ hcalm => exact hcalm
  | calling _ _ hcalm => exact hcalm
  | leaving _ _ hcalm => exact hcalm
  | ended => exact absurd rfl hrunning
  | crashed => exact absurd rfl hrunning

theorem settled (hp : Progress consumer excused out done state raised (.streaming p)) :
    done = out ∧ state = .ready := by
  cases hp with | streaming _ hdone _ =>
  exact ⟨hdone, rfl⟩

theorem underway
    (hp : Progress consumer excused out done state raised (.handing p e (.callback due ending))) :
    done ++ [e] = out := by
  cases hp with | calling _ hdone _ =>
  exact hdone

theorem ready (hp : Progress consumer excused out done state raised (.handing p e wait)) :
    state = .ready := by
  cases hp with
  | calling => rfl
  | leaving => rfl

/-- A driver that was not told to stop waits for a call only. -/
theorem exists_callback
    (hp : Progress consumer excused out done state false (.handing p e wait)) :
    ∃ due ending, wait = .callback due ending := by
  cases hp with | calling =>
  exact ⟨_, _, rfl⟩

end Progress

/-! ### Callbacks -/

theorem log?_withLog (hcallback : consumer.log? ≠ none) (log : CallLog) :
    (consumer.withLog log).log? = some log := by
  cases consumer with
  | stream m => exact absurd rfl hcallback
  | channel m => exact absurd rfl hcallback
  | callback old panics => rfl
  | asyncCallback old behave => rfl

theorem mailbox?_withLog (hcallback : consumer.log? ≠ none) (log : CallLog) :
    (consumer.withLog log).mailbox? = none := by
  cases consumer with
  | stream m => exact absurd rfl hcallback
  | channel m => exact absurd rfl hcallback
  | callback old panics => rfl
  | asyncCallback old behave => rfl

theorem withLog_withLog (consumer : Consumer) (log log' : CallLog) :
    (consumer.withLog log).withLog log' = consumer.withLog log' := by
  cases consumer <;> rfl

/-- What comes of handing an event to a callback. -/
inductive Called (consumer : Consumer) (log : CallLog) (sub : Subscription) (h : Hub) (p : Pipeline)
    (e : Event) : Subscription → Prop where
  /-- The call is over at once, even if it panicked. -/
  | done (hcalm : consumer.crashes log.begun = false) : Called consumer log sub h p e
      { sub with stage := .streaming p, consumer := consumer.withLog (log.begin.record h.now e) }
  | begun (hcalm : consumer.crashes log.begun = false) (due : Nat) (ending : CallEnd) :
      Called consumer log sub h p e
        { sub with stage := .handing p e (.callback due ending)
                   consumer := consumer.withLog log.begin }
  | crashed (hcrash : consumer.crashes log.begun = true) : Called consumer log sub h p e
      { sub with stage := .stopped, consumer := consumer.withLog log.begin }

theorem called_handOver (hcallback : consumer.log? ≠ none)
    (hconsumer : sub.consumer = consumer.withLog log) (h : Hub) (id : ReaderId) (p : Pipeline)
    (e : Event) : Called consumer log sub h p e (sub.handOver h id p e).1 := by
  cases consumer with
  | stream m => exact absurd rfl hcallback
  | channel m => exact absurd rfl hcallback
  | callback old panics =>
    simp only [Subscription.handOver, hconsumer, Consumer.withLog]
    exact .done rfl
  | asyncCallback old behave =>
    simp only [Subscription.handOver, hconsumer, Consumer.withLog]
    cases hbehave : behave log.begun with
    | crash => exact .crashed (decide_eq_true hbehave)
    | works delay ending =>
      have hcalm : Consumer.crashes (.asyncCallback old behave) log.begun = false := by
        simp [Consumer.crashes, hbehave]
      exact .begun hcalm _ ending

theorem register_cases (sub : Subscription) (h : Hub) (id : ReaderId) :
    (∃ state, (sub.register h id).1 = { sub with stage := .stopped, state }) ∨
      ∃ due, (sub.register h id).1 = { sub with stage := .registering due } := by
  have htransport : h.subscriptionOpened.transport = h.transport := rfl
  unfold Subscription.register
  dsimp only
  rw [htransport]
  cases h.transport.script.subscribe with
  | crash => exact .inl ⟨_, rfl⟩
  | fail error => exact .inl ⟨_, rfl⟩
  | handOn =>
    cases sub.target.register id h.transport.backend with
    | error error => exact .inl ⟨_, rfl⟩
    | ok backend => exact .inr ⟨_, rfl⟩

theorem excused_response (t : List Scene) {r : Response} (hr : r ≠ .ended) :
    Excused (t ++ [.response r]) ↔ Excused t := by
  rw [excused_append]
  simp [Excused, Ne.symm hr]

/-- A call that is over is recorded. What it does to the driver depends on whether it unsubscribes,
and not on whether it panics. -/
theorem endCall_eq (hlog : sub.consumer.log? = some log) (h : Hub) (p : Pipeline) (e : Event)
    (ending : CallEnd) :
    sub.endCall h p e ending =
      let consumer := sub.consumer.withLog (log.record h.now e)
      if ending = .unsubscribes then
        ({ sub with stage := .handing p e .forever, consumer, cancelRaised := true }, h)
      else ({ sub with stage := .streaming p, consumer }, h.eventDelivered) := by
  unfold Subscription.endCall
  simp only [hlog]
  cases ending with
  | returns => rfl
  | panics => rfl
  | unsubscribes => rfl

/-! ### The driver and its log -/

/-- What the driver and its calls have come to, with the log of the calls. -/
structure Attending (consumer : Consumer) (t : List Scene) (sub : Subscription) (log : CallLog) :
    Prop where
  callback : consumer.log? ≠ none
  kept : sub.consumer = consumer.withLog log
  begun : log.begun = (outputs t).length
  progress : Progress consumer (Excused t) (outputs t) (recorded t log) sub.state sub.cancelRaised
    sub.stage

theorem recorded_append {t' : List Scene} (hlooked : looked t' = []) :
    recorded (t ++ t') log = recorded t log := by
  rw [recorded, looked_append, hlooked, List.append_nil, recorded]

theorem recorded_record (t : List Scene) (log : CallLog) (now : Nat) (e : Event) :
    recorded t (log.record now e) = recorded t log ++ [e] := by
  simp [recorded, CallLog.record]

/-- A callback that was not called yet. -/
theorem attending_start (target : Target) (rate : Option RateControl)
    (hfresh : consumer.log? = some .empty) :
    Attending consumer [] (.start target rate consumer) .empty := by
  have hcallback : consumer.log? ≠ none := by simp [hfresh]
  have hkept : consumer = consumer.withLog .empty := by
    cases consumer with
    | stream m => cases hfresh
    | channel m => cases hfresh
    | callback log panics => exact congrArg (Consumer.callback · panics) (Option.some.inj hfresh)
    | asyncCallback log behave =>
      exact congrArg (Consumer.asyncCallback · behave) (Option.some.inj hfresh)
  have hexcused : ¬ Excused [] := by simp [Excused]
  exact ⟨hcallback, hkept, rfl, .spawned hexcused rfl rfl⟩

namespace Attending

theorem log?_eq (hs : Attending consumer t sub log) :
    sub.consumer.log? = some log := by
  rw [hs.kept]
  exact log?_withLog hs.callback log

theorem mailbox?_eq (hs : Attending consumer t sub log) :
    sub.consumer.mailbox? = none := by
  rw [hs.kept]
  exact mailbox?_withLog hs.callback log

/-- The driver ends, and is seen to have a reason to. -/
theorem finish (hs : Attending consumer t sub log) (hrunning : sub.stage ≠ .stopped) {scene : Scene}
    (hscene : Excused [scene]) (state : Lifecycle) :
    Attending consumer (t ++ [scene]) { sub with stage := .stopped, state } log := by
  have hsilent : outputs [scene] = [] ∧ looked [scene] = [] := by
    obtain hscene | hscene | hscene := hscene
    all_goals
      rw [← List.mem_singleton.1 hscene]
      exact ⟨rfl, rfl⟩
  have hout : outputs (t ++ [scene]) = outputs t := by
    rw [outputs_append, hsilent.1, List.append_nil]
  constructor
  · exact hs.callback
  · exact hs.kept
  · rw [hout]
    exact hs.begun
  · rw [hout, recorded_append hsilent.2, eq_true (excused_append.2 (.inr hscene))]
    exact hs.progress.finish hrunning _ _

theorem stop (hs : Attending consumer t sub log) (hrunning : sub.stage ≠ .stopped) (h : Hub)
    (id : ReaderId) : Attending consumer (t ++ [.cancelled]) (sub.stop h id).1 log := by
  have hstop : (sub.stop h id).1 = { sub with stage := .stopped, state := sub.state.cancel } := by
    unfold Subscription.stop
    dsimp only
    split
    · rfl
    · rfl
  rw [hstop]
  exact hs.finish hrunning (.inl List.mem_cons_self) _

theorem register (hs : Attending consumer t sub log) (hstage : sub.stage = .spawned) (h : Hub)
    (id : ReaderId) :
    Attending consumer (t ++ if (sub.register h id).1.isStopped then [.turnedAway] else [])
      (sub.register h id).1 log := by
  obtain ⟨state, hregister⟩ | ⟨due, hregister⟩ := register_cases sub h id
  · rw [hregister]
    exact hs.finish (by simp [hstage]) (.inr (.inl List.mem_cons_self)) state
  · rw [hregister]
    show Attending consumer (t ++ []) _ log
    rw [List.append_nil]
    exact ⟨hs.callback, hs.kept, hs.begun, Progress.register (hstage ▸ hs.progress) due⟩

theorem activate {due : Nat} (hs : Attending consumer t sub log)
    (hstage : sub.stage = .registering due) (h : Hub) : Attending consumer t (sub.activate h) log :=
  ⟨hs.callback, hs.kept, hs.begun, Progress.activate (hstage ▸ hs.progress) _⟩

theorem onward (hs : Attending consumer t sub log) (hstage : sub.stage = .streaming p)
    (q : Pipeline) :
    Attending consumer (t ++ [.response .silence]) { sub with stage := .streaming q } log := by
  have hout : outputs (t ++ [.response .silence]) = outputs t := by
    rw [outputs_response]
    exact List.append_nil _
  have hexcused : Excused (t ++ [.response .silence]) = Excused t :=
    propext (excused_response t (by decide))
  constructor
  · exact hs.callback
  · exact hs.kept
  · rw [hout]
    exact hs.begun
  · rw [hout, recorded_append rfl, hexcused]
    exact Progress.onward (hstage ▸ hs.progress) q

theorem handOver (hs : Attending consumer t sub log)
    (hstage : sub.stage = .streaming p) (h : Hub) (id : ReaderId) (q : Pipeline) (e : Event) :
    ∃ log', Attending consumer (t ++ [.response (.emit e)]) (sub.handOver h id q e).1 log' := by
  have hout : outputs (t ++ [.response (.emit e)]) = outputs t ++ [e] := outputs_response t _
  have hexcused : Excused (t ++ [.response (.emit e)]) = Excused t :=
    propext (excused_response t (by simp))
  have hbegun : log.begin.begun = (outputs t ++ [e]).length := by
    rw [List.length_append, ← hs.begun]
    rfl
  have hprogress := hs.progress
  rw [hstage] at hprogress
  have hcalled := called_handOver hs.callback hs.kept h id q e
  generalize (sub.handOver h id q e).1 = next at hcalled
  -- Whatever becomes of the call, one more event has come out of the pipeline, and one more call
  -- was begun.
  have hattending {log' : CallLog} (hkept : next.consumer = consumer.withLog log')
      (hbegun' : log'.begun = log.begin.begun)
      (hprogress' : Progress consumer (Excused t) (outputs t ++ [e]) (recorded t log')
        next.state next.cancelRaised next.stage) :
      Attending consumer (t ++ [.response (.emit e)]) next log' := by
    refine ⟨hs.callback, hkept, ?_, ?_⟩
    · rw [hout, hbegun', hbegun]
    · rw [hout, recorded_append rfl, hexcused]
      exact hprogress'
  cases hcalled with
  | done hcalm =>
    -- The call is over already, so it is recorded at once.
    refine ⟨_, hattending rfl rfl ?_⟩
    rw [recorded_record]
    exact hprogress.call (hs.begun ▸ hcalm) q e
  | begun hcalm due ending =>
    exact ⟨_, hattending rfl rfl (hprogress.begin (hs.begun ▸ hcalm) q e due ending)⟩
  | crashed hcrash => exact ⟨_, hattending rfl rfl (hprogress.crash (hs.begun ▸ hcrash) e)⟩

theorem endCall {due : Nat} {ending : CallEnd} (hs : Attending consumer t sub log)
    (hstage : sub.stage = .handing p e (.callback due ending))
    (h : Hub) : Attending consumer t (sub.endCall h p e ending).1 (log.record h.now e) := by
  have hprogress := hs.progress
  rw [hstage] at hprogress
  have hkept : sub.consumer.withLog (log.record h.now e) =
      consumer.withLog (log.record h.now e) := by
    rw [hs.kept]
    exact withLog_withLog consumer log _
  rw [endCall_eq hs.log?_eq]
  dsimp only
  split
  · exact ⟨hs.callback, hkept, hs.begun, recorded_record t log h.now e ▸ hprogress.leave⟩
  · exact ⟨hs.callback, hkept, hs.begun, recorded_record t log h.now e ▸ hprogress.resume⟩

theorem proceed (hs : Attending consumer t sub log)
    (hraised : sub.cancelRaised = false) (hstep : sub.proceed? h id = some (sub', h')) :
    ∃ log', Attending consumer (t ++ sub.scenes h id) sub' log' := by
  unfold Subscription.proceed? at hstep
  unfold Subscription.scenes
  rw [hraised, if_neg Bool.false_ne_true]
  cases hstage : sub.stage with
  | stopped =>
    rw [hstage] at hstep
    cases hstep
  | spawned =>
    rw [hstage] at hstep
    have hregister := hs.register hstage h id
    simp only [Option.some.inj hstep] at hregister ⊢
    exact ⟨log, hregister⟩
  | registering due =>
    simp only [hstage] at hstep
    split at hstep
    · cases hstep
      rw [List.append_nil]
      exact ⟨log, hs.activate hstage h⟩
    · cases hstep
  | streaming p =>
    simp only [hstage] at hstep
    split at hstep
    next => cases hstep
    next q hub hnext =>
      cases hstep
      simp only [hnext]
      exact ⟨log, hs.onward hstage q⟩
    next e q hub hnext =>
      simp only [hnext]
      have hcalled := hs.handOver hstage hub id q e
      rwa [Option.some.inj hstep] at hcalled
    next hub hnext =>
      cases hstep
      simp only [hnext]
      exact ⟨log, hs.finish (by simp [hstage]) (.inr (.inr List.mem_cons_self)) _⟩
  | handing p e wait =>
    rw [hstage] at hstep
    rw [List.append_nil]
    cases wait with
    | room =>
      -- Nobody waits for room in a mailbox where there is none.
      simp only [Subscription.deposit?, hs.mailbox?_eq] at hstep
      cases hstep
    | callback due ending =>
      dsimp only at hstep
      split at hstep
      · have hended := hs.endCall hstage h
        rw [Option.some.inj hstep] at hended
        exact ⟨_, hended⟩
      · cases hstep
    | forever => cases hstep

theorem advance (hs : Attending consumer t sub log)
    (hstep : sub.advance? h id = some (sub', h')) :
    ∃ log', Attending consumer (t ++ sub.scenes h id) sub' log' := by
  unfold Subscription.advance? at hstep
  split at hstep
  next => cases hstep
  next hrunning =>
    rw [Subscription.isStopped_iff] at hrunning
    split at hstep
    next hraised =>
      have hstop := hs.stop hrunning h id
      rw [Option.some.inj hstep] at hstop
      rw [Subscription.scenes, if_pos hraised]
      exact ⟨log, hstop⟩
    next hraised => exact hs.proceed (Bool.eq_false_of_not_eq_true hraised) hstep

theorem resumes {wait : Handover} (hs : Attending consumer t sub log)
    (hstage : sub.stage = .handing p e wait) (hraised : sub.cancelRaised = false) :
    ∃ due ending, wait = .callback due ending ∧
      ∀ h, due ≤ h.now → ending ≠ .unsubscribes →
        ∃ next hub, sub.advance? h id = some (next, hub) ∧ next.stage = .streaming p ∧
          next.state = sub.state := by
  have hprogress := hs.progress
  rw [hstage, hraised] at hprogress
  obtain ⟨due, ending, rfl⟩ := hprogress.exists_callback
  -- It is not looked at whether the call returned or panicked.
  refine ⟨due, ending, rfl, fun h hdue hending => ?_⟩
  have hended := endCall_eq hs.log?_eq h p e ending
  rw [if_neg hending] at hended
  refine ⟨{ sub with stage := .streaming p, consumer := sub.consumer.withLog (log.record h.now e) },
    h.eventDelivered, ?_, rfl, rfl⟩
  rw [← hended]
  simp only [Subscription.advance?, Subscription.isStopped, Subscription.proceed?, hstage,
    hraised, hdue, if_pos, Bool.false_eq_true, if_false]

/-! ### Other actions -/

theorem raiseCancel (hs : Attending consumer t sub log) :
    Attending consumer t sub.raiseCancel log :=
  ⟨hs.callback, hs.kept, hs.begun, hs.progress.raise⟩

theorem unsubscribed (hs : Attending consumer t sub log) :
    Attending consumer t (sub.unsubscribed?.getD sub) log := by
  unfold Subscription.unsubscribed?
  split
  next hstopped =>
    rw [Subscription.isStopped_iff] at hstopped
    have hprogress := hs.progress
    rw [hstopped] at hprogress
    exact ⟨hs.callback, hs.kept, hs.begun, hstopped ▸ hprogress.of_stopped _⟩
  next => exact hs

theorem dropConsumer (hs : Attending consumer t sub log) :
    Attending consumer t sub.dropConsumer log := by
  have hmailbox := hs.mailbox?_eq
  unfold Subscription.dropConsumer
  cases hconsumer : sub.consumer with
  | stream m =>
    rw [hconsumer] at hmailbox
    cases hmailbox
  | channel m =>
    rw [hconsumer] at hmailbox
    cases hmailbox
  | callback => exact hs
  | asyncCallback => exact hs

theorem take (hs : Attending consumer t sub log) :
    Attending consumer t sub.take.2 log := by
  simp only [Subscription.take, hs.mailbox?_eq]
  exact hs

theorem takeCalls (hs : Attending consumer t sub log) (limit : Nat) :
    Attending consumer (t ++ [.taken ((sub.takeCalls limit).1.map Prod.snd)])
      (sub.takeCalls limit).2 { log with records := log.records.drop limit } := by
  let rest : CallLog := { log with records := log.records.drop limit }
  have htake : sub.takeCalls limit =
      (log.records.take limit, { sub with consumer := consumer.withLog rest }) := by
    simp only [Subscription.takeCalls, hs.log?_eq]
    rw [hs.kept, withLog_withLog]
  have hrecorded : recorded (t ++ [.taken ((log.records.take limit).map Prod.snd)]) rest =
      recorded t log := by
    have hlooked : looked [.taken ((log.records.take limit).map Prod.snd)] =
        (log.records.take limit).map Prod.snd := List.append_nil _
    rw [recorded, looked_append, hlooked, List.append_assoc, ← List.map_append,
      List.take_append_drop, recorded]
  have hout : outputs (t ++ [.taken ((log.records.take limit).map Prod.snd)]) = outputs t := by
    rw [outputs_append]
    exact List.append_nil _
  have hexcused : Excused (t ++ [.taken ((log.records.take limit).map Prod.snd)]) = Excused t := by
    simp [Excused]
  rw [htake]
  refine ⟨hs.callback, rfl, ?_, ?_⟩
  · rw [hout]
    exact hs.begun
  · rw [hout, hrecorded, hexcused]
    exact hs.progress

theorem undeterred (hs : Attending consumer t sub log) :
    Undeterred id t sub log ↔ ∀ call < log.begun, consumer.crashes call = false := by
  rw [hs.begun]
  constructor
  · intro hundeterred
    -- A crash leaves a driver that has stopped without an excuse.
    by_cases hrunning : sub.stage = .stopped
    · have hprogress := hs.progress
      rw [hrunning] at hprogress
      exact hprogress.excused_iff.1 (hundeterred.goesOn hrunning)
    · exact hs.progress.calm hrunning
  · intro hcalm
    have hprogress := hs.progress
    constructor
    · exact hs.begun
    · exact (hprogress.initial hcalm).1
    · exact (hprogress.initial hcalm).2
    · intro p hstage
      exact (Progress.settled (hstage ▸ hprogress)).1
    · intro p e due ending hstage
      exact Progress.underway (hstage ▸ hprogress)
    · intro p e wait hstage hraised
      exact hs.resumes hstage hraised
    · intro hstopped
      exact (Progress.excused_iff (hstopped ▸ hprogress)).2 hcalm
    · rintro p (hstage | ⟨e, wait, hstage⟩)
      · exact (Progress.settled (hstage ▸ hprogress)).2
      · exact Progress.ready (hstage ▸ hprogress)

end Attending

/-! ## Runs -/

namespace Service

variable {start s s' : Service} {a : Action} {id' : ReaderId}

/-- The subscription goes on under its name, and so does what is seen of it. -/
def Serves (consumer : Consumer) (id : ReaderId) (t : List Scene) (s : Service) : Prop :=
  ∃ sub log, s.subscriptions.get? id = some sub ∧ Attending consumer t sub log

theorem Serves.same (hs : Serves consumer id t s)
    (h : s'.subscriptions.get? id = s.subscriptions.get? id) :
    Serves consumer id (t ++ []) s' := by
  obtain ⟨sub, log, hsub, hattending⟩ := hs
  refine ⟨sub, log, h.trans hsub, ?_⟩
  rw [List.append_nil]
  exact hattending

theorem Serves.modify (hs : Serves consumer id t s) {f : Subscription → Subscription}
    (hf : ∀ sub log, Attending consumer t sub log → Attending consumer t (f sub) log) :
    Serves consumer id (t ++ []) (s.modifySubscription id' f) := by
  by_cases hid : id' = id
  · subst hid
    obtain ⟨sub, log, hsub, hattending⟩ := hs
    refine ⟨f sub, log, ?_, ?_⟩
    · rw [modifySubscription, Table.get?_modify_self, hsub]
      rfl
    · rw [List.append_nil]
      exact hf sub log hattending
  · exact hs.same (Table.get?_modify_of_ne _ _ (Ne.symm hid))

theorem Serves.takeCalls (hs : Serves consumer id t s)
    (limit : Nat) : Serves consumer id (t ++ s.scenes id (.takeCalls id' limit))
      (s.modifySubscription id' fun sub => (sub.takeCalls limit).2) := by
  by_cases hid : id' = id
  · subst hid
    obtain ⟨sub, log, hsub, hattending⟩ := hs
    refine ⟨(sub.takeCalls limit).2, { log with records := log.records.drop limit }, ?_, ?_⟩
    · rw [modifySubscription, Table.get?_modify_self, hsub]
      rfl
    · rw [scenes, if_pos rfl, hsub]
      exact hattending.takeCalls limit
  · rw [scenes, if_neg hid]
    exact hs.same (Table.get?_modify_of_ne _ _ (Ne.symm hid))

theorem Serves.driver (hs : Serves consumer id t s)
    (h : s.advanceSubscription? id' = some s') :
    Serves consumer id (t ++ s.scenes id (.step (.subscription id'))) s' := by
  obtain ⟨own, own', hub, hown, hstep, rfl⟩ := exists_of_advanceSubscription h
  by_cases hid : id' = id
  · subst hid
    obtain ⟨sub, log, hsub, hattending⟩ := hs
    rw [hsub] at hown
    cases hown
    obtain ⟨log', hattending'⟩ := hattending.advance hstep
    refine ⟨own', log', Table.get?_insert_self .., ?_⟩
    rw [scenes, if_pos rfl, hsub]
    exact hattending'
  · rw [scenes, if_neg hid]
    exact hs.same (Table.get?_insert_of_ne _ _ (Ne.symm hid))

theorem Serves.subscribe (hs : Serves consumer id t s) {target : Target}
    {rate : Option RateControl} {other : Consumer}
    (h : s.perform? (.subscribe id' target rate other) = some s') :
    Serves consumer id (t ++ []) s' := by
  simp only [perform?] at h
  split at h
  next => cases h
  next hfree =>
    cases h
    -- The name is taken, so it is another one that is given away.
    have hid : id ≠ id' := by
      rintro rfl
      obtain ⟨sub, log, hsub, -⟩ := hs
      rw [Table.contains, hsub] at hfree
      exact hfree rfl
    exact hs.same (Table.get?_insert_of_ne _ _ hid)

theorem Serves.perform (hs : Serves consumer id t s)
    (h : s.perform? a = some s') : Serves consumer id (t ++ s.scenes id a) s' := by
  -- Only actions on subscriptions matter, and of those only the ones on this name.
  cases a with
  | subscribe id' target rate other => exact hs.subscribe h
  | raiseCancel id' =>
    cases h
    exact hs.modify fun _ _ hattending => hattending.raiseCancel
  | endUnsubscribe id' =>
    cases h
    exact hs.modify fun _ _ hattending => hattending.unsubscribed
  | dropConsumer id' =>
    cases h
    exact hs.modify fun _ _ hattending => hattending.dropConsumer
  | take id' =>
    cases h
    exact hs.modify fun _ _ hattending => hattending.take
  | takeCalls id' limit =>
    cases h
    exact hs.takeCalls limit
  | shutdown =>
    cases h
    exact hs.same (by rw [subscriptions_shutdown])
  | closePublisher id' =>
    cases h
    exact hs.same (by rw [subscriptions_closePublisher])
  | startPeriodic name publisher schedule generate reports =>
    obtain ⟨tasks, rfl⟩ := exists_of_startPeriodic h
    exact hs.same rfl
  | startStream name publisher item reports =>
    obtain ⟨tasks, rfl⟩ := exists_of_startStream h
    exact hs.same rfl
  | step actor =>
    cases actor with
    | subscription id' => exact hs.driver h
    | publisher id' =>
      obtain ⟨p, p', hub, -, -, rfl⟩ := exists_of_advancePublisher h
      exact hs.same rfl
    | task name =>
      obtain ⟨entry, task, p, -, -, rfl⟩ := exists_of_advanceTask h
      exact hs.same rfl
  | publish _ _ | usePublisher _ | cancelTask _ | takeFailures _ | get _ | getAll _ | clearStore
  | script _ | rewire _ | wait _ =>
    cases h
    exact hs.same rfl

theorem Trail.attending {target : Target} {rate : Option RateControl}
    (trail : Trail (scenes id) start t s)
    (hstart : start.subscriptions.get? id = some (.start target rate consumer))
    (hfresh : consumer.log? = some .empty) : Serves consumer id t s := by
  induction trail with
  | start => exact ⟨_, .empty, hstart, attending_start target rate hfresh⟩
  | step _ h ih => exact ih.perform h

/-- A callback that panics does not stop its subscription, unless it takes its time and panics in
the call itself. -/
theorem Trail.undeterred_iff {target : Target} {rate : Option RateControl}
    (trail : Trail (scenes id) start t s)
    (hstart : start.subscriptions.get? id = some (.start target rate consumer))
    (hfresh : consumer.log? = some .empty) :
    ∃ sub log, s.subscriptions.get? id = some sub ∧ sub.consumer.log? = some log ∧
      (Undeterred id t sub log ↔ ∀ call < log.begun, consumer.crashes call = false) := by
  obtain ⟨sub, log, hsub, hattending⟩ := trail.attending hstart hfresh
  exact ⟨sub, log, hsub, hattending.log?_eq, hattending.undeterred⟩

/-- A service with a subscription to a key, whose driver has not begun. -/
def servedBy (consumer : Consumer) : Service :=
  logService.subscribe 0 (.keys [sharedKey]) none consumer

/-- A callback that takes its time; all its calls panic. -/
def panicky : Consumer :=
  .asyncCallback .empty fun _ => .works 100 .panics

/-- The seed and an event are handed over, and someone looks at the first call. -/
def twoCalls : List Action :=
  let driver : Action := .step (.subscription 0)
  let publisher : Action := .step (.publisher .shared)
  [driver, driver, driver, .publish .shared (sharedEvent "a"), publisher, publisher, .wait 100,
    driver, driver, .wait 100, driver, .takeCalls 0 1]

theorem undeterred_iff_twoCalls : ∃ t s sub log, Trail (scenes 0) (servedBy panicky) t s ∧
    outputs t = [.invalid sharedKey, sharedEvent "a"] ∧ looked t = [.invalid sharedKey] ∧
    s.subscriptions.get? 0 = some sub ∧ sub.consumer.log? = some log ∧ Undeterred 0 t sub log := by
  obtain ⟨t, s, trail, hgood⟩ := exists_trail_of_observed (scenes 0) (servedBy panicky) twoCalls
    (fun t _ => decide (outputs t = [.invalid sharedKey, sharedEvent "a"] ∧
      looked t = [.invalid sharedKey])) (by decide +kernel)
  obtain ⟨houtputs, hlooked⟩ := of_decide_eq_true hgood
  obtain ⟨sub, log, hsub, hlog, hiff⟩ := trail.undeterred_iff rfl rfl
  exact ⟨t, s, sub, log, trail, houtputs, hlooked, hsub, hlog, hiff.2 fun _ _ => rfl⟩

/-- A callback that takes its time; all its calls panic before they come back with any work. -/
def crashing : Consumer :=
  .asyncCallback .empty fun _ => .crash

/-- The first call ends the driver, though nobody told it to stop and the transport is open. -/
theorem not_undeterred : ¬∀ t s sub log, Trail (scenes 0) (servedBy crashing) t s →
    s.subscriptions.get? 0 = some sub → sub.consumer.log? = some log → Undeterred 0 t sub log := by
  intro hall
  let driver : Action := .step (.subscription 0)
  obtain ⟨t, s, trail, hgood⟩ := exists_trail_of_observed (scenes 0) (servedBy crashing)
    [driver, driver, driver] (fun t s =>
      decide (t = [.response (.emit (.invalid sharedKey))]) &&
        (s.subscriptions.get? 0).all Subscription.isStopped) (by decide +kernel)
  obtain ⟨ht, hstopped⟩ := (Bool.and_eq_true _ _).mp hgood
  have hquiet : ¬ Excused t := by
    rw [of_decide_eq_true ht]
    simp [Excused]
  obtain ⟨sub, log, hsub, hattending⟩ := trail.attending rfl rfl
  rw [hsub] at hstopped
  have hundeterred := hall t s sub log trail hsub hattending.log?_eq
  exact hquiet (hundeterred.goesOn (Subscription.isStopped_iff.1 hstopped))

end Service

end Observatory
