import Observatory.Proofs.Service.Run

/-!
# What a run changes

A `View` keeps of a service what the fate of events depends on: the store, the publish in flight of
every publisher, the transport's backend, and how far every subscription has come. There are few
kinds of step that a view can take, and invariants of runs are proved for these.
-/

namespace Observatory

/-- How far a subscription has come with what it listens to. -/
structure Standing where
  target : Target
  rate : Option RateControl
  stage : Stage

def Subscription.standing (s : Subscription) : Standing :=
  ⟨s.target, s.rate, s.stage⟩

/-- What the fate of events depends on. -/
structure View where
  store : Store
  flight : PublisherId → Option InFlight
  backend : Backend
  standing : ReaderId → Option Standing

/-- Where the next step of a pipeline comes from: what is seen of it, the step, and the backend
afterwards. -/
inductive Inflow (id : ReaderId) (target : Target) (backend : Backend) (p : Pipeline) :
    List Mark → Pipeline.Step → Backend → Prop where
  | seed (e : Event) (seeds : List Event) (h : p.seeds = e :: seeds) :
      Inflow id target backend p [] ({ p with seeds }.arrival e) backend
  | tick (now : Nat) (next : Pipeline.Step) (hseeds : p.seeds = []) (h : p.tick? now = some next) :
      Inflow id target backend p [] next backend
  | live (w : Stamped) (hseeds : p.seeds = []) (h : (backend.next id).result = .item w) :
      Inflow id target backend p [.given id w] (p.liveArrival target w) (backend.next id).backend
  | pending (hseeds : p.seeds = []) (h : (backend.next id).result = .pending) :
      Inflow id target backend p [] (.onward p) (backend.next id).backend
  | ended (hseeds : p.seeds = []) (h : (backend.next id).result = .ended) :
      Inflow id target backend p [] .ended (backend.next id).backend

/-- What a step of a pipeline leads to: what is seen of it, the stage, and the backend. -/
inductive Outflow (id : ReaderId) (backend : Backend) :
    Pipeline.Step → List Mark → Stage → Backend → Prop where
  | onward (p : Pipeline) : Outflow id backend (.onward p) [] (.streaming p) backend
  | wait (p : Pipeline) (e : Event) :
      Outflow id backend (.emit e p) [] (.handing p e .room) backend
  | call (p : Pipeline) (e : Event) :
      Outflow id backend (.emit e p) [.handed id e] (.streaming p) backend
  | begin (p : Pipeline) (e : Event) (due : Nat) (ending : CallEnd) :
      Outflow id backend (.emit e p) [.handed id e] (.handing p e (.callback due ending)) backend
  | crash (p : Pipeline) (e : Event) :
      Outflow id backend (.emit e p) [.handed id e] .stopped (backend.drop id)
  | ended : Outflow id backend .ended [] .stopped (backend.drop id)

theorem Inflow.came {id : ReaderId} {target : Target} {backend after : Backend} {p : Pipeline}
    {came : List Mark} {next : Pipeline.Step} {m : Mark}
    (h : Inflow id target backend p came next after) (hm : m ∈ came) : ∃ w, m = .given id w := by
  cases h with
  | live w hseeds hitem => exact ⟨w, List.mem_singleton.1 hm⟩
  | seed first seeds hseeds => cases hm
  | tick now _ hseeds htick => cases hm
  | pending hseeds hresult => cases hm
  | ended hseeds hresult => cases hm

theorem Outflow.went {id : ReaderId} {backend after : Backend} {next : Pipeline.Step}
    {went : List Mark} {stage : Stage} {m : Mark} (h : Outflow id backend next went stage after)
    (hm : m ∈ went) : ∃ e p, next = .emit e p ∧ m = .handed id e := by
  cases h with
  | onward p => cases hm
  | wait p e => cases hm
  | call p e => exact ⟨e, p, rfl, List.mem_singleton.1 hm⟩
  | begin p e due ending => exact ⟨e, p, rfl, List.mem_singleton.1 hm⟩
  | crash p e => exact ⟨e, p, rfl, List.mem_singleton.1 hm⟩
  | ended => cases hm

def Store.undo (s : Store) (flight : InFlight) : Store :=
  s.restore flight.written.key flight.written.event.id flight.previous

namespace View

def withStore (v : View) (store : Store) : View :=
  { v with store }

def withBackend (v : View) (backend : Backend) : View :=
  { v with backend }

def setFlight (v : View) (id : PublisherId) (flight : Option InFlight) : View :=
  { v with flight := Function.update v.flight id flight }

def setStanding (v : View) (id : ReaderId) (standing : Standing) : View :=
  { v with standing := Function.update v.standing id (some standing) }

theorem standing_setStanding (v : View) (id id' : ReaderId) (standing : Standing) :
    (v.setStanding id standing).standing id' =
      if id' = id then some standing else v.standing id' :=
  Function.update_apply v.standing id (some standing) id'

/-- The steps of a view, with what is seen of them. -/
inductive Step (v : View) : List Mark → View → Prop where
  | read (marks : List Mark) (h : ∀ m ∈ marks, ∃ key, m = .read key (v.store.read key)) :
      Step v marks v
  | clear : Step v [.cleared] (v.withStore v.store.clear)
  | offer (id : PublisherId) (event : Event) (flight : InFlight) (hfree : v.flight id = none)
      (hwritten : flight.written = (v.store.put event.key event).1.written)
      (hprevious : flight.previous = (v.store.put event.key event).1.previous) :
      Step v [.written flight.written]
        ((v.withStore (v.store.put event.key event).2).setFlight id (some flight))
  | accept (id : PublisherId) (flight : InFlight) (backend : Backend)
      (hflight : v.flight id = some flight)
      (hpublish : v.backend.publish flight.written = .ok backend) :
      Step v [.accepted flight.written] ((v.withBackend backend).setFlight id none)
  | refuse (id : PublisherId) (flight : InFlight) (hflight : v.flight id = some flight) :
      Step v [.refused flight.written]
        ((v.withStore (v.store.undo flight)).setFlight id none)
  | crash (id : PublisherId) (flight : InFlight) (hflight : v.flight id = some flight) :
      Step v [.crashed flight.written] (v.setFlight id none)
  | rewire (backend : Backend) : Step v [.rewired] (v.withBackend backend)
  | shutdown : Step v [] (v.withBackend v.backend.shutdown)
  | subscribe (id : ReaderId) (target : Target) (rate : Option RateControl)
      (hfree : v.standing id = none) : Step v [] (v.setStanding id ⟨target, rate, .spawned⟩)
  | register (id : ReaderId) (target : Target) (rate : Option RateControl) (due : Nat)
      (backend : Backend) (hstanding : v.standing id = some ⟨target, rate, .spawned⟩)
      (hregister : target.register id v.backend = .ok backend) :
      Step v [.registered id]
        ((v.withBackend backend).setStanding id ⟨target, rate, .registering due⟩)
  | activate (id : ReaderId) (target : Target) (rate : Option RateControl) (due now : Nat)
      (hstanding : v.standing id = some ⟨target, rate, .registering due⟩) :
      Step v [.seeded id (target.seeds v.store)]
        (v.setStanding id ⟨target, rate, .streaming (.start (target.seeds v.store) rate now)⟩)
  | flow (id : ReaderId) (target : Target) (rate : Option RateControl) (p : Pipeline)
      (next : Pipeline.Step) (came went : List Mark) (stage : Stage) (between after : Backend)
      (hstanding : v.standing id = some ⟨target, rate, .streaming p⟩)
      (hin : Inflow id target v.backend p came next between)
      (hout : Outflow id between next went stage after) :
      Step v (came ++ went) ((v.withBackend after).setStanding id ⟨target, rate, stage⟩)
  | deposit (id : ReaderId) (target : Target) (rate : Option RateControl) (p : Pipeline)
      (e : Event) (hstanding : v.standing id = some ⟨target, rate, .handing p e .room⟩) :
      Step v [.handed id e] (v.setStanding id ⟨target, rate, .streaming p⟩)
  | endCall (id : ReaderId) (target : Target) (rate : Option RateControl) (p : Pipeline)
      (e : Event) (due : Nat) (ending : CallEnd) (stage : Stage)
      (hstanding : v.standing id = some ⟨target, rate, .handing p e (.callback due ending)⟩)
      (hstage : stage = .streaming p ∨ stage = .handing p e .forever) :
      Step v [] (v.setStanding id ⟨target, rate, stage⟩)
  | stop (id : ReaderId) (target : Target) (rate : Option RateControl) (stage : Stage)
      (backend : Backend) (hstanding : v.standing id = some ⟨target, rate, stage⟩)
      (hbackend : backend = v.backend ∨ backend = v.backend.drop id) :
      Step v [] ((v.withBackend backend).setStanding id ⟨target, rate, .stopped⟩)

end View

namespace Service

def view (s : Service) : View where
  store := s.hub.store
  flight id := (s.publisher id).inFlight
  backend := s.hub.transport.backend
  standing id := (s.subscriptions.get? id).map Subscription.standing

end Service

end Observatory
