import Observatory.Proofs.Identity.Order
import Observatory.Proofs.Service.Publishing

/-!
# What subscriptions hand over

A subscription to keys reads its seeds from the store and everything later from the transport. The
two race: a write may be seeded, given by the transport, or both, and stamps tell which. What is
handed over is one seed for every key, and then every write that the transport gave and no seed
covers.
-/

namespace Observatory

variable {t marks : List Mark} {v v' : View} {id : ReaderId} {keys : List EventKey}

/-- The subscription that a mark is about. -/
def Mark.reader? : Mark → Option ReaderId
  | .registered id | .seeded id _ | .given id _ | .handed id _ => some id
  | _ => none

/-- What the transport gave to a subscription. -/
def given (t : List Mark) (id : ReaderId) : List Stamped :=
  t.filterMap fun
    | .given id' w => if id' = id then some w else none
    | _ => none

/-- What the consumer of a subscription got. -/
def handed (t : List Mark) (id : ReaderId) : List Event :=
  t.filterMap fun
    | .handed id' e => if id' = id then some e else none
    | _ => none

/-- What happened after a subscription was registered. -/
def since (id : ReaderId) : List Mark → List Mark
  | [] => []
  | m :: t => if m = .registered id then t else since id t

/-- The writes on a key that the transport took after a subscription was registered, in the order in
which they were made. -/
def due (t : List Mark) (id : ReaderId) (key : EventKey) : List Stamped :=
  (writes t).filter fun w => w.key = key ∧ .accepted w ∈ since id t

/-- The last write on a key. -/
def latest (t : List Mark) (key : EventKey) : Stamped :=
  ((writes t).filter fun w => w.key = key).getLast?.getD (.invalid key)

/-- The transport gives a subscription what it took on its keys since the registration, on every key
in the order of the writes. -/
structure Faithful (t : List Mark) (id : ReaderId) (keys : List EventKey) : Prop where
  subscribed : ∀ w ∈ given t id, w.key ∈ keys
  inOrder : ∀ key ∈ keys, (given t id).filter (fun w => w.key = key) <+: due t id key

/-! ## Traces -/

theorem given_append (t t' : List Mark) (id : ReaderId) :
    given (t ++ t') id = given t id ++ given t' id :=
  List.filterMap_append

theorem handed_append (t t' : List Mark) (id : ReaderId) :
    handed (t ++ t') id = handed t id ++ handed t' id :=
  List.filterMap_append

theorem given_of_reader (h : ∀ m ∈ marks, m.reader? ≠ some id) : given marks id = [] := by
  rw [given, List.filterMap_eq_nil_iff]
  intro m hm
  cases m with
  | given id' w => exact if_neg fun heq => h _ hm (congrArg some heq)
  | _ => rfl

theorem handed_of_reader (h : ∀ m ∈ marks, m.reader? ≠ some id) : handed marks id = [] := by
  rw [handed, List.filterMap_eq_nil_iff]
  intro m hm
  cases m with
  | handed id' e => exact if_neg fun heq => h _ hm (congrArg some heq)
  | _ => rfl

theorem since_append {before : List Mark} (h : .registered id ∈ before) (after : List Mark) :
    since id (before ++ after) = since id before ++ after := by
  induction before with
  | nil => cases h
  | cons m before ih =>
    rw [List.cons_append]
    unfold since
    split
    next => rfl
    next hm =>
      rcases List.mem_cons.1 h with heq | h
      · exact absurd heq.symm hm
      · exact ih h

theorem mem_of_mem_since {m : Mark} (h : m ∈ since id t) : m ∈ t := by
  induction t with
  | nil => exact h
  | cons x t ih =>
    unfold since at h
    split at h
    · exact List.mem_cons_of_mem x h
    · exact List.mem_cons_of_mem x (ih h)

theorem latest_append (before after : List Mark) (key : EventKey) :
    latest (before ++ after) key =
      (((writes after).filter fun w => w.key = key).getLast?).getD (latest before key) := by
  unfold latest
  rw [writes_append, List.filter_append, List.getLast?_append]
  cases ((writes after).filter fun w => w.key = key).getLast? with
  | none => rw [Option.none_or, Option.getD_none]
  | some w => rw [Option.some_or, Option.getD_some, Option.getD_some]

/-- The latest write of a key is a write on the key, or the invalid event. -/
theorem latest_cases (t : List Mark) (key : EventKey) :
    latest t key = .invalid key ∨ (latest t key ∈ writes t ∧ (latest t key).key = key) := by
  unfold latest
  cases hlast : ((writes t).filter fun w => w.key = key).getLast? with
  | none => exact .inl rfl
  | some w =>
    obtain ⟨hmem, hkey⟩ := List.mem_filter.1 (List.mem_of_getLast? hlast)
    exact .inr ⟨hmem, of_decide_eq_true hkey⟩

theorem key_latest (t : List Mark) (key : EventKey) : (latest t key).key = key := by
  rcases latest_cases t key with hinvalid | ⟨_, hkey⟩
  · rw [hinvalid]
    rfl
  · exact hkey

theorem stamp_le_latest (hascending : (writes t).Pairwise fun a b => a.stamp < b.stamp)
    {w : Stamped} (hw : w ∈ writes t) : w.stamp ≤ (latest t w.key).stamp := by
  have hmem : w ∈ (writes t).filter fun x => x.key = w.key :=
    List.mem_filter.2 ⟨hw, decide_eq_true rfl⟩
  have hpairwise := hascending.filter fun x => x.key = w.key
  unfold latest
  cases hlast : ((writes t).filter fun x => x.key = w.key).getLast? with
  | none =>
    rw [List.getLast?_eq_none_iff] at hlast
    rw [hlast] at hmem
    cases hmem
  | some last =>
    obtain ⟨init, hsplit⟩ := List.getLast?_eq_some_iff.1 hlast
    rw [hsplit] at hmem hpairwise
    rw [Option.getD_some]
    rcases List.mem_append.1 hmem with hinit | hself
    · exact Nat.le_of_lt ((List.pairwise_append.1 hpairwise).2.2 w hinit last List.mem_cons_self)
    · rw [List.mem_singleton.1 hself]

/-! ## The store -/

/-- Where nothing is refused or cleared, every key has its last write. -/
theorem View.Publishing.read_eq_latest (hstep : View.Publishing v marks v')
    (h : ∀ key, v.store.read key = latest t key) (hrefused : ∀ w, .refused w ∉ marks)
    (hcleared : .cleared ∉ marks) (key : EventKey) :
    v'.store.read key = latest (t ++ marks) key := by
  -- Marks without a write leave the last writes as they are.
  have hsame : writes marks = [] → v'.store = v.store →
      v'.store.read key = latest (t ++ marks) key := by
    intro hnone hstore
    rw [hstore, h, latest_append, hnone]
    rfl
  cases hstep with
  | quiet _ _ hmarks hstore hflight =>
    exact hsame (writes_quiet fun m hm => Mark.write?_of_isPublishing (hmarks m hm)) hstore
  | clear _ hstore hflight => exact absurd List.mem_cons_self hcleared
  | offer publisher event flight _ hfree hwritten hprevious hstore hflight =>
    have hw : flight.written.key = event.key := hwritten ▸ rfl
    have hwrites : writes [.written flight.written] = [flight.written] := rfl
    rw [hstore, Store.read_put, latest_append, hwrites, List.filter_singleton, hw]
    by_cases hkey : key = event.key
    · rw [if_pos hkey, decide_eq_true hkey.symm, hwritten]
      rfl
    · rw [if_neg hkey, decide_eq_false (Ne.symm hkey), h]
      rfl
  | accept publisher flight _ hin hstore hflight => exact hsame rfl hstore
  | refuse publisher flight _ hin hstore hflight => exact absurd List.mem_cons_self (hrefused _)
  | crash publisher flight _ hin hstore hflight => exact hsame rfl hstore

/-! ## One subscription -/

/-- The subscription read its seeds from the last writes, when it was registered already. -/
def SeededAt (t : List Mark) (id : ReaderId) (keys : List EventKey) (seeds : List Stamped) : Prop :=
  ∃ before after, t = before ++ .seeded id seeds :: after ∧ .registered id ∈ before ∧
    seeds = (EventKey.sortDistinct keys).map (latest before) ∧
    ∀ w, .accepted w ∈ before → .written w ∈ before

/-- What a subscription has to hand over: its seeds, and what was given to it beyond them. -/
def toHandOver (t : List Mark) (id : ReaderId) (seeds : List Stamped) : List Stamped :=
  seeds ++ (given t id).filter (Pipeline.start seeds none 0).isNews

/-- The subscription runs, and still has `waiting` to hand over of what it has taken in. -/
def Underway (t : List Mark) (id : ReaderId) (keys : List EventKey) (p : Pipeline)
    (waiting : List Event) : Prop :=
  ∃ seeds, SeededAt t id keys seeds ∧ p.covered = (Pipeline.start seeds none 0).covered ∧
    p.pacing = none ∧ handed t id ++ waiting = (toHandOver t id seeds).map Stamped.event

/-- The subscription has handed over no more than it had to, and that in order. -/
def Partial (t : List Mark) (id : ReaderId) (keys : List EventKey) : Prop :=
  handed t id = [] ∨ ∃ seeds, SeededAt t id keys seeds ∧
    handed t id <+: (toHandOver t id seeds).map Stamped.event

/-- How far a subscription to keys has come at a stage of its driver. -/
def Serving (t : List Mark) (id : ReaderId) (keys : List EventKey) : Stage → Prop
  | .spawned => given t id = [] ∧ handed t id = []
  | .registering _ => .registered id ∈ t ∧ given t id = [] ∧ handed t id = []
  | .streaming p => Underway t id keys p p.seeds
  | .handing p e .room => Underway t id keys p (e :: p.seeds)
  -- A callback has its event from the moment it is called.
  | .handing p _ _ => Underway t id keys p p.seeds
  | .stopped => Partial t id keys

/-- How far it has come once a step of its pipeline is taken. -/
def Upcoming (t : List Mark) (id : ReaderId) (keys : List EventKey) : Pipeline.Step → Prop
  | .onward p => Underway t id keys p p.seeds
  | .emit e p => Underway t id keys p (e :: p.seeds)
  | .ended => Partial t id keys

theorem SeededAt.append {seeds : List Stamped} (h : SeededAt t id keys seeds)
    (marks : List Mark) : SeededAt (t ++ marks) id keys seeds := by
  obtain ⟨before, after, rfl, hseeded⟩ := h
  exact ⟨before, after ++ marks, by rw [List.append_assoc, List.cons_append], hseeded⟩

namespace Underway

variable {p : Pipeline} {e : Event} {waiting : List Event}

theorem frame (h : Underway t id keys p waiting) (hgiven : given marks id = [])
    (hhanded : handed marks id = []) : Underway (t ++ marks) id keys p waiting := by
  obtain ⟨seeds, hseeded, hcovered, hpacing, heq⟩ := h
  refine ⟨seeds, hseeded.append marks, hcovered, hpacing, ?_⟩
  rw [handed_append, hhanded, List.append_nil, toHandOver, given_append, hgiven, List.append_nil]
  exact heq

theorem handOver (h : Underway t id keys p (e :: waiting)) :
    Underway (t ++ [.handed id e]) id keys p waiting := by
  obtain ⟨seeds, hseeded, hcovered, hpacing, heq⟩ := h
  have hhanded : handed [.handed id e] id = [e] := by simp [handed]
  have hgiven : given [.handed id e] id = [] := rfl
  refine ⟨seeds, hseeded.append _, hcovered, hpacing, ?_⟩
  rw [handed_append, hhanded, toHandOver, given_append, hgiven, List.append_nil,
    List.append_assoc, List.singleton_append]
  exact heq

theorem isPartial (h : Underway t id keys p waiting) : Partial t id keys := by
  obtain ⟨seeds, hseeded, _, _, heq⟩ := h
  exact .inr ⟨seeds, hseeded, waiting, heq⟩

/-- A live event waits to be handed over if and only if no seed covers it. -/
theorem live (h : Underway t id keys p []) (hseeds : p.seeds = []) (w : Stamped) :
    Upcoming (t ++ [.given id w]) id keys (p.liveArrival (.keys keys) w) := by
  obtain ⟨seeds, hseeded, hcovered, hpacing, heq⟩ := h
  have hhanded : handed [.given id w] id = [] := rfl
  have hgiven : given [.given id w] id = [w] := by simp [given]
  have hnews : p.isNews w = (Pipeline.start seeds none 0).isNews w := by
    simp only [Pipeline.isNews, hcovered]
  rw [List.append_nil] at heq
  unfold Pipeline.liveArrival Target.admits
  rw [Bool.and_true, hnews]
  cases hw : (Pipeline.start seeds none 0).isNews w with
  | true =>
    have harrival : p.arrival w.event = .emit w.event p := by
      unfold Pipeline.arrival
      rw [hpacing]
    rw [if_pos rfl, harrival]
    refine ⟨seeds, hseeded.append _, hcovered, hpacing, ?_⟩
    rw [handed_append, hhanded, List.append_nil, toHandOver, given_append, hgiven,
      List.filter_append, List.filter_singleton, hw, heq, hseeds, ← List.append_assoc,
      List.map_append]
    rfl
  | false =>
    rw [if_neg Bool.false_ne_true]
    refine ⟨seeds, hseeded.append _, hcovered, hpacing, ?_⟩
    rw [handed_append, hhanded, List.append_nil, toHandOver, given_append, hgiven,
      List.filter_append, List.filter_singleton, hw, heq, hseeds]
    simp [toHandOver]

theorem inflow {backend after : Backend} {came : List Mark} {next : Pipeline.Step}
    (h : Underway t id keys p p.seeds) (hin : Inflow id (.keys keys) backend p came next after) :
    Upcoming (t ++ came) id keys next := by
  cases hin with
  | seed e seeds hseeds =>
    obtain ⟨all, hseeded, hcovered, hpacing, heq⟩ := h
    have harrival : Pipeline.arrival { p with seeds } e = .emit e { p with seeds } := by
      unfold Pipeline.arrival
      rw [hpacing]
    rw [List.append_nil, harrival]
    exact ⟨all, hseeded, hcovered, hpacing, hseeds ▸ heq⟩
  | tick now _ hseeds htick =>
    -- Without rate control there are no ticks.
    obtain ⟨_, _, _, hpacing, _⟩ := h
    rw [Pipeline.tick?, hpacing] at htick
    cases htick
  | live w hseeds hitem => exact (hseeds ▸ h : Underway t id keys p []).live hseeds w
  | pending hseeds hresult => exact h.frame rfl rfl
  | ended hseeds hresult => exact (h.frame rfl rfl).isPartial

end Underway

theorem Upcoming.outflow {next : Pipeline.Step} {between after : Backend} {went : List Mark}
    {stage : Stage} (h : Upcoming t id keys next)
    (hout : Outflow id between next went stage after) : Serving (t ++ went) id keys stage := by
  cases hout with
  | onward p => exact Underway.frame h rfl rfl
  | wait p e => exact Underway.frame h rfl rfl
  | call p e => exact Underway.handOver h
  | begin p e due ending => exact Underway.handOver h
  | crash p e => exact (Underway.handOver h).isPartial
  | ended =>
    rw [List.append_nil]
    exact h

namespace Serving

variable {stage : Stage}

theorem frame (h : Serving t id keys stage) (hgiven : given marks id = [])
    (hhanded : handed marks id = []) : Serving (t ++ marks) id keys stage := by
  have hboth : given t id = [] ∧ handed t id = [] →
      given (t ++ marks) id = [] ∧ handed (t ++ marks) id = [] := by
    intro ⟨hg, hh⟩
    rw [given_append, handed_append, hg, hh, hgiven, hhanded]
    exact ⟨rfl, rfl⟩
  cases stage with
  | spawned => exact hboth h
  | registering due => exact ⟨List.mem_append_left _ h.1, hboth h.2⟩
  | streaming p => exact Underway.frame h hgiven hhanded
  | handing p e wait =>
    cases wait with
    | room => exact Underway.frame h hgiven hhanded
    | callback due ending => exact Underway.frame h hgiven hhanded
    | forever => exact Underway.frame h hgiven hhanded
  | stopped =>
    unfold Serving Partial
    rw [handed_append, hhanded, List.append_nil]
    rcases h with hnone | ⟨seeds, hseeded, hh⟩
    · exact .inl hnone
    · refine .inr ⟨seeds, hseeded.append marks, ?_⟩
      rw [toHandOver, given_append, hgiven, List.append_nil]
      exact hh

theorem isPartial (h : Serving t id keys stage) : Partial t id keys := by
  cases stage with
  | spawned => exact .inl h.2
  | registering due => exact .inl h.2.2
  | streaming p => exact Underway.isPartial h
  | handing p e wait =>
    cases wait with
    | room => exact Underway.isPartial h
    | callback due ending => exact Underway.isPartial h
    | forever => exact Underway.isPartial h
  | stopped => exact h

/-- The seeds are read in one step, from the store as it stands. -/
theorem activate {due now : Nat} {store : Store} (h : Serving t id keys (.registering due))
    (hread : ∀ key, store.read key = latest t key)
    (haccepted : ∀ w, .accepted w ∈ t → .written w ∈ t) :
    Serving (t ++ [.seeded id ((Target.keys keys).seeds store)]) id keys
      (.streaming (.start ((Target.keys keys).seeds store) none now)) := by
  obtain ⟨hregistered, hgiven, hhanded⟩ := h
  refine ⟨_, ⟨t, [], rfl, hregistered, ?_, haccepted⟩, rfl, rfl, ?_⟩
  · exact List.map_congr_left fun key _ => hread key
  · rw [handed_append, toHandOver, given_append, hgiven, hhanded]
    simp [given, handed, Pipeline.start]

end Serving

/-- How far all subscriptions to keys without rate control have come. -/
structure Attended (t : List Mark) (v : View) : Prop where
  absent : ∀ id, v.standing id = none → given t id = [] ∧ handed t id = []
  serving : ∀ id keys stage, v.standing id = some ⟨.keys keys, none, stage⟩ →
    Serving t id keys stage

namespace Attended

theorem keep (h : Attended t v) (hmarks : ∀ m ∈ marks, m.reader? = none)
    (hstanding : v'.standing = v.standing) : Attended (t ++ marks) v' := by
  have hother : ∀ id, ∀ m ∈ marks, m.reader? ≠ some id := by
    intro id m hm heq
    rw [hmarks m hm] at heq
    cases heq
  refine ⟨fun id hnone => ?_, fun id keys stage hat => ?_⟩
  · rw [hstanding] at hnone
    rw [given_append, handed_append, given_of_reader (hother id), handed_of_reader (hother id),
      List.append_nil, List.append_nil]
    exact h.absent id hnone
  · rw [hstanding] at hat
    exact (h.serving id keys stage hat).frame (given_of_reader (hother id))
      (handed_of_reader (hother id))

theorem place (h : Attended t v) {target : Target} {rate : Option RateControl} {stage : Stage}
    {backend : Backend} (hmarks : ∀ m ∈ marks, m.reader? = some id)
    (hserving : ∀ keys, target = .keys keys → rate = none → Serving (t ++ marks) id keys stage) :
    Attended (t ++ marks) ((v.withBackend backend).setStanding id ⟨target, rate, stage⟩) := by
  have hother : ∀ id', id' ≠ id → given marks id' = [] ∧ handed marks id' = [] := by
    intro id' hid
    have hne : ∀ m ∈ marks, m.reader? ≠ some id' := by
      intro m hm heq
      rw [hmarks m hm] at heq
      exact hid (Option.some.inj heq).symm
    exact ⟨given_of_reader hne, handed_of_reader hne⟩
  refine ⟨fun id' hnone => ?_, fun id' keys stage' hat => ?_⟩
  · rw [View.standing_setStanding] at hnone
    split at hnone
    next => cases hnone
    next hid =>
      obtain ⟨hgiven, hhanded⟩ := hother id' hid
      rw [given_append, handed_append, hgiven, hhanded, List.append_nil, List.append_nil]
      exact h.absent id' hnone
  · rw [View.standing_setStanding] at hat
    split at hat
    next hid =>
      cases hat
      exact hid ▸ hserving keys rfl rfl
    next hid =>
      obtain ⟨hgiven, hhanded⟩ := hother id' hid
      exact (h.serving id' keys stage' hat).frame hgiven hhanded

theorem step (h : Attended t v) (hstep : View.Step v marks v')
    (hread : ∀ key, v.store.read key = latest t key)
    (haccepted : ∀ w, .accepted w ∈ t → .written w ∈ t) : Attended (t ++ marks) v' := by
  cases hstep with
  | read _ hmarks =>
    refine h.keep (fun m hm => ?_) rfl
    obtain ⟨key, rfl⟩ := hmarks m hm
    rfl
  | clear => exact h.keep (List.forall_mem_singleton.2 rfl) rfl
  | offer publisher event flight hfree hwritten hprevious =>
    exact h.keep (List.forall_mem_singleton.2 rfl) rfl
  | accept publisher flight backend hin hpublish =>
    exact h.keep (List.forall_mem_singleton.2 rfl) rfl
  | refuse publisher flight hin => exact h.keep (List.forall_mem_singleton.2 rfl) rfl
  | crash publisher flight hin => exact h.keep (List.forall_mem_singleton.2 rfl) rfl
  | rewire backend => exact h.keep (List.forall_mem_singleton.2 rfl) rfl
  | shutdown => exact h.keep (List.forall_mem_nil _) rfl
  | subscribe id target rate hfree =>
    refine h.place (List.forall_mem_nil _) fun keys _ _ => ?_
    rw [List.append_nil]
    exact h.absent id hfree
  | register id target rate due backend hstanding hregister =>
    refine h.place (List.forall_mem_singleton.2 rfl) ?_
    rintro keys rfl rfl
    -- Until it is registered, a subscription is given nothing and hands over nothing.
    obtain ⟨hgiven, hhanded⟩ := h.serving id keys _ hstanding
    refine ⟨List.mem_append_right _ List.mem_cons_self, ?_⟩
    rw [given_append, handed_append, hgiven, hhanded]
    exact ⟨rfl, rfl⟩
  | activate id target rate due now hstanding =>
    refine h.place (List.forall_mem_singleton.2 rfl) ?_
    rintro keys rfl rfl
    exact (h.serving id keys _ hstanding).activate hread haccepted
  | flow id target rate p next came went stage between after hstanding hin hout =>
    refine h.place (fun m hm => ?_) ?_
    · rcases List.mem_append.1 hm with hm | hm
      · obtain ⟨w, rfl⟩ := hin.came hm
        rfl
      · obtain ⟨e, _, _, rfl⟩ := hout.went hm
        rfl
    · rintro keys rfl rfl
      rw [← List.append_assoc]
      exact (Underway.inflow (h.serving id keys _ hstanding) hin).outflow hout
  | deposit id target rate p e hstanding =>
    refine h.place (List.forall_mem_singleton.2 rfl) ?_
    rintro keys rfl rfl
    exact Underway.handOver (h.serving id keys _ hstanding)
  | endCall id target rate p e due ending stage hstanding hstage =>
    refine h.place (List.forall_mem_nil _) ?_
    rintro keys rfl rfl
    rw [List.append_nil]
    have hunderway : Underway t id keys p p.seeds := h.serving id keys _ hstanding
    rcases hstage with rfl | rfl
    · exact hunderway
    · exact hunderway
  | stop id target rate stage backend hstanding hbackend =>
    refine h.place (List.forall_mem_nil _) ?_
    rintro keys rfl rfl
    rw [List.append_nil]
    exact (h.serving id keys stage hstanding).isPartial

end Attended

/-! ## Keys -/

/-- What a subscription to keys has handed over. -/
structure Delivery (t : List Mark) (id : ReaderId) (keys : List EventKey)
    (seeds delivered : List Stamped) : Prop where
  snapshot : ∃ before after, t = before ++ .seeded id seeds :: after ∧ .registered id ∈ before ∧
    ∀ seed ∈ seeds, seed = latest before seed.key
  distinct : (seeds.map Stamped.key).Nodup
  subscribed : ∀ key, key ∈ seeds.map Stamped.key ↔ key ∈ keys
  handed : handed t id = delivered.map Stamped.event
  seedsFirst : delivered <+: seeds ∨ seeds <+: delivered
  others : ∀ w ∈ delivered, w.key ∈ keys
  inOrder : ∀ seed ∈ seeds, delivered.filter (fun w => w.key = seed.key) <+:
    seed :: (due t id seed.key).filter fun w => seed.stamp < w.stamp
  ascending : ∀ key, (delivered.filter fun w => w.key = key).Pairwise fun a b => a.stamp < b.stamp

/-- Nothing is under way: all writes are answered, the transport has given what it had to give, and
the subscription has handed that over. -/
structure AtRest (t : List Mark) (s : Service) (id : ReaderId) (keys : List EventKey) : Prop where
  idle : ∀ publisher, (s.publisher publisher).inFlight = none
  uncrashed : ∀ w, .crashed w ∉ t
  given : ∀ key ∈ keys, (given t id).filter (fun w => w.key = key) = due t id key
  drained : ∃ sub p, s.subscriptions.get? id = some sub ∧ sub.stage = .streaming p ∧ p.seeds = []

/-- What a subscription has handed over is all that it has to. -/
structure Delivery.Complete (t : List Mark) (s : Service) (id : ReaderId) (keys : List EventKey)
    (seeds delivered : List Stamped) : Prop where
  seedsFirst : seeds <+: delivered
  exact : ∀ seed ∈ seeds, delivered.filter (fun w => w.key = seed.key) =
    seed :: (due t id seed.key).filter fun w => seed.stamp < w.stamp
  nothingLost : ∀ w, .accepted w ∈ since id t → w.key ∈ keys →
    w ∈ delivered ∨ ∃ seed ∈ seeds, seed.key = w.key ∧ w.stamp ≤ seed.stamp
  last : ∀ key ∈ keys,
    (delivered.filter fun w => w.key = key).getLast? = some (s.hub.store.read key)

namespace SeededAt

variable {seeds : List Stamped} {seed : Stamped}

theorem keys_seeds (h : SeededAt t id keys seeds) :
    seeds.map Stamped.key = EventKey.sortDistinct keys := by
  obtain ⟨before, after, _, _, rfl, _⟩ := h
  rw [List.map_map]
  exact List.map_id'' (fun key => key_latest before key) _

theorem nodup (h : SeededAt t id keys seeds) : (seeds.map Stamped.key).Nodup := by
  rw [h.keys_seeds]
  exact EventKey.nodup_sortDistinct keys

theorem mem_keys (h : SeededAt t id keys seeds) (key : EventKey) :
    key ∈ seeds.map Stamped.key ↔ key ∈ keys := by
  rw [h.keys_seeds]
  exact EventKey.mem_sortDistinct

theorem isNews_iff (h : SeededAt t id keys seeds) (hseed : seed ∈ seeds) {w : Stamped}
    (hw : w.key = seed.key) :
    (Pipeline.start seeds none 0).isNews w = decide (seed.stamp < w.stamp) := by
  have hcovered : (Pipeline.start seeds none 0).covered.get? w.key = some seed.stamp := by
    rw [hw]
    refine Table.get?_of_mem_entries ?_ (List.mem_map.2 ⟨seed, hseed, rfl⟩)
    have hkeys : (Pipeline.start seeds none 0).covered.keys = seeds.map Stamped.key := by
      simp [Table.keys, Pipeline.start]
    rw [hkeys]
    exact h.nodup
  unfold Pipeline.isNews
  rw [hcovered]

theorem filter_seeds (h : (seeds.map Stamped.key).Nodup) (hseed : seed ∈ seeds) :
    (seeds.filter fun w => w.key = seed.key) = [seed] := by
  induction seeds with
  | nil => cases hseed
  | cons x seeds ih =>
    obtain ⟨hx, hseeds⟩ := List.nodup_cons.1 h
    rcases List.mem_cons.1 hseed with rfl | hseed
    · have hrest : (seeds.filter fun w => w.key = seed.key) = [] := by
        rw [List.filter_eq_nil_iff]
        intro w hw heq
        exact hx (List.mem_map.2 ⟨w, hw, of_decide_eq_true heq⟩)
      rw [List.filter_cons, if_pos (decide_eq_true rfl), hrest]
    · have hne : x.key ≠ seed.key := fun heq => hx (List.mem_map.2 ⟨seed, hseed, heq.symm⟩)
      rw [List.filter_cons, decide_eq_false hne, if_neg Bool.false_ne_true, ih hseeds hseed]

/-- On one key there is one seed, and then what was given beyond it. -/
theorem filter_toHandOver (h : SeededAt t id keys seeds) (hseed : seed ∈ seeds) :
    ((toHandOver t id seeds).filter fun w => w.key = seed.key) =
      seed :: ((given t id).filter fun w => w.key = seed.key).filter
        fun w => seed.stamp < w.stamp := by
  rw [toHandOver, List.filter_append, filter_seeds h.nodup hseed, List.singleton_append,
    List.filter_comm]
  congr 1
  refine List.filter_congr fun w hw => ?_
  exact h.isNews_iff hseed (of_decide_eq_true (List.mem_filter.1 hw).2)

end SeededAt

/-! ## What has been handed over -/

section Handed

variable {seeds delivered : List Stamped}

theorem ascending_due (hacc : Accounted t v) (key : EventKey) :
    (due t id key).Pairwise fun a b => a.stamp < b.stamp :=
  hacc.ascending.filter _

/-- What is handed over on a key is in the order of its stamps. -/
theorem ascending_seed_due (hacc : Accounted t v) (seed : Stamped) :
    (seed :: (due t id seed.key).filter fun w => seed.stamp < w.stamp).Pairwise
      fun a b => a.stamp < b.stamp := by
  refine List.pairwise_cons.2 ⟨fun w hw => ?_, (ascending_due hacc seed.key).filter _⟩
  exact of_decide_eq_true (List.mem_filter.1 hw).2

theorem SeededAt.delivery (h : SeededAt t id keys seeds) (hacc : Accounted t v)
    (hlaw : Faithful t id keys) (hstem : delivered <+: toHandOver t id seeds)
    (hhanded : handed t id = delivered.map Stamped.event) :
    Delivery t id keys seeds delivered := by
  have hothers : ∀ w ∈ delivered, w.key ∈ keys := by
    intro w hw
    rcases List.mem_append.1 (hstem.subset hw) with hseed | hlive
    · exact (h.mem_keys w.key).1 (List.mem_map.2 ⟨w, hseed, rfl⟩)
    · exact hlaw.subscribed w (List.mem_filter.1 hlive).1
  have hinOrder : ∀ seed ∈ seeds, delivered.filter (fun w => w.key = seed.key) <+:
      seed :: (due t id seed.key).filter fun w => seed.stamp < w.stamp := by
    intro seed hseed
    have hkey : seed.key ∈ keys := (h.mem_keys seed.key).1 (List.mem_map.2 ⟨seed, hseed, rfl⟩)
    refine (hstem.filter _).trans ?_
    rw [h.filter_toHandOver hseed]
    exact List.prefix_cons_inj seed |>.2 ((hlaw.inOrder seed.key hkey).filter _)
  refine ⟨?snapshot, h.nodup, h.mem_keys, hhanded, ?seedsFirst, hothers, hinOrder, ?ascending⟩
  case snapshot =>
    obtain ⟨before, after, heq, hregistered, rfl, _⟩ := h
    refine ⟨before, after, heq, hregistered, fun seed hseed => ?_⟩
    obtain ⟨key, _, rfl⟩ := List.mem_map.1 hseed
    rw [key_latest]
  case seedsFirst => exact List.prefix_or_prefix_of_prefix hstem (List.prefix_append _ _)
  case ascending =>
    intro key
    -- On keys that it does not listen to, the subscription hands over nothing.
    by_cases hkey : key ∈ keys
    · obtain ⟨seed, hseed, rfl⟩ := List.mem_map.1 ((h.mem_keys key).2 hkey)
      exact (ascending_seed_due hacc seed).sublist (hinOrder seed hseed).sublist
    · have hnone : (delivered.filter fun w => w.key = key) = [] := by
        rw [List.filter_eq_nil_iff]
        intro w hw heq
        exact hkey (of_decide_eq_true heq ▸ hothers w hw)
      rw [hnone]
      exact List.Pairwise.nil

/-- Every write on a key after the snapshot is still to be handed over, and no earlier one is. -/
theorem SeededAt.filter_due (h : SeededAt t id keys seeds) (hacc : Accounted t v)
    (hanswered : ∀ w, .written w ∈ t → .accepted w ∈ t) {seed : Stamped} (hseed : seed ∈ seeds) :
    ∃ before rest, t = before ++ rest ∧ seed = latest before seed.key ∧
      ((due t id seed.key).filter fun w => seed.stamp < w.stamp) =
        (writes rest).filter fun w => w.key = seed.key := by
  obtain ⟨before, after, heq, hregistered, hseeds, haccepted⟩ := h
  have hlatest : seed = latest before seed.key := by
    rw [hseeds] at hseed
    obtain ⟨key, _, rfl⟩ := List.mem_map.1 hseed
    rw [key_latest]
  refine ⟨before, _, heq, hlatest, ?_⟩
  have hascending := hacc.ascending
  have hpositive := hacc.positive
  subst heq
  rw [writes_append, List.pairwise_append] at hascending
  obtain ⟨hbefore, _, hacross⟩ := hascending
  -- The seed covers every write on its key that was there at the snapshot.
  have hold : ((writes before).filter fun w => w.key = seed.key ∧ .accepted w ∈
      since id (before ++ .seeded id seeds :: after)).filter
        (fun w => seed.stamp < w.stamp) = [] := by
    rw [List.filter_eq_nil_iff]
    intro w hw hlt
    obtain ⟨hwritten, hkey⟩ := List.mem_filter.1 hw
    have hle := stamp_le_latest hbefore hwritten
    rw [(of_decide_eq_true hkey).1, ← hlatest] at hle
    exact Nat.not_lt_of_le hle (of_decide_eq_true hlt)
  rw [due, writes_append, List.filter_append, List.filter_append, hold, List.nil_append,
    List.filter_filter]
  -- It covers none of the later ones, and these were taken since the registration.
  refine List.filter_congr fun w hw => ?_
  have hnew : .written w ∈ before ++ .seeded id seeds :: after :=
    List.mem_append_right _ (mem_writes.1 hw)
  have hlt : seed.stamp < w.stamp := by
    rcases latest_cases before seed.key with hinvalid | ⟨hwritten, _⟩
    · rw [hlatest, hinvalid]
      exact hpositive w hnew
    · rw [hlatest]
      exact hacross _ hwritten w hw
  have hsince : .accepted w ∈ since id (before ++ .seeded id seeds :: after) := by
    rw [since_append hregistered]
    rcases List.mem_append.1 (hanswered w hnew) with hearly | hlate
    · -- It would have been written before the snapshot.
      have hself := hacross w (mem_writes.2 (haccepted w hearly)) w hw
      exact absurd hself (Nat.lt_irrefl _)
    · exact List.mem_append_right _ hlate
  simp only [hlt, hsince, decide_true, and_true, Bool.true_and]

theorem SeededAt.complete {s : Service} (h : SeededAt t id keys seeds) (hacc : Accounted t v)
    (hanswered : ∀ w, .written w ∈ t → .accepted w ∈ t)
    (hread : ∀ key, s.hub.store.read key = latest t key)
    (hgiven : ∀ key ∈ keys, (given t id).filter (fun w => w.key = key) = due t id key) :
    Delivery.Complete t s id keys seeds (toHandOver t id seeds) := by
  have hexact : ∀ seed ∈ seeds, ((toHandOver t id seeds).filter fun w => w.key = seed.key) =
      seed :: (due t id seed.key).filter fun w => seed.stamp < w.stamp := by
    intro seed hseed
    have hkey : seed.key ∈ keys := (h.mem_keys seed.key).1 (List.mem_map.2 ⟨seed, hseed, rfl⟩)
    rw [h.filter_toHandOver hseed, hgiven seed.key hkey]
  refine ⟨List.prefix_append _ _, hexact, ?nothingLost, ?last⟩
  case nothingLost =>
    intro w hw hkey
    obtain ⟨seed, hseed, hsame⟩ := List.mem_map.1 ((h.mem_keys w.key).2 hkey)
    by_cases hlt : seed.stamp < w.stamp
    · have hdue : w ∈ due t id seed.key := by
        have hwritten := (hacc.accepted w (mem_of_mem_since hw)).1
        exact List.mem_filter.2 ⟨mem_writes.2 hwritten, decide_eq_true ⟨hsame.symm, hw⟩⟩
      have hmem : w ∈ (toHandOver t id seeds).filter fun x => x.key = seed.key := by
        rw [hexact seed hseed]
        exact List.mem_cons_of_mem _ (List.mem_filter.2 ⟨hdue, decide_eq_true hlt⟩)
      exact .inl (List.mem_filter.1 hmem).1
    · exact .inr ⟨seed, hseed, hsame, Nat.le_of_not_lt hlt⟩
  case last =>
    -- The store has the last write on the key: one after the snapshot, or else the seed.
    intro key hkey
    obtain ⟨seed, hseed, rfl⟩ := List.mem_map.1 ((h.mem_keys key).2 hkey)
    obtain ⟨before, rest, heq, hlatest, hdue⟩ := h.filter_due hacc hanswered hseed
    rw [hexact seed hseed, List.getLast?_cons, hdue, hread, heq, latest_append, ← hlatest]

end Handed

namespace Service

variable {settings : Settings} {origin : UtcTime} {transport : Transport} {s : Service}
  {sub : Subscription}

theorem Run.read_eq_latest (run : Run (withTransport settings origin transport) t s)
    (hrefused : ∀ w, .refused w ∉ t) (hcleared : .cleared ∉ t) (key : EventKey) :
    s.hub.store.read key = latest t key := by
  induction run generalizing key with
  | start => rfl
  | step run h ih =>
    simp only [List.mem_append, not_or] at hrefused hcleared
    exact (step_view h).publishing.read_eq_latest (ih (fun w => (hrefused w).1) hcleared.1)
      (fun w => (hrefused w).2) hcleared.2 key

theorem Run.attended (run : Run (withTransport settings origin transport) t s)
    (hrefused : ∀ w, .refused w ∉ t) (hcleared : .cleared ∉ t) : Attended t s.view := by
  induction run with
  | start => exact ⟨fun id _ => ⟨rfl, rfl⟩, fun id keys stage hat => nomatch hat⟩
  | step run h ih =>
    simp only [List.mem_append, not_or] at hrefused hcleared
    have hread := run.read_eq_latest (fun w => (hrefused w).1) hcleared.1
    exact (ih (fun w => (hrefused w).1) hcleared.1).step (step_view h) hread
      fun w hw => (run.accounted.accepted w hw).1

/-- Where nothing is refused, a subscription to keys without rate control hands over one seed for
each key, and then on each key the writes that the transport took since the registration and that
the seed does not cover, in order. At rest it has handed over all of them, and last of all, on each
key, the entry that the store has. -/
theorem Run.delivers (run : Run (withTransport settings origin transport) t s)
    (hsub : s.subscriptions.get? id = some sub) (htarget : sub.target = .keys keys)
    (hrate : sub.rate = none) (hrefused : ∀ w, .refused w ∉ t) (hcleared : .cleared ∉ t)
    (hlaw : Faithful t id keys) :
    (handed t id = [] ∨ ∃ seeds delivered, Delivery t id keys seeds delivered) ∧
      (AtRest t s id keys → ∃ seeds delivered, Delivery t id keys seeds delivered ∧
        Delivery.Complete t s id keys seeds delivered) := by
  have hacc := run.accounted
  have hstanding : s.view.standing id = some ⟨.keys keys, none, sub.stage⟩ := by
    rw [standing_of_get? hsub, Subscription.standing, htarget, hrate]
  have hserving := (run.attended hrefused hcleared).serving id keys sub.stage hstanding
  constructor
  · rcases hserving.isPartial with hnone | ⟨seeds, hseeded, hstem⟩
    · exact .inl hnone
    · obtain ⟨delivered, hdelivered, heq⟩ := List.prefix_map_iff.1 hstem
      exact .inr ⟨seeds, delivered, hseeded.delivery hacc hlaw hdelivered heq⟩
  · intro hrest
    obtain ⟨sub', p, hsub', hstage, hseeds⟩ := hrest.drained
    obtain rfl := Option.some.inj (hsub.symm.trans hsub')
    rw [hstage] at hserving
    obtain ⟨seeds, hseeded, _, _, heq⟩ := hserving
    rw [hseeds, List.append_nil] at heq
    have hanswered : ∀ w, .written w ∈ t → .accepted w ∈ t := by
      intro w hw
      rcases run.answered hrest.uncrashed hrest.idle hw with haccepted | href
      · exact haccepted
      · exact absurd href (hrefused w)
    exact ⟨seeds, toHandOver t id seeds, hseeded.delivery hacc hlaw List.prefix_rfl heq,
      hseeded.complete hacc hanswered (run.read_eq_latest hrefused hcleared) hrest.given⟩

/-! ## A race -/

/-- Whether a subscription to the keys runs without rate control, and has nothing to hand over. -/
def isDrained (s : Service) (id : ReaderId) (keys : List EventKey) : Bool :=
  match s.subscriptions.get? id with
  | some ⟨.keys keys', none, _, _, .streaming p, _⟩ => decide (keys' = keys) && p.seeds.isEmpty
  | _ => false

theorem exists_of_isDrained (h : s.isDrained id keys = true) :
    ∃ sub p, s.subscriptions.get? id = some sub ∧ sub.target = .keys keys ∧ sub.rate = none ∧
      sub.stage = .streaming p ∧ p.seeds = [] := by
  unfold isDrained at h
  split at h
  next hsub =>
    rw [Bool.and_eq_true, decide_eq_true_eq, List.isEmpty_iff] at h
    obtain ⟨rfl, hseeds⟩ := h
    exact ⟨_, _, hsub, rfl, rfl, rfl, hseeds⟩
  next => cases h

/-- A key is written before the registration, between it and the snapshot, and afterwards; the
snapshot finds a write that has no answer yet. -/
def race : List Action :=
  [.script ⟨.handOn, .handOn, 0, 10, none⟩,
    .publish (.own 0) (sharedEvent "a"), .step (.publisher (.own 0)), .step (.publisher (.own 0)),
    .subscribe 0 (.keys [sharedKey, sharedKey]) none (.scriptedCallback []),
    .step (.subscription 0),
    .publish (.own 1) (sharedEvent "b"), .step (.publisher (.own 1)), .step (.publisher (.own 1)),
    .publish (.own 0) (sharedEvent "c"), .step (.publisher (.own 0)),
    .wait 10, .step (.subscription 0), .step (.subscription 0), .step (.publisher (.own 0)),
    .publish (.own 1) (sharedEvent "d"), .step (.publisher (.own 1)), .step (.publisher (.own 1)),
    .step (.subscription 0), .step (.subscription 0), .step (.subscription 0)]

/-- The trace of the race. -/
def raceMarks : List Mark :=
  [.written ⟨1, sharedEvent "a"⟩, .accepted ⟨1, sharedEvent "a"⟩, .registered 0,
    .written ⟨2, sharedEvent "b"⟩, .accepted ⟨2, sharedEvent "b"⟩,
    .written ⟨3, sharedEvent "c"⟩, .seeded 0 [⟨3, sharedEvent "c"⟩], .handed 0 (sharedEvent "c"),
    .accepted ⟨3, sharedEvent "c"⟩, .written ⟨4, sharedEvent "d"⟩, .accepted ⟨4, sharedEvent "d"⟩,
    .given 0 ⟨2, sharedEvent "b"⟩, .given 0 ⟨3, sharedEvent "c"⟩, .given 0 ⟨4, sharedEvent "d"⟩,
    .handed 0 (sharedEvent "d")]

/-- Whatever the seed covers is dropped, though the transport gives it. -/
theorem delivers_race : ∃ s seeds delivered, Run logService raceMarks s ∧
    Delivery raceMarks 0 [sharedKey, sharedKey] seeds delivered ∧
    Delivery.Complete raceMarks s 0 [sharedKey, sharedKey] seeds delivered := by
  obtain ⟨t, s, run, hgood⟩ := exists_run_of_follow logService race
    (fun t s => decide (t = raceMarks) && s.isIdle && s.isDrained 0 [sharedKey, sharedKey])
    (by decide +kernel)
  simp only [Bool.and_eq_true, decide_eq_true_eq] at hgood
  obtain ⟨⟨rfl, hidle⟩, hdrained⟩ := hgood
  obtain ⟨sub, p, hsub, htarget, hrate, hstage, hseeds⟩ := exists_of_isDrained hdrained
  have hrefused : ∀ w, .refused w ∉ raceMarks := fun w hw => by simp [raceMarks] at hw
  have huncrashed : ∀ w, .crashed w ∉ raceMarks := fun w hw => by simp [raceMarks] at hw
  have hlaw : Faithful raceMarks 0 [sharedKey, sharedKey] :=
    ⟨by decide +kernel, by decide +kernel⟩
  have hrest : AtRest raceMarks s 0 [sharedKey, sharedKey] :=
    ⟨inFlight_of_isIdle hidle, huncrashed, by decide +kernel, sub, p, hsub, hstage, hseeds⟩
  obtain ⟨seeds, delivered, hdelivery, hcomplete⟩ :=
    (run.delivers hsub htarget hrate hrefused (by decide +kernel) hlaw).2 hrest
  exact ⟨s, seeds, delivered, run, hdelivery, hcomplete⟩

end Service

end Observatory
