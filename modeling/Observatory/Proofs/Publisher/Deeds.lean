import Observatory.Proofs.Publisher.Calls

/-!
# Deeds of publishing tasks

What is seen of a publishing task: when its generator is called or its stream is asked, what comes
of it, what is published and what is learned of that, and when the task is told to stop. A task
makes one of few moves at a time, by itself or because someone else does something to it.
-/

namespace Observatory

def Product.event? : Product → Option Event
  | .event e => some e
  | .nothing | .panic => none

/-- What a call makes in the end. -/
def GeneratorCall.product : GeneratorCall → Product
  | .crash => .panic
  | .makes _ product => product

namespace TaskSource

/-- What happens when the source is asked, as often as it was asked before. -/
def call? : TaskSource → Nat → Option GeneratorCall
  | .periodic _ _ generate, turn => some (generate turn)
  | .stream item, turn => (item turn).map fun given => .makes given.delay (.event given.event)

def isStream : TaskSource → Bool
  | .periodic .. => false
  | .stream _ => true

/-- The source has a ticker that runs. -/
def ticks : TaskSource → Bool
  | .periodic _ ticker _ => ticker.isSome
  | .stream _ => false

/-- A source that can be asked at `now`, and what is left of it. -/
inductive Asked (now : Nat) : TaskSource → TaskSource → Prop where
  | tick {schedule : Schedule} {ticker : Ticker} {generate : Nat → GeneratorCall}
      (hdue : ticker.deadline ≤ now) :
      Asked now (.periodic schedule (some ticker) generate)
        (.periodic schedule (some (ticker.fire now)) generate)
  | next {item : Nat → Option StreamItem} : Asked now (.stream item) (.stream item)

variable {source source' : TaskSource} {now : Nat}

theorem call?_periodic (schedule : Schedule) (ticker : Option Ticker)
    (generate : Nat → GeneratorCall) :
    (periodic schedule ticker generate).call? = fun turn => some (generate turn) :=
  rfl

theorem Asked.same (h : source.Asked now source') :
    source'.call? = source.call? ∧ source'.isStream = source.isStream ∧
      source'.ticks = source.ticks := by
  cases h with
  | tick hdue => simp only [isStream, ticks, Option.isSome_some, and_self, call?_periodic]
  | next => exact ⟨rfl, rfl, rfl⟩

end TaskSource

/-! ## What is seen -/

/-- What is seen of a publishing task. -/
inductive Deed where
  /-- The task of a schedule begins to run. -/
  | began (now : Nat) (time : UtcTime)
  /-- The generator was called, or the stream was asked. -/
  | called (now : Nat)
  /-- The generator was called and panicked in the call itself. -/
  | crashed (now : Nat)
  /-- Nothing was made. -/
  | skipped
  /-- What was being made ended in a panic. -/
  | panicked
  /-- An event was made, and published at once. -/
  | handed (ticket : Ticket) (event : Event)
  /-- The task took the outcome of a publish. -/
  | answered (ticket : Ticket) (outcome : Outcome)
  /-- The task was cancelled. -/
  | cancelled
  /-- Its publisher was shut down, perhaps not for the first time. -/
  | shut
  /-- Someone took the reported failures away. -/
  | collected (failures : List (Nat × PublishFailure))
  deriving DecidableEq

/-- What is seen of a product that is used. -/
def Product.deed (ticket : Ticket) : Product → Deed
  | .event e => .handed ticket e
  | .nothing => .skipped
  | .panic => .panicked

/-- How a task goes on when it has used a product. -/
def Product.phase (ticket : Ticket) : Product → TaskPhase
  | .event _ => .publishing ticket
  | .nothing | .panic => .idle

def failure? : Outcome → Option PublishFailure
  | .ok _ => none
  | .error failure => some failure

namespace Deed

/-- A generator was called, or a stream was asked. -/
def IsCall : Deed → Prop
  | .called _ | .crashed _ => True
  | _ => False

/-- When a generator was called or a stream was asked. -/
def callTimes (t : List Deed) : List Nat :=
  t.filterMap fun
    | .called now | .crashed now => some now
    | _ => none

def products (t : List Deed) : List Product :=
  t.filterMap fun
    | .crashed _ | .panicked => some .panic
    | .skipped => some .nothing
    | .handed _ event => some (.event event)
    | _ => none

def handovers (t : List Deed) : List (Ticket × Event) :=
  t.filterMap fun
    | .handed ticket event => some (ticket, event)
    | _ => none

def replies (t : List Deed) : List (Ticket × Outcome) :=
  t.filterMap fun
    | .answered ticket outcome => some (ticket, outcome)
    | _ => none

def failed (t : List Deed) : List PublishFailure :=
  (replies t).filterMap fun reply => failure? reply.2

def taken (t : List Deed) : List (Nat × PublishFailure) :=
  t.flatMap fun
    | .collected failures => failures
    | _ => []

def beginnings (t : List Deed) : List (Nat × UtcTime) :=
  t.filterMap fun
    | .began now time => some (now, time)
    | _ => none

/-- How many steps the task took, but for the one that ends it. -/
def labour (t : List Deed) : Nat :=
  t.countP fun
    | .cancelled | .shut | .collected _ => false
    | _ => true

def Answered (t : List Deed) : Prop :=
  (replies t).map Prod.fst = (handovers t).map Prod.fst

/-- No call is under way, and all publishes were answered. -/
def Settled (t : List Deed) : Prop :=
  (products t).length = (callTimes t).length ∧ Answered t

/-- The task was told to stop. A publisher that was closed before the task was started tells it
nothing. -/
def Told (opened : Prop) (t : List Deed) : Prop :=
  .cancelled ∈ t ∨ opened ∧ .shut ∈ t

variable {t t' : List Deed} {opened : Prop}

@[simp]
theorem callTimes_append (t t' : List Deed) : callTimes (t ++ t') = callTimes t ++ callTimes t' :=
  List.filterMap_append

@[simp]
theorem products_append (t t' : List Deed) : products (t ++ t') = products t ++ products t' :=
  List.filterMap_append

@[simp]
theorem handovers_append (t t' : List Deed) : handovers (t ++ t') = handovers t ++ handovers t' :=
  List.filterMap_append

@[simp]
theorem replies_append (t t' : List Deed) : replies (t ++ t') = replies t ++ replies t' :=
  List.filterMap_append

@[simp]
theorem failed_append (t t' : List Deed) : failed (t ++ t') = failed t ++ failed t' := by
  unfold failed
  rw [replies_append, List.filterMap_append]

@[simp]
theorem taken_append (t t' : List Deed) : taken (t ++ t') = taken t ++ taken t' :=
  List.flatMap_append

@[simp]
theorem beginnings_append (t t' : List Deed) :
    beginnings (t ++ t') = beginnings t ++ beginnings t' :=
  List.filterMap_append

@[simp]
theorem labour_append (t t' : List Deed) : labour (t ++ t') = labour t + labour t' :=
  List.countP_append

theorem told_append : Told opened (t ++ t') ↔ Told opened t ∨ Told opened t' := by
  simp only [Told, List.mem_append]
  tauto

/-- What is published is what was made, if it is an event. -/
theorem handovers_eq (t : List Deed) :
    (handovers t).map Prod.snd = (products t).filterMap Product.event? := by
  induction t with
  | nil => rfl
  | cons d t ih =>
    cases d <;> simpa [handovers, products, Product.event?, List.filterMap_cons] using ih

/-- If the outcomes of publishes are known, the failures are those of the publishes that were
answered. -/
theorem failed_eq {outcome? : Ticket → Option Outcome}
    (hreplied : (replies t).map Prod.fst <+: (handovers t).map Prod.fst)
    (houtcome : ∀ ticket outcome, (ticket, outcome) ∈ replies t → outcome? ticket = some outcome) :
    failed t = ((handovers t).take (replies t).length).filterMap fun call =>
      (outcome? call.1).bind failure? := by
  have htickets := List.prefix_iff_eq_take.1 hreplied
  rw [List.length_map, ← List.map_take] at htickets
  calc
    failed t = (replies t).filterMap fun reply => (outcome? reply.1).bind failure? := by
      apply List.filterMap_congr
      intro reply hreply
      rw [houtcome reply.1 reply.2 hreply]
      rfl
    _ = ((replies t).map Prod.fst).filterMap fun ticket => (outcome? ticket).bind failure? := by
      rw [List.filterMap_map]
      rfl
    _ = _ := by
      rw [htickets, List.filterMap_map]
      rfl

/-- A step of a task is one of its beginning, or one of the at most three that a call takes. -/
theorem labour_le (t : List Deed) :
    labour t ≤
      (beginnings t).length + (callTimes t).length + (products t).length + (replies t).length := by
  induction t with
  | nil => exact Nat.zero_le _
  | cons d t ih =>
    have hone : labour [d] ≤ (beginnings [d]).length + (callTimes [d]).length +
        (products [d]).length + (replies [d]).length := by
      cases d <;> exact Nat.le_of_ble_eq_true rfl
    rw [← List.singleton_append, labour_append, beginnings_append, callTimes_append,
      products_append, replies_append]
    simp only [List.length_append]
    omega

end Deed

/-- What is seen of the next step of a task. -/
def PublishTask.deeds (task : PublishTask) (h : Hub) (p : Publisher) : List Deed :=
  match task.phase with
  | .finished => []
  | .idle =>
    if task.cancelled then []
    else
      match task.source with
      | .periodic _ none _ => [.began h.now h.time]
      | .periodic _ (some _) generate =>
        match generate task.turns with
        | .crash => [.crashed h.now]
        | .makes _ _ => [.called h.now]
      | .stream item => if (item task.turns).isSome then [.called h.now] else []
  | .making _ product => if task.abandons then [] else [product.deed p.nextTicket]
  | .publishing ticket => (p.outcome? ticket).toList.map (.answered ticket)

/-- What is seen of the task of a name when an action is taken. -/
def Service.deeds (name : TaskId) (s : Service) (a : Action) : List Deed :=
  (s.tasks.get? name).elim [] fun entry =>
    match a with
    | .step (.task name') =>
      if name' = name then entry.task.deeds s.hub (s.publisher entry.publisher) else []
    | .cancelTask name' => if name' = name then [.cancelled] else []
    | .takeFailures name' => if name' = name then [.collected entry.task.failures] else []
    | .closePublisher id => if id = entry.publisher then [.shut] else []
    | .shutdown =>
      if .shared = entry.publisher ∧ s.publishers.contains .shared then [.shut] else []
    | _ => []

/-! ## Steps of a task -/

namespace PublishTask

variable {task task' : PublishTask} {h : Hub} {p p' : Publisher} {deeds : List Deed}

/-- What the task reports of an outcome. -/
def report (task : PublishTask) (now : Nat) (outcome : Outcome) : List (Nat × PublishFailure) :=
  match outcome with
  | .ok () => []
  | .error failure => if task.reports then [(now, failure)] else []

theorem conclude_eq (task : PublishTask) (now : Nat) (outcome : Outcome) :
    task.conclude now outcome =
      { task with phase := .idle, failures := task.failures ++ task.report now outcome } := by
  cases outcome with
  | ok _ => simp [conclude, report]
  | error failure => cases hreports : task.reports <;> simp [conclude, report, hreports]

theorem use_fst (task : PublishTask) (p : Publisher) (product : Product) :
    (task.use p product).1 = { task with phase := product.phase p.nextTicket } := by
  cases product with
  | event e =>
    unfold use Publisher.publish
    dsimp only
    split
    · rfl
    · split <;> rfl
  | nothing => rfl
  | panic => rfl

theorem abandons_eq (task : PublishTask) :
    task.abandons = (task.source.isStream && task.cancelled) := by
  unfold abandons
  cases task.source with
  | periodic schedule ticker generate => rfl
  | stream item => rfl

/-- A step of a task, and what becomes of it and its publisher. -/
inductive Stride (task : PublishTask) (h : Hub) (p : Publisher) :
    List Deed → PublishTask → Publisher → Prop where
  | finish (hphase : task.phase = .idle)
      (hover : task.cancelled = true ∨
        task.source.isStream = true ∧ task.source.call? task.turns = none) :
      Stride task h p [] { task with phase := .finished } p
  | begin (schedule : Schedule) (generate : Nat → GeneratorCall) (hphase : task.phase = .idle)
      (hrunning : task.cancelled = false)
      (hsource : task.source = .periodic schedule none generate) :
      Stride task h p [.began h.now h.time]
        { task with
          source := .periodic schedule
            (some ⟨schedule.interval, h.now + schedule.delay h.time⟩) generate } p
  | crash (source : TaskSource) (hphase : task.phase = .idle) (hrunning : task.cancelled = false)
      (hasked : task.source.Asked h.now source)
      (hcall : task.source.call? task.turns = some .crash) :
      Stride task h p [.crashed h.now] { task with source, turns := task.turns + 1 } p
  | call (source : TaskSource) (delay : Duration) (product : Product) (hphase : task.phase = .idle)
      (hrunning : task.cancelled = false) (hasked : task.source.Asked h.now source)
      (hcall : task.source.call? task.turns = some (.makes delay product)) :
      Stride task h p [.called h.now] ({ task with source }.begin h.now delay product) p
  | abandon (due : Nat) (product : Product) (hphase : task.phase = .making due product)
      (hstream : task.source.isStream = true) (hcancelled : task.cancelled = true) :
      Stride task h p [] { task with phase := .finished } p
  | use (due : Nat) (product : Product) (hphase : task.phase = .making due product)
      (hdue : due ≤ h.now) (hrunning : task.source.isStream = true → task.cancelled = false) :
      Stride task h p [product.deed p.nextTicket]
        { task with phase := product.phase p.nextTicket } (task.use p product).2
  | learn (ticket : Ticket) (outcome : Outcome) (hphase : task.phase = .publishing ticket)
      (houtcome : p.outcome? ticket = some outcome) :
      Stride task h p [.answered ticket outcome]
        { task with phase := .idle, failures := task.failures ++ task.report h.now outcome } p

/-- A tick that is due calls the generator. -/
theorem stride_of_tick {schedule : Schedule} {ticker : Ticker} {generate : Nat → GeneratorCall}
    (hphase : task.phase = .idle) (hrunning : task.cancelled = false)
    (hsource : task.source = .periodic schedule (some ticker) generate)
    (hdue : ticker.deadline ≤ h.now) :
    task.Stride h p (task.deeds h p)
      (callGenerator { task with
        source := .periodic schedule (some (ticker.fire h.now)) generate } h.now generate) p := by
  have hasked : task.source.Asked h.now
      (.periodic schedule (some (ticker.fire h.now)) generate) := by
    rw [hsource]
    exact .tick hdue
  have hcall : task.source.call? task.turns = some (generate task.turns) := by
    rw [hsource]
    rfl
  simp only [callGenerator]
  split
  next hcrash =>
    have hdeeds : task.deeds h p = [.crashed h.now] := by
      simp [deeds, hphase, hrunning, hsource, hcrash]
    rw [hdeeds]
    exact .crash _ hphase hrunning hasked (hcall.trans (congrArg some hcrash))
  next delay product hmakes =>
    have hdeeds : task.deeds h p = [.called h.now] := by
      simp [deeds, hphase, hrunning, hsource, hmakes]
    rw [hdeeds]
    exact .call _ delay product hphase hrunning hasked (hcall.trans (congrArg some hmakes))

/-- At the end of its stream a task comes to its own end. -/
theorem stride_of_end {item : Nat → Option StreamItem} (hphase : task.phase = .idle)
    (hrunning : task.cancelled = false) (hsource : task.source = .stream item)
    (hitem : item task.turns = none) :
    task.Stride h p (task.deeds h p) { task with phase := .finished } p := by
  have hdeeds : task.deeds h p = [] := by simp [deeds, hphase, hrunning, hsource, hitem]
  rw [hdeeds]
  apply Stride.finish hphase
  rw [hsource]
  exact .inr ⟨rfl, congrArg (Option.map _) hitem⟩

theorem stride_of_item {item : Nat → Option StreamItem} {given : StreamItem}
    (hphase : task.phase = .idle) (hrunning : task.cancelled = false)
    (hsource : task.source = .stream item) (hitem : item task.turns = some given) :
    task.Stride h p (task.deeds h p) (task.begin h.now given.delay (.event given.event)) p := by
  have hdeeds : task.deeds h p = [.called h.now] := by
    simp [deeds, hphase, hrunning, hsource, hitem]
  have hasked : task.source.Asked h.now task.source := by
    rw [hsource]
    exact .next
  rw [hdeeds]
  apply Stride.call task.source given.delay (.event given.event) hphase hrunning hasked
  rw [hsource]
  exact congrArg (Option.map _) hitem

theorem stride_of_stepIdle (hphase : task.phase = .idle) (hstep : task.stepIdle? h = some task') :
    task.Stride h p (task.deeds h p) task' p := by
  unfold stepIdle? at hstep
  split at hstep
  next hcancelled =>
    cases hstep
    have hdeeds : task.deeds h p = [] := by simp [deeds, hphase, hcancelled]
    rw [hdeeds]
    exact .finish hphase (.inl hcancelled)
  next hrunning =>
    rw [Bool.not_eq_true] at hrunning
    split at hstep
    next schedule generate hsource =>
      cases hstep
      have hdeeds : task.deeds h p = [.began h.now h.time] := by
        simp [deeds, hphase, hrunning, hsource]
      rw [hdeeds]
      exact .begin schedule generate hphase hrunning hsource
    next schedule ticker generate hsource =>
      split at hstep
      next hdue =>
        cases hstep
        exact stride_of_tick hphase hrunning hsource (of_decide_eq_true hdue)
      next => cases hstep
    next item hsource =>
      split at hstep
      next hitem =>
        cases hstep
        exact stride_of_end hphase hrunning hsource hitem
      next given hitem =>
        cases hstep
        exact stride_of_item hphase hrunning hsource hitem

theorem stride_of_advance (hstep : task.advance? h p = some (task', p')) :
    task.Stride h p (task.deeds h p) task' p' := by
  unfold advance? at hstep
  cases hphase : task.phase with
  | finished =>
    rw [hphase] at hstep
    cases hstep
  | idle =>
    rw [hphase] at hstep
    obtain ⟨next, hnext, heq⟩ := Option.map_eq_some_iff.1 hstep
    cases heq
    exact stride_of_stepIdle hphase hnext
  | making due product =>
    simp only [hphase] at hstep
    simp only [deeds, hphase]
    cases habandons : task.abandons with
    | true =>
      rw [habandons, if_pos rfl] at hstep
      cases hstep
      -- Only a stream drops what it is making when it is cancelled.
      obtain ⟨hstream, hcancelled⟩ := (Bool.and_eq_true _ _).mp (task.abandons_eq ▸ habandons)
      exact .abandon due product hphase hstream hcancelled
    | false =>
      simp only [habandons, Bool.false_eq_true, if_false] at hstep ⊢
      split at hstep
      next hdue =>
        have huse : task.use p product = (task', p') := Option.some.inj hstep
        have hnext : task' = { task with phase := product.phase p.nextTicket } :=
          (congrArg Prod.fst huse).symm.trans (task.use_fst p product)
        have hafter : p' = (task.use p product).2 := (congrArg Prod.snd huse).symm
        rw [hnext, hafter]
        apply Stride.use due product hphase hdue
        intro hstream
        rwa [abandons_eq, hstream, Bool.true_and] at habandons
      next => cases hstep
  | publishing ticket =>
    rw [hphase] at hstep
    obtain ⟨outcome, houtcome, heq⟩ := Option.map_eq_some_iff.1 hstep
    cases heq
    simp only [deeds, hphase, houtcome, conclude_eq]
    exact .learn ticket outcome hphase houtcome

/-- What a task hands over is a call of its publisher. -/
theorem Stride.handovers (hstride : task.Stride h p deeds task' p') :
    (Deed.handovers deeds).Sublist (Moment.calls (task.moments p)) := by
  cases hstride with
  | use due product hphase hdue hrunning =>
    have hkept : task.abandons = false := by
      rw [abandons_eq]
      cases hstream : task.source.isStream with
      | false => rfl
      | true => exact hrunning hstream
    cases product with
    | event e =>
      have hmoments : task.moments p = [.called p.nextTicket e] := by
        simp [PublishTask.moments, hphase, hkept]
      rw [hmoments]
      exact List.Sublist.refl _
    | nothing => exact List.nil_sublist _
    | panic => exact List.nil_sublist _
  | _ => exact List.nil_sublist _

/-! ## Moves of a task -/

/-- What can happen to a task that uses the publisher `p`. -/
inductive Move (task : PublishTask) (h : Hub) (p p' : Publisher) :
    List Deed → PublishTask → Prop where
  | own {deeds : List Deed} {task' : PublishTask} (hstride : task.Stride h p deeds task' p') :
      Move task h p p' deeds task'
  | rest : Move task h p p' [] task
  | cancel : Move task h p p' [.cancelled] task.cancel
  | shut (hopen : p.closed = false) : Move task h p p' [.shut] task.cancel
  /-- A publisher that is closed already does not tell its tasks to stop. -/
  | shutAgain (hclosed : p.closed = true) : Move task h p p' [.shut] task
  | collect : Move task h p p' [.collected task.failures] task.takeFailures.2

end PublishTask

namespace Service

variable {s s' : Service} {a : Action} {name name' : TaskId} {id id' : PublisherId}
  {task task' : PublishTask}

theorem tasks_closePublisher (s : Service) (id : PublisherId) : (s.closePublisher id).tasks =
    if (s.publisher id).closed then s.tasks else s.tasks.map (TaskEntry.cancelOn id) := by
  unfold closePublisher
  dsimp only
  split
  · rfl
  · rfl

theorem tasks_shutdown (s : Service) : s.shutdown.tasks =
    if s.publishers.contains .shared then (s.closePublisher .shared).tasks else s.tasks := by
  change (if s.publishers.contains .shared then s.closePublisher .shared else s).tasks = _
  split
  · rfl
  · rfl

/-- Only a name that is free is given to a task. -/
theorem tasks_startPeriodic {schedule : Schedule} {generate : Nat → GeneratorCall} {reports : Bool}
    (h : s.perform? (.startPeriodic name id schedule generate reports) = some s') :
    s.tasks.contains name = false ∧ schedule.check = .ok () ∧
      s'.tasks = s.tasks.insert name ⟨id, .periodic schedule generate reports⟩ := by
  simp only [perform?] at h
  split at h
  next => cases h
  next hfree =>
    unfold startPeriodic at h
    cases hcheck : schedule.check with
    | error error =>
      rw [hcheck] at h
      cases h
    | ok _ =>
      rw [hcheck] at h
      cases h
      exact ⟨by simpa using hfree, rfl, rfl⟩

theorem tasks_startStream {item : Nat → Option StreamItem} {reports : Bool}
    (h : s.perform? (.startStream name id item reports) = some s') :
    s.tasks.contains name = false ∧
      s'.tasks = s.tasks.insert name ⟨id, .stream item reports⟩ := by
  simp only [perform?] at h
  split at h
  next => cases h
  next hfree =>
    cases h
    exact ⟨by simpa using hfree, rfl⟩

/-- A task under another name does not matter. -/
theorem get?_insert_of_free (hentry : s.tasks.get? name = some ⟨id, task⟩)
    (hfree : s.tasks.contains name' = false) (entry : TaskEntry) :
    (s.tasks.insert name' entry).get? name = some ⟨id, task⟩ := by
  have hne : name ≠ name' := by
    rintro rfl
    rw [Table.contains, hentry] at hfree
    cases hfree
  rw [Table.get?_insert_of_ne _ _ hne, hentry]

theorem get?_closePublisher (hentry : s.tasks.get? name = some ⟨id, task⟩) (id' : PublisherId) :
    ∃ task', (s.closePublisher id').tasks.get? name = some ⟨id, task'⟩ ∧
      task.Move s.hub (s.publisher id) ((s.closePublisher id').publisher id)
        (if id' = id then [.shut] else []) task' := by
  rw [tasks_closePublisher]
  by_cases hid : id' = id
  · subst hid
    rw [if_pos rfl]
    cases hclosed : (s.publisher id').closed with
    | true => exact ⟨task, hentry, .shutAgain hclosed⟩
    | false =>
      refine ⟨task.cancel, ?_, .shut hclosed⟩
      simp [hentry, TaskEntry.cancelOn]
  · rw [if_neg hid]
    refine ⟨task, ?_, .rest⟩
    split
    · exact hentry
    · simp [hentry, TaskEntry.cancelOn, Ne.symm hid]

/-- What is done to the task of one name is a move of that task and of no other. -/
theorem get?_modifyTask (hentry : s.tasks.get? name = some ⟨id, task⟩) (name' : TaskId)
    {f : PublishTask → PublishTask} {d : Deed}
    (hmove : task.Move s.hub (s.publisher id) (s.publisher id) [d] (f task)) :
    ∃ task', (s.modifyTask name' f).tasks.get? name = some ⟨id, task'⟩ ∧
      task.Move s.hub (s.publisher id) ((s.modifyTask name' f).publisher id)
        (if name' = name then [d] else []) task' := by
  unfold modifyTask
  by_cases hname : name' = name
  · subst hname
    rw [if_pos rfl]
    refine ⟨f task, ?_, hmove⟩
    rw [Table.get?_modify_self, hentry]
    rfl
  · rw [if_neg hname]
    refine ⟨task, ?_, .rest⟩
    rw [Table.get?_modify_of_ne _ _ (Ne.symm hname), hentry]

/-- Whatever a service does, a task makes one of its moves. -/
theorem task_move (hentry : s.tasks.get? name = some ⟨id, task⟩) (h : s.perform? a = some s') :
    ∃ task', s'.tasks.get? name = some ⟨id, task'⟩ ∧
      task.Move s.hub (s.publisher id) (s'.publisher id) (s.deeds name a) task' := by
  unfold deeds
  simp only [hentry, Option.elim_some]
  cases a with
  | closePublisher id' =>
    cases h
    exact get?_closePublisher hentry id'
  | shutdown =>
    cases h
    rw [tasks_shutdown]
    cases hused : s.publishers.contains .shared with
    | false => exact ⟨task, hentry, by simpa using .rest⟩
    | true =>
      obtain ⟨task', hentry', hmove⟩ := get?_closePublisher hentry .shared
      refine ⟨task', hentry', ?_⟩
      rw [publisher_shutdown, hused]
      rw [publisher_closePublisher] at hmove
      simpa [eq_comm] using hmove
  | startPeriodic name' publisher schedule generate reports =>
    obtain ⟨hfree, -, htasks⟩ := tasks_startPeriodic h
    exact ⟨task, htasks ▸ get?_insert_of_free hentry hfree _, .rest⟩
  | startStream name' publisher item reports =>
    obtain ⟨hfree, htasks⟩ := tasks_startStream h
    exact ⟨task, htasks ▸ get?_insert_of_free hentry hfree _, .rest⟩
  | cancelTask name' =>
    cases h
    exact get?_modifyTask hentry name' .cancel
  | takeFailures name' =>
    cases h
    exact get?_modifyTask hentry name' .collect
  | subscribe name' target rate consumer =>
    simp only [perform?] at h
    split at h
    · cases h
    · cases h
      exact ⟨task, hentry, .rest⟩
  | step actor =>
    cases actor with
    | publisher id' =>
      obtain ⟨p, p', hub, -, -, rfl⟩ := exists_of_advancePublisher h
      exact ⟨task, hentry, .rest⟩
    | subscription id' =>
      obtain ⟨sub, sub', hub, -, -, rfl⟩ := exists_of_advanceSubscription h
      exact ⟨task, hentry, .rest⟩
    | task name' =>
      obtain ⟨entry, task', p', hown, hstep, rfl⟩ := exists_of_advanceTask h
      dsimp only
      -- Only a step under its own name is a step of the task.
      by_cases hname : name' = name
      · subst hname
        rw [hentry] at hown
        cases hown
        refine ⟨task', Table.get?_insert_self .., ?_⟩
        rw [if_pos rfl]
        have hafter : ({ s.withPublisher id p' with
            tasks := s.tasks.insert name' ⟨id, task'⟩ } : Service).publisher id = p' :=
          (publisher_withPublisher s id id p').trans (if_pos rfl)
        rw [hafter]
        exact .own (PublishTask.stride_of_advance hstep)
      · refine ⟨task, ?_, ?_⟩
        · exact (Table.get?_insert_of_ne _ _ (Ne.symm hname)).trans hentry
        · rw [if_neg hname]
          exact .rest
  | publish _ _ | usePublisher _ | raiseCancel _ | endUnsubscribe _ | dropConsumer _ | take _
  | takeCalls _ _ | get _ | getAll _ | clearStore | script _ | rewire _ | wait _ =>
    cases h
    exact ⟨task, hentry, .rest⟩

end Service

end Observatory
