import Observatory.Proofs.Publisher.Duty

/-!
# What becomes of the events of a task

In every run a publishing task keeps its duty, and what it hands over are calls of its publisher,
whose outcomes it learns one after another. In a fair course it never stands still for good: what it
waits for comes, and what is under way comes to its end.
-/

namespace Observatory

open Deed Moment Publisher

namespace Publisher

variable {p p' : Publisher} {last last' : Nat} {marks : List Moment} {h : Hub}

theorem Move.closed_iff (hmove : p.Move last last' marks p') :
    p'.closed = true ↔ p.closed = true ∨ .closed ∈ marks := by
  cases hmove with
  | close => simp [Publisher.close]
  | crash => simp [crash_eq]
  | _ => simp [settleCall]

/-- A driver closes nothing. -/
theorem closed_not_mem (p : Publisher) (h : Hub) : .closed ∉ p.moments h := by
  unfold Publisher.moments
  split
  next flight _ => obtain hanswer | hanswer | hanswer := flight.answer_cases h <;> simp [hanswer]
  next => simp
  next => simp

end Publisher

namespace PublishTask

variable {task task' : PublishTask} {h : Hub} {p p' : Publisher} {deeds : List Deed}

theorem closed_not_mem (task : PublishTask) (p : Publisher) : .closed ∉ task.moments p := by
  unfold moments
  split
  · split <;> simp
  · simp

theorem Stride.shut_not_mem (hstride : task.Stride h p deeds task' p') : .shut ∉ deeds := by
  cases hstride with
  | use due product => cases product <;> simp [Product.deed]
  | finish | begin | crash | call | abandon | learn => simp

theorem Stride.labour_eq (hstride : task.Stride h p deeds task' p')
    (hrunning : task'.phase ≠ .finished) : labour deeds = 1 := by
  cases hstride with
  | finish | abandon => exact absurd rfl hrunning
  | use due product => cases product <;> rfl
  | begin | crash | call | learn => rfl

/-- A move that is none of its own leaves a task where it is. -/
theorem Move.same_of_labour (hmove : task.Move h p p' deeds task')
    (hrunning : task'.phase ≠ .finished) (hlabour : labour deeds = 0) :
    task'.source = task.source ∧ task'.phase = task.phase := by
  cases hmove with
  | own hstride =>
    rw [hstride.labour_eq hrunning] at hlabour
    cases hlabour
  | rest | cancel | shut | shutAgain | collect => exact ⟨rfl, rfl⟩

/-- Only an idle task calls. -/
theorem Move.turns_eq (hmove : task.Move h p p' deeds task') (hphase : task.phase ≠ .idle) :
    task'.turns = task.turns := by
  cases hmove with
  | own hstride =>
    cases hstride with
    | crash source hidle => exact absurd hidle hphase
    | call source delay product hidle => exact absurd hidle hphase
    | finish | begin | abandon | use | learn => rfl
  | rest | cancel | shut | shutAgain | collect => rfl

/-- A task that has not come to its end has a step to take, at once or when its time comes, and the
outcome is there that it waits for. -/
theorem advance?_ne_none (hrunning : task.phase ≠ .finished)
    (hdue : ∀ time, task.deadline? = some time → time ≤ h.now)
    (houtcome : ∀ ticket, task.phase = .publishing ticket → p.outcome? ticket ≠ none) :
    task.advance? h p ≠ none := by
  unfold advance?
  cases hphase : task.phase with
  | finished => exact absurd hphase hrunning
  | publishing ticket => simpa using houtcome ticket hphase
  | making due product =>
    have hnow : due ≤ h.now := hdue due (by simp [deadline?, hphase])
    dsimp only
    split
    · simp
    · simp
  | idle =>
    have hstep : task.stepIdle? h ≠ none := by
      unfold stepIdle?
      split
      · simp
      · split
        next => simp
        next schedule ticker generate hsource =>
          have hnow : ticker.deadline ≤ h.now :=
            hdue ticker.deadline (by simp [deadline?, hphase, hsource])
          simp [Ticker.isDue, hnow]
        next item hsource => split <;> simp
    simpa using hstep

end PublishTask

theorem Diligent.labour_le {source : TaskSource} {reports : Bool} {opened : Prop} {t : List Deed}
    {task : PublishTask} (hd : Diligent source reports opened t task) :
    labour t ≤ 1 + 3 * task.turns := by
  have hlabour := Deed.labour_le t
  have hbegun : (beginnings t).length ≤ 1 := by
    rw [hd.begun]
    split <;> omega
  have hproducts := hd.place.length_le
  have hhandovers : (handovers t).length ≤ (products t).length := by
    rw [← List.length_map Prod.snd, handovers_eq]
    exact List.length_filterMap_le _ _
  have hreplies := hd.place.replied_initial.length_le
  rw [List.length_map, List.length_map] at hreplies
  have hturns := hd.turns
  omega

namespace Service

variable {settings : Settings} {origin : UtcTime} {transport : Transport} {source : TaskSource}
  {reports : Bool} {opened : Prop} {name : TaskId} {id : PublisherId} {start s s' : Service}
  {a : Action} {t t' : List (Service × Action)} {task task' : PublishTask}

/-! ## Runs -/

/-- What a task hands over is a call of its publisher. -/
theorem handovers_deeds (hentry : s.tasks.get? name = some ⟨id, task⟩)
    (h : s.perform? a = some s') :
    (handovers (s.deeds name a)).Sublist (calls (s.moments id a)) := by
  unfold deeds
  simp only [hentry, Option.elim_some]
  cases a with
  | step actor =>
    cases actor with
    | task name' =>
      dsimp only
      split
      next hname =>
        subst hname
        obtain ⟨entry, task', p', hown, hstep, -⟩ := exists_of_advanceTask h
        rw [hentry] at hown
        cases hown
        rw [moments, hentry]
        simpa using (PublishTask.stride_of_advance hstep).handovers
      next => exact List.nil_sublist _
    | publisher _ | subscription _ => exact List.nil_sublist _
  | cancelTask _ | takeFailures _ | closePublisher _ | shutdown =>
    dsimp only
    split <;> exact List.nil_sublist _
  | _ => exact List.nil_sublist _

theorem shut_mem_deeds (hentry : s.tasks.get? name = some ⟨id, task⟩)
    (h : s.perform? a = some s') : .shut ∈ s.deeds name a ↔ .closed ∈ s.moments id a := by
  unfold deeds
  simp only [hentry, Option.elim_some]
  -- A task and its publisher both see the two actions that close publishers, and no other as one.
  cases a with
  | step actor =>
    cases actor with
    | task name' =>
      refine iff_of_false ?_ ?_
      · dsimp only
        split
        next hname =>
          subst hname
          obtain ⟨entry, task', p', hown, hstep, -⟩ := exists_of_advanceTask h
          rw [hentry] at hown
          cases hown
          exact (PublishTask.stride_of_advance hstep).shut_not_mem
        next => exact List.not_mem_nil
      · rw [moments]
        split
        · split
          · exact PublishTask.closed_not_mem _ _
          · exact List.not_mem_nil
        · exact List.not_mem_nil
    | publisher id' =>
      refine iff_of_false List.not_mem_nil ?_
      rw [moments]
      split
      · exact closed_not_mem _ _
      · exact List.not_mem_nil
    | subscription _ => exact iff_of_false List.not_mem_nil List.not_mem_nil
  | closePublisher id' =>
    rw [moments]
    dsimp only
    split <;> simp
  | shutdown =>
    rw [moments]
    dsimp only
    split <;> simp
  | publish id' event =>
    rw [moments]
    dsimp only
    split <;> simp
  | cancelTask _ | takeFailures _ =>
    refine iff_of_false ?_ List.not_mem_nil
    dsimp only
    split <;> simp
  | _ => exact iff_of_false List.not_mem_nil List.not_mem_nil

/-- A task that keeps its duty. In `t` is what happened since it was started. -/
structure Engaged (source : TaskSource) (reports : Bool) (opened : Prop) (name : TaskId)
    (id : PublisherId) (t : List (Service × Action)) (s : Service) (task : PublishTask) : Prop where
  entry : s.tasks.get? name = some ⟨id, task⟩
  diligent : Diligent source reports opened (readOff (deeds name) t) task
  closed : (s.publisher id).closed = true ↔ ¬opened ∨ .shut ∈ readOff (deeds name) t
  published : (handovers (readOff (deeds name) t)).Sublist (calls (readOff (moments id) t))
  outcomes : ∀ ticket outcome, (ticket, outcome) ∈ replies (readOff (deeds name) t) →
    s.outcome? id ticket = some outcome
  orderly : ∃ early, Orderly (early ++ readOff (moments id) t) (s.publisher id)
    s.hub.store.lastStamp

namespace Engaged

theorem move (he : Engaged source reports opened name id t s task) (h : s.perform? a = some s') :
    ∃ task', Engaged source reports opened name id (t ++ record s a) s' task' ∧
      task.Move s.hub (s.publisher id) (s'.publisher id) (s.deeds name a) task' := by
  obtain ⟨task', hentry, hmove⟩ := task_move he.entry h
  obtain ⟨early, horderly⟩ := he.orderly
  have hpublisher : (s.publisher id).Move s.hub.store.lastStamp s'.hub.store.lastStamp
      (s.moments id a) (s'.publisher id) := Service.move h
  refine ⟨task', ⟨hentry, ?_, ?_, ?_, ?_, early, ?_⟩, hmove⟩
  · rw [readOff_record]
    exact he.diligent.step he.closed hmove
  · rw [readOff_record, hpublisher.closed_iff, he.closed, List.mem_append,
      shut_mem_deeds he.entry h, or_assoc]
  · rw [readOff_record, readOff_record, handovers_append, calls_append]
    exact he.published.append (handovers_deeds he.entry h)
  · -- What was taken before stays, and what is taken now was there.
    intro ticket outcome hreply
    rw [readOff_record, replies_append, List.mem_append] at hreply
    obtain hold | hnew := hreply
    · exact horderly.outcome?_stays hpublisher (he.outcomes ticket outcome hold)
    · exact horderly.outcome?_stays hpublisher (hmove.replied hnew)
  · rw [readOff_record, ← List.append_assoc]
    exact horderly.step hpublisher

/-- What every move of a task keeps is kept. -/
theorem keeps {P : List Deed → PublishTask → Prop}
    (hkeep : ∀ {d deeds : List Deed} {task task' : PublishTask} {h : Hub} {p p' : Publisher},
      P d task → task.Move h p p' deeds task' → P (d ++ deeds) task')
    (he : Engaged source reports opened name id t s task) (hp : P (readOff (deeds name) t) task)
    (later : Trail record s t' s') :
    ∃ task', Engaged source reports opened name id (t ++ t') s' task' ∧
      P (readOff (deeds name) (t ++ t')) task' := by
  induction later with
  | start =>
    rw [List.append_nil]
    exact ⟨task, he, hp⟩
  | step _ h ih =>
    obtain ⟨task', he', hp'⟩ := ih
    obtain ⟨task'', he'', hmove⟩ := he'.move h
    rw [← List.append_assoc, readOff_record]
    exact ⟨task'', he'', hkeep hp' hmove⟩

theorem trail (he : Engaged source reports opened name id t s task)
    (later : Trail record s t' s') :
    ∃ task', Engaged source reports opened name id (t ++ t') s' task' := by
  obtain ⟨task', he', -⟩ := he.keeps (P := fun _ _ => True) (fun _ _ => trivial) trivial later
  exact ⟨task', he'⟩

end Engaged

theorem Trail.engaged
    (trail : Trail record (withTransport settings origin transport) t s)
    (hentry : s.tasks.get? name = some ⟨id, .start source reports⟩)
    (hticks : source.ticks = false) :
    Engaged source reports ((s.publisher id).closed = false) name id [] s
      (.start source reports) where
  entry := hentry
  diligent := diligent_start reports _ hticks
  closed := by simp [readOff]
  published := List.nil_sublist _
  outcomes _ _ hreply := by cases hreply
  orderly := ⟨readOff (moments id) t, by simpa [readOff] using (trail.seenBy (moments id)).orderly⟩

/-! ## Fair courses -/

/-- A course from a later state on. -/
def Course.later (c : Course s) (n : Nat) : Course (c.state n) :=
  ⟨fun m => c.state (n + m), fun m => c.action (n + m), rfl, fun m => c.step (n + m)⟩

theorem Course.Fair.later {c : Course s} {actor : Actor} (fair : c.Fair actor) (n : Nat) :
    (c.later n).Fair actor where
  turns k := by
    obtain ⟨m, hm, hturn⟩ := fair.turns (n + k)
    obtain ⟨j, rfl⟩ := Nat.exists_eq_add_of_le hm
    rw [Nat.add_assoc] at hturn
    exact ⟨k + j, Nat.le_add_right k j, hturn⟩
  time time := by
    obtain ⟨k, hk⟩ := fair.time time
    exact ⟨k, fun m hm => hk (n + m) (hm.trans (Nat.le_add_left m n))⟩

theorem advance?_task (hentry : s.tasks.get? name = some ⟨id, task⟩)
    (h : task.advance? s.hub (s.publisher id) ≠ none) : s.advance? (.task name) ≠ none := by
  obtain ⟨next, hnext⟩ := Option.ne_none_iff_exists'.1 h
  simp [advance?, advanceTask?, hentry, hnext]

theorem labour_step (hentry : s.tasks.get? name = some ⟨id, task⟩)
    (h : s.perform? (.step (.task name)) = some s')
    (hrunning : ∀ task', s'.tasks.get? name = some ⟨id, task'⟩ → task'.phase ≠ .finished) :
    labour (s.deeds name (.step (.task name))) = 1 := by
  obtain ⟨entry, task', p', hown, hstep, rfl⟩ := exists_of_advanceTask h
  rw [hentry] at hown
  cases hown
  have hdeeds : s.deeds name (.step (.task name)) = task.deeds s.hub (s.publisher id) := by
    simp [deeds, hentry]
  rw [hdeeds]
  apply (PublishTask.stride_of_advance hstep).labour_eq
  exact hrunning task' (Table.get?_insert_self ..)

namespace Course

variable {c : Course s}

/-- What was seen of the task up to a moment of the course. -/
def deedsUpTo (c : Course s) (name : TaskId) (t : List (Service × Action)) (n : Nat) : List Deed :=
  readOff (deeds name) (t ++ c.seen record n)

theorem deedsUpTo_succ (c : Course s) (name : TaskId) (t : List (Service × Action)) (n : Nat) :
    c.deedsUpTo name t (n + 1) = c.deedsUpTo name t n ++ (c.state n).deeds name (c.action n) := by
  unfold deedsUpTo
  rw [seen, ← List.append_assoc, readOff_record]

theorem engaged (he : Engaged source reports opened name id t s task) (c : Course s) (n : Nat) :
    ∃ task', Engaged source reports opened name id (t ++ c.seen record n) (c.state n) task' :=
  he.trail (c.trail record n)

theorem move (he : Engaged source reports opened name id (t ++ c.seen record n) (c.state n) task) :
    ∃ task', Engaged source reports opened name id (t ++ c.seen record (n + 1)) (c.state (n + 1))
        task' ∧
      task.Move (c.state n).hub ((c.state n).publisher id) ((c.state (n + 1)).publisher id)
        ((c.state n).deeds name (c.action n)) task' := by
  obtain ⟨task', he', hmove⟩ := he.move (c.step n)
  rw [List.append_assoc] at he'
  exact ⟨task', he', hmove⟩

/-- The task never comes to its end from a moment on. -/
def Runs (c : Course s) (name : TaskId) (id : PublisherId) (n : Nat) : Prop :=
  ∀ m, n ≤ m → ∀ task, (c.state m).tasks.get? name = some ⟨id, task⟩ → task.phase ≠ .finished

/-- The outcome that a task waits for comes, and stays. -/
theorem Fair.exists_outcome (fair : c.Fair (.publisher id)) {n : Nat}
    (he : Engaged source reports opened name id (t ++ c.seen record n) (c.state n) task) :
    ∃ late, ∀ m, n + late ≤ m → ∀ ticket, task.phase = .publishing ticket →
      (c.state m).outcome? id ticket ≠ none := by
  by_cases hphase : ∃ ticket, task.phase = .publishing ticket
  · obtain ⟨ticket, hphase⟩ := hphase
    obtain ⟨early, horderly⟩ := he.orderly
    have hreplied := Place.of_publishing (hphase ▸ he.diligent.place)
    have hticket : ticket ∈
        (handovers (readOff (deeds name) (t ++ c.seen record n))).map Prod.fst := by
      rw [← hreplied]
      exact List.mem_append_right _ List.mem_cons_self
    obtain ⟨⟨_, event⟩, hhanded, rfl⟩ := List.mem_map.1 hticket
    have hcall := he.published.subset hhanded
    obtain ⟨k, hk⟩ := (fair.later n).resolves horderly
      (calls_append early _ ▸ List.mem_append_right _ hcall)
    obtain ⟨outcome, houtcome⟩ := Option.ne_none_iff_exists'.1 hk
    refine ⟨k, fun m hm ticket' hphase' => ?_⟩
    cases hphase.symm.trans hphase'
    obtain ⟨j, rfl⟩ := Nat.exists_eq_add_of_le hm
    -- The journal up to the outcome is one in order, so the outcome stays.
    have hon := ((c.later n).trail (moments id) k).orderly_after horderly
    have hstays := (((c.later n).later k).trail (moments id) j).outcome?_stays hon houtcome
    have hstate : ((c.later n).later k).state j = c.state (n + k + j) :=
      congrArg c.state (Nat.add_assoc n k j).symm
    rw [hstate] at hstays
    rw [hstays]
    exact Option.some_ne_none outcome
  · exact ⟨0, fun m _ ticket hticket => absurd ⟨ticket, hticket⟩ hphase⟩

/-- A task that does not come to its end takes a step after the other. -/
theorem Fair.labour_lt (he : Engaged source reports opened name id t s task)
    (fair : c.Fair (.task name)) (hdriver : c.Fair (.publisher id)) {n : Nat}
    (hruns : c.Runs name id n) :
    ∃ m, n ≤ m ∧ labour (c.deedsUpTo name t n) < labour (c.deedsUpTo name t m) := by
  by_contra hnone
  push Not at hnone
  obtain ⟨before, hbefore⟩ := c.engaged he n
  -- Without steps it stays where it is, and so does what it waits for.
  have hsame : ∀ m, n ≤ m → labour (c.deedsUpTo name t m) = labour (c.deedsUpTo name t n) ∧
      ∃ task', Engaged source reports opened name id (t ++ c.seen record m) (c.state m) task' ∧
        task'.source = before.source ∧ task'.phase = before.phase := by
    intro m hm
    induction m, hm using Nat.le_induction with
    | base => exact ⟨rfl, before, hbefore, rfl, rfl⟩
    | succ m hm ih =>
      obtain ⟨hlabour, task', he', hsource, hphase⟩ := ih
      obtain ⟨task'', he'', hmove⟩ := move he'
      have hlast := hnone (m + 1) (Nat.le_succ_of_le hm)
      rw [deedsUpTo_succ, labour_append, hlabour] at hlast
      have hzero : labour ((c.state m).deeds name (c.action m)) = 0 := by omega
      obtain ⟨hsource', hphase'⟩ := hmove.same_of_labour
        (hruns (m + 1) (Nat.le_succ_of_le hm) task'' he''.entry) hzero
      refine ⟨by rw [deedsUpTo_succ, labour_append, hlabour, hzero, Nat.add_zero], task'', he'', ?_⟩
      exact ⟨hsource'.trans hsource, hphase'.trans hphase⟩
  obtain ⟨late, hlate⟩ := hdriver.exists_outcome hbefore
  obtain ⟨dusk, hdusk⟩ := fair.time (before.deadline?.getD 0)
  obtain ⟨m, hm, hturn⟩ := fair.turns (max (n + late) dusk)
  have hn : n ≤ m := (Nat.le_add_right n late).trans (le_of_max_le_left hm)
  obtain ⟨hlabour, task', he', hsource, hphase⟩ := hsame m hn
  obtain haction | hstuck := hturn
  · have hstep := c.step m
    rw [haction] at hstep
    have hlast := hnone (m + 1) (Nat.le_succ_of_le hn)
    have hone := labour_step he'.entry hstep (hruns (m + 1) (Nat.le_succ_of_le hn))
    rw [deedsUpTo_succ, labour_append, hlabour, haction, hone] at hlast
    omega
  · refine advance?_task he'.entry ?_ hstuck
    apply PublishTask.advance?_ne_none (hruns m hn task' he'.entry)
    · intro time hdeadline
      have hnow := hdusk m (le_of_max_le_right hm)
      have hwait : before.deadline? = some time := by
        rw [← hdeadline]
        unfold PublishTask.deadline?
        rw [hsource, hphase]
      rwa [hwait] at hnow
    · intro ticket hticket
      exact hlate m (le_of_max_le_left hm) ticket (hphase ▸ hticket)

/-- It takes as many steps as one likes. -/
theorem Fair.le_labour (he : Engaged source reports opened name id t s task)
    (fair : c.Fair (.task name)) (hdriver : c.Fair (.publisher id)) (hruns : c.Runs name id 0)
    (count : Nat) : ∃ n, count ≤ labour (c.deedsUpTo name t n) := by
  induction count with
  | zero => exact ⟨0, Nat.zero_le _⟩
  | succ count ih =>
    obtain ⟨n, hn⟩ := ih
    obtain ⟨m, -, hm⟩ := fair.labour_lt he hdriver fun m (_ : n ≤ m) => hruns m (Nat.zero_le m)
    exact ⟨m, by omega⟩

/-- There is a moment at which nothing is under way. -/
theorem Fair.rests (he : Engaged source reports opened name id t s task)
    (fair : c.Fair (.task name)) (hdriver : c.Fair (.publisher id)) :
    ∃ n task', Engaged source reports opened name id (t ++ c.seen record n) (c.state n) task' ∧
      (task'.phase = .idle ∨ task'.phase = .finished) := by
  by_contra hnone
  push Not at hnone
  -- A task that is never idle calls no more, so that there is an end to its steps.
  have hturns : ∀ n, ∃ task',
      Engaged source reports opened name id (t ++ c.seen record n) (c.state n) task' ∧
        task'.turns = task.turns := by
    intro n
    induction n with
    | zero =>
      refine ⟨task, ?_, rfl⟩
      rw [seen, List.append_nil, c.start]
      exact he
    | succ n ih =>
      obtain ⟨task', he', hsame⟩ := ih
      obtain ⟨task'', he'', hmove⟩ := move he'
      exact ⟨task'', he'', (hmove.turns_eq (hnone n task' he').1).trans hsame⟩
  have hruns : c.Runs name id 0 := by
    intro m _ task' hentry
    obtain ⟨task'', he''⟩ := c.engaged he m
    cases he''.entry.symm.trans hentry
    exact (hnone m _ he'').2
  obtain ⟨n, hn⟩ := fair.le_labour he hdriver hruns (2 + 3 * task.turns)
  obtain ⟨task', he', hsame⟩ := hturns n
  have hbound := he'.diligent.labour_le
  rw [hsame] at hbound
  unfold deedsUpTo at hn
  omega

/-- There is a moment at which all publishes are answered. -/
theorem Fair.answers (he : Engaged source reports opened name id t s task)
    (fair : c.Fair (.task name)) (hdriver : c.Fair (.publisher id)) :
    ∃ n, Answered (readOff (deeds name) (t ++ c.seen record n)) := by
  obtain ⟨n, task', he', hphase⟩ := fair.rests he hdriver
  refine ⟨n, he'.diligent.place.answered fun ticket hticket => ?_⟩
  obtain hidle | hfinished := hphase
  · cases hidle.symm.trans hticket
  · cases hfinished.symm.trans hticket

end Course

/-! ## Relaying -/

/-- What a task does with the events that are made for it. In `t` is what happened since it was
started, and the service is `s` now. -/
structure Relays (reports : Bool) (name : TaskId) (id : PublisherId)
    (t : List (Service × Action)) (s : Service) : Prop where
  /-- What the task hands over are calls of its publisher, in their order. -/
  published : (handovers (readOff (deeds name) t)).Sublist (calls (readOff (moments id) t))
  /-- And each of them is a call of its own. -/
  once : ((handovers (readOff (deeds name) t)).map Prod.fst).Nodup
  /-- An event is published when all before it were answered. -/
  oneByOne : ∀ before ticket event, before ++ [.handed ticket event] <+: readOff (deeds name) t →
    Answered before
  /-- The task learns the outcomes of its publishes in their order. -/
  replied : (replies (readOff (deeds name) t)).map Prod.fst <+:
    (handovers (readOff (deeds name) t)).map Prod.fst
  outcomes : ∀ ticket outcome, (ticket, outcome) ∈ replies (readOff (deeds name) t) →
    s.outcome? id ticket = some outcome
  failure : ∀ ticket event failure, (ticket, event) ∈ handovers (readOff (deeds name) t) →
    s.outcome? id ticket = some (.error failure) → failure.event = event
  /-- What is reported are the failures among the publishes that were answered, in their order. -/
  handler : ∃ task, s.tasks.get? name = some ⟨id, task⟩ ∧
    (taken (readOff (deeds name) t) ++ task.failures).map Prod.snd =
      if reports then
        ((handovers (readOff (deeds name) t)).take
          (replies (readOff (deeds name) t)).length).filterMap fun call =>
            (s.outcome? id call.1).bind failure?
      else []
  /-- All that was published is answered in the end. -/
  completes : ∀ c : Course s, c.Fair (.task name) → c.Fair (.publisher id) →
    ∃ n, Answered (readOff (deeds name) (t ++ c.seen record n))

theorem Engaged.relays (he : Engaged source reports opened name id t s task) :
    Relays reports name id t s := by
  obtain ⟨early, horderly⟩ := he.orderly
  have hcalls : (handovers (readOff (deeds name) t)).Sublist
      (calls (early ++ readOff (moments id) t)) := by
    rw [calls_append]
    exact he.published.trans (List.sublist_append_right _ _)
  have hreplied := he.diligent.place.replied_initial
  constructor
  case published => exact he.published
  case once => exact horderly.nodup_tickets.sublist (hcalls.map _)
  case oneByOne =>
    intro before ticket event hbefore
    exact (he.diligent.timely before _ hbefore).1
  case replied => exact hreplied
  case outcomes => exact he.outcomes
  case failure =>
    intro ticket event failure hhanded hfailed
    exact horderly.failure_event (hcalls.subset hhanded) hfailed
  case handler =>
    refine ⟨task, he.entry, ?_⟩
    rw [he.diligent.reported, failed_eq hreplied he.outcomes]
  case completes =>
    intro c fair hdriver
    exact fair.answers he hdriver

/-! ## Fair courses exist -/

/-- What an actor does when it is its turn; if there is no step to take, time goes on. -/
def takeTurn (actor : Actor) (s : Service) : Action × Service :=
  match s.advance? actor with
  | some next => (.step actor, next)
  | none => (.wait 1, { s with hub := { s.hub with now := s.hub.now + 1 } })

/-- A task and a publisher take turns, and in between time goes on. -/
def rotate (name : TaskId) (id : PublisherId) (s : Service) (n : Nat) : Action × Service :=
  if n % 3 = 0 then (.wait 1, { s with hub := { s.hub with now := s.hub.now + 1 } })
  else takeTurn (if n % 3 = 1 then .task name else .publisher id) s

/-- The states on the way. -/
def rotating (name : TaskId) (id : PublisherId) (s : Service) : Nat → Service
  | 0 => s
  | n + 1 => (rotate name id (rotating name id s n) n).2

theorem perform?_takeTurn (actor : Actor) (s : Service) :
    s.perform? (takeTurn actor s).1 = some (takeTurn actor s).2 := by
  unfold takeTurn
  split
  next hnext => exact hnext
  next => rfl

theorem takeTurn_fair (actor : Actor) (s : Service) :
    (takeTurn actor s).1 = .step actor ∨ s.advance? actor = none := by
  unfold takeTurn
  cases s.advance? actor with
  | none => exact .inr rfl
  | some next => exact .inl rfl

theorem perform?_rotate (name : TaskId) (id : PublisherId) (s : Service) (n : Nat) :
    s.perform? (rotate name id s n).1 = some (rotate name id s n).2 := by
  unfold rotate
  split
  · rfl
  · exact perform?_takeTurn _ s

theorem now_advanceTask (h : s.advance? (.task name) = some s') : s'.hub.now = s.hub.now := by
  obtain ⟨entry, task, p, -, -, rfl⟩ := exists_of_advanceTask h
  rfl

theorem le_now_rotate (name : TaskId) (id : PublisherId) (s : Service) (n : Nat) :
    (s.hub.now : Nat) + (if n % 3 = 0 then 1 else 0) ≤ (rotate name id s n).2.hub.now := by
  unfold rotate
  split
  next => exact Nat.le_refl _
  next =>
    have hsame : ∀ s', s.advance? (if n % 3 = 1 then .task name else .publisher id) = some s' →
        s'.hub.now = s.hub.now := by
      intro s' hnext
      split at hnext
      · exact now_advanceTask hnext
      · exact now_advancePublisher hnext
    unfold takeTurn
    split
    next next hnext => exact (hsame next hnext).ge
    next => exact Nat.le_succ _

theorem le_now_rotating (name : TaskId) (id : PublisherId) (s : Service) (n : Nat) :
    (n + 2) / 3 ≤ (rotating name id s n).hub.now := by
  induction n with
  | zero => exact Nat.zero_le _
  | succ n ih =>
    have hthird : (n + 1 + 2) / 3 ≤ (n + 2) / 3 + (if n % 3 = 0 then 1 else 0) := by
      split <;> omega
    apply hthird.trans
    exact (Nat.add_le_add_right ih _).trans (le_now_rotate name id (rotating name id s n) n)

/-- From everywhere there is a course that is fair to a task and to its publisher. -/
theorem exists_fair_both (s : Service) (name : TaskId) (id : PublisherId) :
    ∃ c : Course s, c.Fair (.task name) ∧ c.Fair (.publisher id) := by
  let c : Course s := ⟨rotating name id s, fun n => (rotate name id (rotating name id s n) n).1,
    rfl, fun n => perform?_rotate name id _ n⟩
  have htime : ∀ time : Nat, ∃ n, ∀ m, n ≤ m → time ≤ (c.state m).hub.now := by
    intro time
    refine ⟨3 * time, fun m hm => ?_⟩
    have hthird : time ≤ (m + 2) / 3 := by omega
    exact hthird.trans (le_now_rotating name id s m)
  refine ⟨c, ⟨fun n => ⟨3 * n + 1, by omega, ?_⟩, htime⟩,
    ⟨fun n => ⟨3 * n + 2, by omega, ?_⟩, htime⟩⟩
  · have hone : (3 * n + 1) % 3 = 1 := by omega
    have hrotate : c.action (3 * n + 1) = (takeTurn (.task name) (c.state (3 * n + 1))).1 := by
      show (rotate name id _ (3 * n + 1)).1 = _
      rw [rotate, if_neg (by omega), if_pos hone]
    rw [hrotate]
    exact takeTurn_fair _ _
  · have htwo : (3 * n + 2) % 3 = 2 := by omega
    have hrotate : c.action (3 * n + 2) = (takeTurn (.publisher id) (c.state (3 * n + 2))).1 := by
      show (rotate name id _ (3 * n + 2)).1 = _
      rw [rotate, if_neg (by omega), if_neg (by omega)]
    rw [hrotate]
    exact takeTurn_fair _ _

end Service

end Observatory
