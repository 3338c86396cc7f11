import Observatory.Proofs.Service.Run

/-!
# Trails

A run with any observation of its actions in place of its trace, and courses, which are runs without
end. A record keeps every action, so that everything else can be read off it. In a fair course time
goes on, and an actor that can take a step takes one in the end.
-/

namespace Observatory.Service

variable {α : Type} {observe : Service → Action → List α} {start s s' : Service} {t t' : List α}

/-- The service `s` is reached from `start`, and `t` is what was observed on the way. -/
inductive Trail (observe : Service → Action → List α) (start : Service) :
    List α → Service → Prop where
  | start : Trail observe start [] start
  | step {t : List α} {s s' : Service} {a : Action} (trail : Trail observe start t s)
      (h : s.perform? a = some s') : Trail observe start (t ++ observe s a) s'

theorem Trail.trans (trail : Trail observe start t s) (trail' : Trail observe s t' s') :
    Trail observe start (t ++ t') s' := by
  induction trail' with
  | start => rwa [List.append_nil]
  | step _ h ih =>
    rw [← List.append_assoc]
    exact ih.step h

/-- Whatever else is observed on the way, the same services are reached. -/
theorem Trail.exists_other {β : Type} (trail : Trail observe start t s)
    (observe' : Service → Action → List β) : ∃ t', Trail observe' start t' s := by
  induction trail with
  | start => exact ⟨[], .start⟩
  | step _ h ih =>
    obtain ⟨t', trail'⟩ := ih
    exact ⟨_, trail'.step h⟩

/-- What is observed of a sequence of actions, and its end, if all of them are possible. -/
def observed (observe : Service → Action → List α) (s : Service) :
    List Action → Option (List α × Service)
  | [] => some ([], s)
  | a :: actions => do
    let next ← s.perform? a
    let (t, last) ← observed observe next actions
    return (observe s a ++ t, last)

theorem Trail.observed {actions : List Action} (trail : Trail observe start t s)
    (h : s.observed observe actions = some (t', s')) : Trail observe start (t ++ t') s' := by
  induction actions generalizing s t t' with
  | nil =>
    cases h
    rwa [List.append_nil]
  | cons a actions ih =>
    simp only [Service.observed, Option.bind_eq_bind, Option.bind_eq_some_iff] at h
    obtain ⟨next, hnext, ⟨rest, last⟩, hrest, heq⟩ := h
    cases heq
    rw [← List.append_assoc]
    exact ih (trail.step hnext) hrest

theorem exists_trail_of_observed (observe : Service → Action → List α) (start : Service)
    (actions : List Action) (good : List α → Service → Bool)
    (h : (start.observed observe actions).any (fun last => good last.1 last.2) = true) :
    ∃ t s, Trail observe start t s ∧ good t s = true := by
  obtain ⟨⟨t, s⟩, hobserved, hgood⟩ := (Option.any_eq_true _ _).1 h
  exact ⟨t, s, Trail.start.observed hobserved, hgood⟩

/-! ## Records -/

/-- Every action, with the service that it was taken on. -/
def record (s : Service) (a : Action) : List (Service × Action) :=
  [(s, a)]

/-- What is observed of recorded actions. -/
def readOff (observe : Service → Action → List α) (t : List (Service × Action)) : List α :=
  t.flatMap fun taken => observe taken.1 taken.2

@[simp]
theorem readOff_append (observe : Service → Action → List α) (t t' : List (Service × Action)) :
    readOff observe (t ++ t') = readOff observe t ++ readOff observe t' :=
  List.flatMap_append

@[simp]
theorem readOff_cons (observe : Service → Action → List α) (s : Service) (a : Action)
    (t : List (Service × Action)) :
    readOff observe ((s, a) :: t) = observe s a ++ readOff observe t :=
  List.flatMap_cons

section

variable {t t' : List (Service × Action)} {a : Action}

theorem readOff_record (observe : Service → Action → List α) :
    readOff observe (t ++ record s a) = readOff observe t ++ observe s a := by
  simp [readOff, record]

/-- Everything that can be observed is in the record. -/
theorem Trail.seenBy (trail : Trail record start t s) (observe : Service → Action → List α) :
    Trail observe start (readOff observe t) s := by
  induction trail with
  | start => exact .start
  | step _ h ih =>
    rw [readOff_record]
    exact ih.step h

theorem Trail.run_readOff (trail : Trail record start t s) : Run start (readOff marks t) s := by
  induction trail with
  | start => exact .start
  | step _ h ih =>
    rw [readOff_record]
    exact ih.step h

/-- What was recorded was possible. -/
theorem Trail.split (trail : Trail record start (t ++ (s, a) :: t') s') :
    Trail record start t s ∧ ∃ next, s.perform? a = some next ∧ Trail record next t' s' := by
  generalize hwhole : t ++ (s, a) :: t' = whole at trail
  induction trail generalizing t' with
  | start => simp at hwhole
  | @step whole last next b trail h ih =>
    rcases List.eq_nil_or_concat t' with rfl | ⟨t', taken, rfl⟩
    · obtain ⟨rfl, hlast⟩ := List.append_inj' hwhole rfl
      cases hlast
      exact ⟨trail, next, h, .start⟩
    · rw [List.concat_eq_append, ← List.cons_append, ← List.append_assoc] at hwhole
      obtain ⟨hbefore, hlast⟩ := List.append_inj' hwhole rfl
      cases hlast
      obtain ⟨early, mid, hmid, late⟩ := ih hbefore
      rw [List.concat_eq_append]
      exact ⟨early, mid, hmid, late.step h⟩

theorem Trail.join {next : Service} (early : Trail record start t s)
    (h : s.perform? a = some next) (late : Trail record next t' s') :
    Trail record start (t ++ (s, a) :: t') s' := by
  have hwhole := (early.step h).trans late
  rwa [List.append_assoc] at hwhole

/-- The record of a sequence of actions, and its end. -/
def replay (s : Service) (actions : List Action) : List (Service × Action) × Service :=
  (s.observed record actions).getD ([], s)

theorem Trail.replay (s : Service) (actions : List Action) :
    Trail record s (s.replay actions).1 (s.replay actions).2 := by
  unfold Service.replay
  cases h : s.observed record actions with
  | none => exact .start
  | some last => exact Trail.start.observed h

end

/-- A run without end. -/
structure Course (start : Service) where
  state : Nat → Service
  action : Nat → Action
  start : state 0 = start
  step : ∀ n, (state n).perform? (action n) = some (state (n + 1))

/-- Time goes on, and the actor takes its turn in the end, if it has a step to take. -/
structure Course.Fair (c : Course start) (actor : Actor) : Prop where
  turns : ∀ n, ∃ m, n ≤ m ∧ (c.action m = .step actor ∨ (c.state m).advance? actor = none)
  time : ∀ time, ∃ n, ∀ m, n ≤ m → time ≤ (c.state m).hub.now

/-- What is observed of the first actions of a course. -/
def Course.seen (c : Course start) (observe : Service → Action → List α) : Nat → List α
  | 0 => []
  | n + 1 => c.seen observe n ++ observe (c.state n) (c.action n)

theorem Course.trail (c : Course start) (observe : Service → Action → List α) (n : Nat) :
    Trail observe start (c.seen observe n) (c.state n) := by
  induction n with
  | zero =>
    rw [c.start]
    exact .start
  | succ n ih => exact ih.step (c.step n)

end Observatory.Service
