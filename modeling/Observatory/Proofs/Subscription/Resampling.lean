import Mathlib
import Observatory.Bus.Subscription.Pipeline

/-!
# Resampling

What rate control makes of its input, turn by turn. At each turn something reaches the pacer of a
pipeline: an arrival, a tick, the end of the input or nothing at all. In adaptive mode the ticks
emit the latest arrival, and in limiter mode they emit the same without what was emitted already.
Two variables of the pacer carry this over all turns: the latest arrival, and whether it is still to
be emitted.
-/

namespace Observatory

/-! ## Turns -/

/-- What reaches the pacer of a pipeline at a turn. -/
inductive Signal where
  /-- Nothing, or an event that is not let in. -/
  | idle
  | arrival (e : Event)
  | tick
  /-- The end of the input. -/
  | finish
  deriving DecidableEq

def Signal.event? : Signal → Option Event
  | .arrival e => some e
  | _ => none

/-- What comes out of a pipeline at a turn. -/
inductive Response where
  | silence
  | emit (e : Event)
  | ended
  deriving DecidableEq

def Response.event? : Response → Option Event
  | .emit e => some e
  | _ => none

/-- The signals of some turns in a row, and the responses to them. -/
abbrev Turns := List (Signal × Response)

namespace Turns

/-- What has arrived. -/
def arrivals (turns : Turns) : List Event :=
  turns.filterMap fun turn => turn.1.event?

def latest (turns : Turns) : Option Event :=
  turns.arrivals.getLast?

/-- What is emitted, each time with the number of arrivals so far, if there were `n` before. -/
def emissionsFrom (n : Nat) : Turns → List (Nat × Event)
  | [] => []
  | (signal, response) :: turns =>
    let n := n + signal.event?.toList.length
    response.event?.toList.map (n, ·) ++ emissionsFrom n turns

/-- What is emitted, each time with the number of the latest arrival. -/
def emissions (turns : Turns) : List (Nat × Event) :=
  turns.emissionsFrom 0

/-- Something has arrived since the last emission. -/
def Pending (turns : Turns) : Prop :=
  ∃ earlier e response later, turns = earlier ++ (.arrival e, response) :: later ∧
    ∀ turn ∈ later, turn.2.event? = none

end Turns

def Pipeline.Step.response : Pipeline.Step → Response
  | .onward _ => .silence
  | .emit e _ => .emit e
  | .ended => .ended

/-- The pipeline after a step, unless it has ended. -/
def Pipeline.Step.next? : Pipeline.Step → Option Pipeline
  | .onward p => some p
  | .emit _ p => some p
  | .ended => none

/-- What reaches the pacer of a pipeline when it takes a step. -/
def Pipeline.signal (p : Pipeline) (target : Target) (h : Hub) (id : ReaderId) : Signal :=
  match p.seeds with
  | e :: _ => .arrival e
  | [] =>
    if h.transport.backend.isQuiet id then .tick
    else
      match (h.nextLive id).1 with
      | .item w => if p.isNews w && target.admits w.event then .arrival w.event else .idle
      | .pending => .idle
      | .ended => .finish

/-- The turns of a pipeline that finds these hubs one after the other. It waits at a hub where it
has no step to take. -/
def Pipeline.turns (target : Target) (id : ReaderId) : Pipeline → List Hub → Turns
  | _, [] => []
  | p, h :: hubs =>
    match p.advance? target h id with
    | none => p.turns target id hubs
    | some (step, _) =>
      (p.signal target h id, step.response) ::
        match step.next? with
        | some q => q.turns target id hubs
        | none => []

/-! ## Pacers -/

namespace Pacer

/-- What a pacer answers to a signal, and the pacer after it. -/
def respond (p : Pacer) : Signal → Response × Pacer
  | .idle => (.silence, p)
  | .arrival e => (.silence, p.arrive e)
  | .tick =>
    match p.tick with
    | (some e, q) => (.emit e, q)
    | (none, q) => (.silence, q)
  | .finish => (.ended, p)

/-- The turns of a pacer, the last of them at the end of the input. -/
def turns (p : Pacer) : List Signal → Turns
  | [] => []
  | .finish :: _ => [(.finish, .ended)]
  | signal :: signals => (signal, (p.respond signal).1) :: (p.respond signal).2.turns signals

/-- The pacer that has had these turns. -/
inductive Reaches (mode : Mode) : Turns → Pacer → Prop where
  | start : Reaches mode [] (.start mode)
  | turn {before : Turns} {p : Pacer} {signal : Signal} (h : Reaches mode before p)
      (hopen : signal ≠ .finish) :
      Reaches mode (before ++ [(signal, (p.respond signal).1)]) (p.respond signal).2

end Pacer

variable {mode : Mode} {p q : Pacer} {signal : Signal} {response : Response} {e : Event}
  {turns before after : Turns} {signals : List Signal} {n : Nat}

/-! ## What turns leave behind -/

namespace Turns

theorem arrivals_concat : arrivals (turns ++ [(signal, response)]) =
    arrivals turns ++ signal.event?.toList := by
  cases signal <;> simp [arrivals, Signal.event?]

theorem latest_concat : latest (turns ++ [(signal, response)]) =
    signal.event?.or turns.latest := by
  rw [latest, arrivals_concat]
  cases signal.event? with
  | none => simp [latest]
  | some e => simp

theorem not_pending_nil : ¬ Pending [] := by
  rintro ⟨earlier, e, response, later, h, -⟩
  cases earlier <;> cases h

theorem pending_concat : Pending (turns ++ [(signal, response)]) ↔
    signal.event?.isSome = true ∨ response.event? = none ∧ Pending turns := by
  -- The last arrival is at the new turn, or it was there before and the new turn emits nothing.
  constructor
  · rintro ⟨earlier, e, response', later, h, hlater⟩
    rcases List.eq_nil_or_concat later with rfl | ⟨later, turn, rfl⟩
    · obtain ⟨-, hturn⟩ := List.append_inj' h rfl
      cases hturn
      exact .inl rfl
    · rw [List.concat_eq_append] at h hlater
      rw [← List.cons_append, ← List.append_assoc] at h
      obtain ⟨rfl, hturn⟩ := List.append_inj' h rfl
      cases hturn
      rw [List.forall_mem_append] at hlater
      exact .inr ⟨hlater.2 _ List.mem_cons_self, earlier, e, response', later, rfl, hlater.1⟩
  · rintro (h | ⟨hresponse, earlier, e, response', later, rfl, hlater⟩)
    · cases signal with
      | arrival e => exact ⟨turns, e, response, [], rfl, List.forall_mem_nil _⟩
      | idle => cases h
      | tick => cases h
      | finish => cases h
    · refine ⟨earlier, e, response', later ++ [(signal, response)], by simp, ?_⟩
      rw [List.forall_mem_append, List.forall_mem_singleton]
      exact ⟨hlater, hresponse⟩

theorem Pending.latest (h : Pending turns) : turns.latest ≠ none := by
  obtain ⟨earlier, e, response, later, rfl, -⟩ := h
  rw [Turns.latest, ne_eq, List.getLast?_eq_none_iff, arrivals]
  simp [Signal.event?]

theorem le_of_mem_emissionsFrom {x : Nat × Event} (h : x ∈ turns.emissionsFrom n) : n ≤ x.1 := by
  induction turns generalizing n with
  | nil => cases h
  | cons turn turns ih =>
    rcases List.mem_append.1 h with h | h
    · obtain ⟨e, -, rfl⟩ := List.mem_map.1 h
      exact Nat.le_add_right _ _
    · exact (Nat.le_add_right _ _).trans (ih h)

theorem ascending_emissionsFrom (n : Nat) (turns : Turns) :
    (turns.emissionsFrom n).Pairwise fun x y => x.1 ≤ y.1 := by
  induction turns generalizing n with
  | nil => exact .nil
  | cons turn turns ih =>
    refine List.pairwise_append.2 ⟨?_, ih _, fun x hx y hy => ?_⟩
    · cases turn.2 <;> simp [Response.event?]
    · obtain ⟨e, -, rfl⟩ := List.mem_map.1 hx
      exact le_of_mem_emissionsFrom hy

end Turns

namespace Pacer

/-! ## Single turns -/

theorem tick_cases (p : Pacer) :
    (∃ e, p.latest = some e ∧ (p.mode = .adaptive ∨ p.fresh = true) ∧
      p.respond .tick = (.emit e, { p with fresh := false })) ∨
    ((p.latest = none ∨ p.mode = .limiter ∧ p.fresh = false) ∧
      p.respond .tick = (.silence, p)) := by
  unfold respond tick
  cases hlatest : p.latest with
  | none => exact .inr ⟨.inl rfl, rfl⟩
  | some e =>
    by_cases hdue : p.mode = .adaptive ∨ p.fresh = true
    · exact .inl ⟨e, rfl, hdue, by simp only [if_pos hdue]⟩
    · refine .inr ⟨.inr ?_, by simp only [if_neg hdue]⟩
      obtain ⟨hmode, hfresh⟩ := not_or.1 hdue
      refine ⟨?_, Bool.eq_false_of_not_eq_true hfresh⟩
      cases h : p.mode with
      | adaptive => exact absurd h hmode
      | limiter => rfl

theorem respond_ended_iff : (p.respond signal).1 = .ended ↔ signal = .finish := by
  cases signal with
  | idle => exact ⟨nofun, nofun⟩
  | arrival => exact ⟨nofun, nofun⟩
  | finish => exact ⟨fun _ => rfl, fun _ => rfl⟩
  | tick =>
    obtain ⟨e, -, -, hrespond⟩ | ⟨-, hrespond⟩ := p.tick_cases
    · rw [hrespond]
      exact ⟨nofun, nofun⟩
    · rw [hrespond]
      exact ⟨nofun, nofun⟩

theorem latest_of_respond (h : (p.respond signal).1 = .emit e) :
    signal = .tick ∧ p.latest = some e := by
  cases signal with
  | idle => cases h
  | arrival => cases h
  | finish => cases h
  | tick =>
    obtain ⟨e', hlatest, -, hrespond⟩ | ⟨-, hrespond⟩ := p.tick_cases
    · rw [hrespond] at h
      cases h
      exact ⟨rfl, hlatest⟩
    · rw [hrespond] at h
      cases h

theorem turns_cons (h : signal ≠ .finish) : p.turns (signal :: signals) =
    (signal, (p.respond signal).1) :: (p.respond signal).2.turns signals := by
  cases signal with
  | idle => rfl
  | arrival => rfl
  | tick => rfl
  | finish => exact absurd rfl h

/-- A pacer keeps what its turns leave behind. -/
theorem Reaches.kept (h : Reaches mode before p) : p.mode = mode ∧ p.latest = before.latest ∧
    (p.fresh = true ↔ before.Pending) := by
  induction h with
  | start => exact ⟨rfl, rfl, nofun, fun h => absurd h Turns.not_pending_nil⟩
  | @turn before p signal h hopen ih =>
    obtain ⟨hmode, hlatest, hfresh⟩ := ih
    rw [Turns.latest_concat, Turns.pending_concat]
    cases signal with
    | idle =>
      exact ⟨hmode, hlatest, by simpa [respond, Signal.event?, Response.event?] using hfresh⟩
    | arrival e => exact ⟨hmode, rfl, by simp [respond, arrive, Signal.event?]⟩
    | tick =>
      obtain ⟨e, -, -, hrespond⟩ | ⟨-, hrespond⟩ := p.tick_cases
      · rw [hrespond]
        exact ⟨hmode, hlatest, by simp [Signal.event?, Response.event?]⟩
      · rw [hrespond]
        exact ⟨hmode, hlatest, by simpa [Signal.event?, Response.event?] using hfresh⟩
    | finish => exact absurd rfl hopen

/-- Every turn is the answer of a pacer that has had the turns before it. -/
theorem Reaches.split {past : Turns} (h : Reaches mode past p)
    (hturns : p.turns signals = before ++ (signal, response) :: after) :
    ∃ q, Reaches mode (past ++ before) q ∧ response = (q.respond signal).1 ∧
      (signal = .finish → after = []) := by
  induction signals generalizing p past before with
  | nil =>
    rw [turns] at hturns
    cases before <;> cases hturns
  | cons first signals ih =>
    by_cases hfinish : first = .finish
    · subst hfinish
      rw [turns] at hturns
      cases before with
      | nil =>
        cases hturns
        exact ⟨p, by rwa [List.append_nil], rfl, fun _ => rfl⟩
      | cons turn before =>
        cases before <;> cases hturns
    · rw [turns_cons hfinish] at hturns
      cases before with
      | nil =>
        cases hturns
        exact ⟨p, by rwa [List.append_nil], rfl, fun h => absurd h hfinish⟩
      | cons turn before =>
        obtain ⟨rfl, hrest⟩ := List.cons.inj hturns
        obtain ⟨q, hq, hresponse⟩ := ih (h.turn hfinish) hrest
        exact ⟨q, by simpa using hq, hresponse⟩

/-! ## Whole runs -/

/-- What a pacer has emitted already and would emit again in adaptive mode. -/
def repeatable (n : Nat) (p : Pacer) : List (Nat × Event) :=
  if p.fresh then [] else p.latest.toList.map (n, ·)

theorem repeatable_cases (n : Nat) (p : Pacer) :
    repeatable n p = [] ∨ ∃ e, repeatable n p = [(n, e)] := by
  unfold repeatable
  split
  · exact .inl rfl
  · cases p.latest with
    | none => exact .inl rfl
    | some e => exact .inr ⟨e, rfl⟩

theorem dedup_repeatable (n : Nat) (p : Pacer) :
    repeatable n p ++ [] = (repeatable n p ++ []).dedup := by
  obtain h | ⟨e, h⟩ := repeatable_cases n p
  · rw [h]
    rfl
  · rw [h]
    rfl

/-- In limiter mode the same is emitted as in adaptive mode, but once. -/
theorem emissions_limiter (n : Nat) (latest : Option Event) (fresh fresh' : Bool)
    (signals : List Signal) :
    repeatable n ⟨.limiter, latest, fresh⟩ ++
      (Pacer.turns ⟨.limiter, latest, fresh⟩ signals).emissionsFrom n =
    (repeatable n ⟨.limiter, latest, fresh⟩ ++
      (Pacer.turns ⟨.adaptive, latest, fresh'⟩ signals).emissionsFrom n).dedup := by
  -- An arrival that was emitted stays in front of both lists until the next one, so that what
  -- adaptive mode emits of it again is a repeat.
  induction signals generalizing n latest fresh fresh' with
  | nil => exact dedup_repeatable n _
  | cons signal signals ih =>
    cases signal with
    | idle => exact ih n latest fresh fresh'
    | finish => exact dedup_repeatable n _
    | arrival e =>
      have hrest : (Pacer.turns ⟨.limiter, some e, true⟩ signals).emissionsFrom (n + 1) =
          ((Pacer.turns ⟨.adaptive, some e, true⟩ signals).emissionsFrom (n + 1)).dedup :=
        ih (n + 1) (some e) true true
      change _ ++ (Pacer.turns ⟨.limiter, some e, true⟩ signals).emissionsFrom (n + 1) =
        (_ ++ (Pacer.turns ⟨.adaptive, some e, true⟩ signals).emissionsFrom (n + 1)).dedup
      obtain h | ⟨e', h⟩ := repeatable_cases n ⟨.limiter, latest, fresh⟩
      · rw [h, hrest]
        rfl
      · -- What was emitted before is not emitted again after an arrival.
        have hnew : (n, e') ∉
            (Pacer.turns ⟨.adaptive, some e, true⟩ signals).emissionsFrom (n + 1) :=
          fun hmem => Nat.not_succ_le_self n (Turns.le_of_mem_emissionsFrom hmem)
        rw [h, hrest, List.singleton_append, List.singleton_append,
          List.dedup_cons_of_notMem hnew]
    | tick =>
      cases latest with
      | none => exact ih n none fresh fresh'
      | some e =>
        have hrest : (n, e) :: (Pacer.turns ⟨.limiter, some e, false⟩ signals).emissionsFrom n =
            ((n, e) :: (Pacer.turns ⟨.adaptive, some e, false⟩ signals).emissionsFrom n).dedup :=
          ih n (some e) false false
        cases fresh with
        | true => exact hrest
        | false =>
          change (n, e) :: (Pacer.turns ⟨.limiter, some e, false⟩ signals).emissionsFrom n =
            ((n, e) :: (n, e) ::
              (Pacer.turns ⟨.adaptive, some e, false⟩ signals).emissionsFrom n).dedup
          rw [List.dedup_cons_of_mem List.mem_cons_self]
          exact hrest

theorem getElem?_of_emitted {past : List Event} {m : Nat} (hpast : past.getLast? = p.latest)
    (h : (m, e) ∈ (p.turns signals).emissionsFrom past.length) :
    0 < m ∧ (past ++ (p.turns signals).arrivals)[m - 1]? = some e := by
  induction signals generalizing p past with
  | nil => cases h
  | cons signal signals ih =>
    cases signal with
    | idle => exact ih hpast h
    | finish => cases h
    | arrival e' =>
      have hmore : (m, e) ∈ ((p.arrive e').turns signals).emissionsFrom (past ++ [e']).length := by
        rw [List.length_append]
        exact h
      have hlatest : (past ++ [e']).getLast? = (p.arrive e').latest := List.getLast?_concat
      have hnext := ih hlatest hmore
      rwa [List.append_assoc] at hnext
    | tick =>
      -- A tick emits the latest arrival, whose number is that of all arrivals so far.
      obtain ⟨e', hlatest, -, hrespond⟩ | ⟨-, hrespond⟩ := p.tick_cases
      · rw [turns_cons (by decide), hrespond] at h ⊢
        rcases List.mem_append.1 h with h | h
        · obtain ⟨rfl, rfl⟩ : m = past.length ∧ e = e' := by
            simpa [Signal.event?, Response.event?] using h
          rw [hlatest] at hpast
          have hlt : past.length - 1 < past.length := by
            have := List.length_pos_of_mem (List.mem_of_getLast? hpast)
            omega
          refine ⟨by omega, ?_⟩
          rw [List.getElem?_append_left hlt, ← List.getLast?_eq_getElem?, hpast]
        · exact ih hpast h
      · rw [turns_cons (by decide), hrespond] at h ⊢
        exact ih hpast h

theorem map_fst_turns (p : Pacer) (h : .finish ∉ signals.dropLast) :
    (p.turns signals).map Prod.fst = signals := by
  induction signals generalizing p with
  | nil => rfl
  | cons signal signals ih =>
    cases signals with
    | nil => cases signal <;> rfl
    | cons next signals =>
      have hsignal : signal ≠ .finish := fun hfinish => h (hfinish ▸ List.mem_cons_self)
      have hrest : .finish ∉ (next :: signals).dropLast :=
        fun hfinish => h (List.mem_cons_of_mem signal hfinish)
      rw [turns_cons hsignal, List.map_cons, ih _ hrest]

theorem map_fst_turns_eq (p q : Pacer) (signals : List Signal) :
    (p.turns signals).map Prod.fst = (q.turns signals).map Prod.fst := by
  induction signals generalizing p q with
  | nil => rfl
  | cons signal signals ih =>
    by_cases hfinish : signal = .finish
    · subst hfinish
      rfl
    · rw [turns_cons hfinish, turns_cons hfinish]
      exact congrArg (signal :: ·) (ih _ _)

end Pacer

/-- What turns are like in both modes. -/
structure Conducted (turns : Turns) : Prop where
  /-- The output ends when the input ends, and not before. -/
  ends : ∀ {before signal response after}, turns = before ++ (signal, response) :: after →
    (response = .ended ↔ signal = .finish) ∧ (signal = .finish → after = [])
  /-- Only ticks emit, and what they emit is the latest arrival. -/
  emits : ∀ {before signal response after e}, turns = before ++ (signal, response) :: after →
    response = .emit e → signal = .tick ∧ Turns.latest before = some e
  /-- An emission is of the arrival whose number it carries. -/
  numbered : ∀ {n e}, (n, e) ∈ turns.emissions → 0 < n ∧ turns.arrivals[n - 1]? = some e

/-- How the turns in adaptive mode and those in limiter mode go together. -/
structure Resampled (adaptive limiter : Turns) : Prop where
  conducted : Conducted adaptive ∧ Conducted limiter
  signals : adaptive.map Prod.fst = limiter.map Prod.fst
  /-- In adaptive mode every tick emits that comes after an arrival. -/
  repeats : ∀ {before response after e}, adaptive = before ++ (.tick, response) :: after →
    Turns.latest before = some e → response = .emit e
  /-- In limiter mode the same is emitted without what was emitted already. -/
  dedup : limiter.emissions = adaptive.emissions.dedup
  ascending : limiter.emissions.Pairwise fun x y => x.1 < y.1
  /-- In limiter mode a tick is silent just if there is nothing new. -/
  silent_iff : ∀ {before response after}, limiter = before ++ (.tick, response) :: after →
    (response = .silence ↔ ¬ Turns.Pending before)

theorem Conducted.eq_of_number {e' : Event} (h : Conducted turns) (he : (n, e) ∈ turns.emissions)
    (he' : (n, e') ∈ turns.emissions) : e = e' := by
  have heq := (h.numbered he).2
  rw [(h.numbered he').2] at heq
  exact (Option.some.inj heq).symm

namespace Pacer

theorem conducted (mode : Mode) (signals : List Signal) :
    Conducted ((Pacer.start mode).turns signals) where
  ends hturns := by
    obtain ⟨q, -, rfl, hlast⟩ := Reaches.start.split hturns
    exact ⟨respond_ended_iff, hlast⟩
  emits hturns hemit := by
    obtain ⟨q, hq, rfl, -⟩ := Reaches.start.split hturns
    obtain ⟨hsignal, hemitted⟩ := latest_of_respond hemit
    exact ⟨hsignal, by rw [← hemitted, hq.kept.2.1, List.nil_append]⟩
  numbered h := by
    have hnothing : ([] : List Event).getLast? = (start mode).latest := rfl
    exact getElem?_of_emitted hnothing h

theorem emissions_dedup (signals : List Signal) : ((start .limiter).turns signals).emissions =
    ((start .adaptive).turns signals).emissions.dedup :=
  emissions_limiter 0 none false false signals

theorem resampled (signals : List Signal) :
    Resampled ((start .adaptive).turns signals) ((start .limiter).turns signals) where
  conducted := ⟨conducted .adaptive signals, conducted .limiter signals⟩
  signals := map_fst_turns_eq _ _ signals
  repeats hturns hlatest := by
    obtain ⟨q, hq, rfl, -⟩ := Reaches.start.split hturns
    obtain ⟨hmode, hkept, -⟩ := hq.kept
    rw [List.nil_append, hlatest] at hkept
    obtain ⟨e, he, -, hrespond⟩ | ⟨hnone | ⟨hmode', -⟩, -⟩ := q.tick_cases
    · rw [hkept] at he
      cases he
      rw [hrespond]
    · rw [hkept] at hnone
      cases hnone
    · rw [hmode] at hmode'
      cases hmode'
  dedup := emissions_dedup signals
  ascending := by
    have hnodup : ((start .limiter).turns signals).emissions.Nodup := by
      rw [emissions_dedup]
      exact List.nodup_dedup _
    have hle := Turns.ascending_emissionsFrom 0 ((start .limiter).turns signals)
    refine (hle.and hnodup).imp_of_mem fun {x y} hx hy ⟨hxy, hne⟩ => ?_
    -- Two emissions of the same number would be the same.
    refine lt_of_le_of_ne hxy fun heq => hne ?_
    obtain ⟨n, e⟩ := x
    obtain ⟨m, e'⟩ := y
    cases heq
    rw [(conducted .limiter signals).eq_of_number hx hy]
  silent_iff hturns := by
    obtain ⟨q, hq, rfl, -⟩ := Reaches.start.split hturns
    obtain ⟨hmode, hlatest, hfresh⟩ := hq.kept
    rw [List.nil_append] at hlatest hfresh
    rw [← hfresh]
    obtain ⟨e, he, hdue, hrespond⟩ | ⟨hnone | ⟨-, hstale⟩, hrespond⟩ := q.tick_cases
    · rw [hrespond]
      rw [hmode] at hdue
      exact ⟨nofun, fun hstale => absurd (hdue.resolve_left nofun) hstale⟩
    · rw [hrespond]
      refine ⟨fun _ hpending => (hfresh.1 hpending).latest ?_, fun _ => rfl⟩
      rw [← hlatest, hnone]
    · rw [hrespond, hstale]
      exact ⟨fun _ => nofun, fun _ => rfl⟩

end Pacer

/-! ## Pipelines -/

namespace Pipeline

variable {target : Target} {id : ReaderId}

theorem turns_tick {h : Hub} {hubs : List Hub} {covered : Table EventKey Nat} {ticker : Ticker}
    (hquiet : h.transport.backend.isQuiet id = true) (hdue : ticker.isDue h.now = true)
    (pacer : Pacer) : Pipeline.turns target id ⟨[], covered, some ⟨ticker, pacer⟩⟩ (h :: hubs) =
      (.tick, (pacer.respond .tick).1) :: Pipeline.turns target id
        ⟨[], covered, some ⟨ticker.fire h.now, (pacer.respond .tick).2⟩⟩ hubs := by
  simp only [Pipeline.turns, advance?, Pipeline.signal, hquiet, if_pos, tick?, hdue, Pacer.respond]
  cases pacer.tick with
  | mk emitted pacer =>
    cases emitted with
    | none => rfl
    | some e => rfl

/-- A pipeline with rate control takes the turns that its pacer takes at what reaches it. -/
theorem turns_eq (target : Target) (id : ReaderId) (covered : Table EventKey Nat)
    (hubs : List Hub) (seeds : List Event) (ticker : Ticker) : ∃ signals, ∀ pacer : Pacer,
      Pipeline.turns target id ⟨seeds, covered, some ⟨ticker, pacer⟩⟩ hubs =
        pacer.turns signals := by
  induction hubs generalizing seeds ticker with
  | nil => exact ⟨[], fun _ => rfl⟩
  | cons h hubs ih =>
    cases seeds with
    | cons e seeds =>
      obtain ⟨signals, hsignals⟩ := ih seeds ticker
      exact ⟨.arrival e :: signals, fun pacer => congrArg _ (hsignals (pacer.arrive e))⟩
    | nil =>
      cases hquiet : h.transport.backend.isQuiet id with
      | true =>
        cases hdue : ticker.isDue h.now with
        | true =>
          obtain ⟨signals, hsignals⟩ := ih [] (ticker.fire h.now)
          refine ⟨.tick :: signals, fun pacer => ?_⟩
          rw [turns_tick hquiet hdue, hsignals]
          rfl
        | false =>
          -- The pipeline waits, and its pacer has no turn.
          obtain ⟨signals, hsignals⟩ := ih [] ticker
          refine ⟨signals, fun pacer => ?_⟩
          simp only [Pipeline.turns, advance?, hquiet, if_pos, tick?, hdue]
          exact hsignals pacer
      | false =>
        simp only [Pipeline.turns, advance?, Pipeline.signal, hquiet, Bool.false_eq_true, if_false]
        cases (h.nextLive id).1 with
        | pending =>
          obtain ⟨signals, hsignals⟩ := ih [] ticker
          exact ⟨.idle :: signals, fun pacer => congrArg _ (hsignals pacer)⟩
        | ended => exact ⟨[.finish], fun _ => rfl⟩
        | item w =>
          obtain ⟨signals, hsignals⟩ := ih [] ticker
          have hnews (pacer : Pacer) : isNews ⟨[], covered, some ⟨ticker, pacer⟩⟩ w =
              isNews ⟨[], covered, none⟩ w := rfl
          simp only [liveArrival, hnews]
          cases isNews ⟨[], covered, none⟩ w && target.admits w.event with
          | true =>
            exact ⟨.arrival w.event :: signals, fun pacer =>
              congrArg _ (hsignals (pacer.arrive w.event))⟩
          | false => exact ⟨.idle :: signals, fun pacer => congrArg _ (hsignals pacer)⟩

/-- The hub at which the first reader, at its first channel, finds what is in the channel, if the
channel is among those to ask. -/
def hubOf (readers : Table ReaderId KeyspaceReader) (published : List Stamped) (now : Nat) : Hub :=
  { Hub.start .epoch (.ofBackend (.keyspace
      ⟨1, .empty, ⟨[(0, ⟨0, published⟩)]⟩, .empty, readers, 1, false⟩)) with now }

def readerOf (ready : List ChannelId) : Table ReaderId KeyspaceReader :=
  ⟨[(0, .keys ⟨⟨[(0, 0)]⟩, ready⟩)]⟩

/-- A hub at which a signal reaches a pacer. -/
def hubFor (now : Nat) : Signal → Hub
  | .idle => hubOf (readerOf [0]) [] now
  | .arrival e => hubOf (readerOf [0]) [⟨0, e⟩] now
  | .tick => hubOf (readerOf []) [] now
  | .finish => hubOf .empty [] now

/-- Every signal can reach the pacer of a pipeline. -/
theorem exists_hubs (signals : List Signal) (ticker : Ticker) : ∃ hubs, ∀ pacer : Pacer,
    Pipeline.turns (.keys []) 0 ⟨[], .empty, some ⟨ticker, pacer⟩⟩ hubs =
      pacer.turns signals := by
  induction signals generalizing ticker with
  | nil => exact ⟨[], fun _ => rfl⟩
  | cons signal signals ih =>
    cases signal with
    | finish => exact ⟨[hubFor 0 .finish], fun _ => rfl⟩
    | idle =>
      obtain ⟨hubs, hhubs⟩ := ih ticker
      exact ⟨hubFor 0 .idle :: hubs, fun pacer => congrArg _ (hhubs pacer)⟩
    | arrival e =>
      obtain ⟨hubs, hhubs⟩ := ih ticker
      exact ⟨hubFor 0 (.arrival e) :: hubs, fun pacer => congrArg _ (hhubs (pacer.arrive e))⟩
    | tick =>
      obtain ⟨hubs, hhubs⟩ := ih (ticker.fire ticker.deadline)
      refine ⟨hubFor ticker.deadline .tick :: hubs, fun pacer => ?_⟩
      have hdue : ticker.isDue ticker.deadline = true := decide_eq_true le_rfl
      rw [turns_tick rfl hdue, Pacer.turns_cons (by decide), ← hhubs]
      rfl

/-- The turns of a pipeline that begins at `now` with these seeds. -/
def course (target : Target) (id : ReaderId) (seeds : List Stamped) (rate : RateControl)
    (now : Nat) (hubs : List Hub) (mode : Mode) : Turns :=
  (Pipeline.start seeds (some { rate with mode }) now).turns target id hubs

/-- Rate control at work. Whatever a pipeline finds at its hubs, the same reaches its pacer in both
modes, and what comes out in limiter mode is what comes out in adaptive mode, but once. Whatever can
be fed to a pacer is fed to it at some hubs. -/
theorem resamples :
    (∀ target id seeds rate now hubs,
      Resampled (course target id seeds rate now hubs .adaptive)
        (course target id seeds rate now hubs .limiter)) ∧
    ∀ rate now (signals : List Signal), .finish ∉ signals.dropLast →
      ∃ hubs, ∀ mode, (course (.keys []) 0 [] rate now hubs mode).map Prod.fst = signals := by
  constructor
  · intro target id seeds rate now hubs
    obtain ⟨signals, hsignals⟩ := turns_eq target id
      ⟨seeds.map fun seed => (seed.key, seed.stamp)⟩ hubs (seeds.map Stamped.event)
      ⟨rate.interval, now⟩
    have hresampled := Pacer.resampled signals
    rw [← hsignals, ← hsignals] at hresampled
    exact hresampled
  · intro rate now signals hsignals
    obtain ⟨hubs, hhubs⟩ := exists_hubs signals ⟨rate.interval, now⟩
    refine ⟨hubs, fun mode => ?_⟩
    have hcourse : course (.keys []) 0 [] rate now hubs mode = (Pacer.start mode).turns signals :=
      hhubs (.start mode)
    rw [hcourse, Pacer.map_fst_turns _ hsignals]

/-- Of two arrivals before the first tick only the later one is emitted: at both ticks in adaptive
mode, and at the first one in limiter mode. -/
theorem resamples_burst : ∃ hubs,
    (course (.keys []) 0 [] ⟨1, .adaptive, by decide⟩ 0 hubs .adaptive).emissions =
      [(2, .invalid ⟨⟨default, "b"⟩, ⟨"c"⟩⟩), (2, .invalid ⟨⟨default, "b"⟩, ⟨"c"⟩⟩)] ∧
    (course (.keys []) 0 [] ⟨1, .adaptive, by decide⟩ 0 hubs .limiter).emissions =
      [(2, .invalid ⟨⟨default, "b"⟩, ⟨"c"⟩⟩)] := by
  refine ⟨[hubFor 0 (.arrival (.invalid ⟨⟨default, "a"⟩, ⟨"c"⟩⟩)),
    hubFor 0 (.arrival (.invalid ⟨⟨default, "b"⟩, ⟨"c"⟩⟩)), hubFor 0 .tick, hubFor 1 .tick,
    hubFor 1 .finish], rfl, ?_⟩
  rw [(resamples.1 _ _ _ _ _ _).dedup]
  exact List.dedup_cons_of_mem List.mem_cons_self

end Pipeline

end Observatory
