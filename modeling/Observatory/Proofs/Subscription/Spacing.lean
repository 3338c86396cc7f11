import Observatory.Proofs.Subscription.Resampling

/-!
# Spacing

The lines of a grid cut time into cells. A tick that is late by no more than the tolerance does not
move the next one, which may then be due already: the ticks of all the lines that the tolerance
spans can fall into one cell. A tick that is later than that makes the ticker skip to the end of the
cell. So a cell holds one emission, and one more for every period that fits into the tolerance.
-/

namespace Observatory

variable {start period now k m n : Nat} {target : Target} {id : ReaderId} {h h' : Hub}
  {hubs : List Hub} {p : Pipeline} {step : Pipeline.Step} {ticker : Ticker}

/-! ## Grids -/

/-- A time is not before line `n` of a grid, but before the next line. -/
def InCell (start period n time : Nat) : Prop :=
  start + n * period ≤ time ∧ time < start + (n + 1) * period

instance : DecidablePred (InCell start period n) :=
  fun _ => inferInstanceAs (Decidable (_ ∧ _))

/-- How many of these times are in cell `n`. -/
def crowd (start period n : Nat) (times : List Nat) : Nat :=
  times.countP (InCell start period n ·)

theorem inCell_div (hperiod : 0 < period) (hstart : start ≤ now) :
    InCell start period ((now - start) / period) now := by
  have hlow : (now - start) / period * period ≤ now - start := Nat.div_mul_le_self _ _
  have hhigh : now - start < ((now - start) / period + 1) * period := by
    rw [Nat.add_one_mul]
    exact Nat.lt_div_mul_add hperiod
  unfold InCell
  omega

theorem InCell.le_of_line_le (hcell : InCell start period n now)
    (hline : start + k * period ≤ now) : k ≤ n := by
  have hlines : k * period < (n + 1) * period := by
    have := hcell.2
    omega
  exact Nat.le_of_lt_succ (Nat.lt_of_mul_lt_mul_right hlines)

theorem InCell.unique (hm : InCell start period m now) (hn : InCell start period n now) : m = n :=
  le_antisymm (hn.le_of_line_le hm.1) (hm.le_of_line_le hn.1)

theorem crowd_replicate (h : InCell start period n now) (m : Nat) :
    crowd start period n (List.replicate m now) = m := by
  rw [crowd, List.countP_replicate, if_pos (decide_eq_true h)]

namespace Ticker

/-- The ticker that fires next at line `k` of a grid. -/
def onGrid (start period k : Nat) : Ticker := ⟨period, start + k * period⟩

theorem fire_of_in_time (h : now ≤ start + k * period + tolerance) :
    (onGrid start period k).fire now = onGrid start period (k + 1) := by
  have hnext : start + k * period + period = start + (k + 1) * period := by
    rw [Nat.add_one_mul, Nat.add_assoc]
  simp only [fire, onGrid, if_neg (Nat.not_lt.2 h), hnext]

theorem fire_of_late (hperiod : 0 < period) (h : start + k * period + tolerance < now) :
    (onGrid start period k).fire now = onGrid start period ((now - start) / period + 1) := by
  have hdelay : (now - (start + k * period)) % period = (now - start) % period := by
    have hline : period * k ≤ now - start := by
      rw [Nat.mul_comm]
      omega
    rw [← Nat.sub_sub, Nat.mul_comm, Nat.sub_mul_mod hline]
  have hrest : (now - start) % period + (now - start) / period * period = now - start :=
    Nat.mod_add_div' _ _
  have hnext : now + period - (now - start) % period =
      start + ((now - start) / period + 1) * period := by
    rw [Nat.add_one_mul]
    omega
  simp only [fire, onGrid, if_pos h, hdelay, hnext]

/-- How often a ticker that fires next at line `k` can still fire in cell `n`: no more than there
are lines up to the cell, and no more than the tolerance spans. -/
def room (period n k : Nat) : Nat :=
  min (n + 1 - k) (tolerance / period + 1)

theorem room_le_of_le (h : k ≤ m) : room period n m ≤ room period n k :=
  min_le_min_right _ (Nat.sub_le_sub_left h _)

theorem room_eq_zero (h : n < k) : room period n k = 0 := by
  rw [room, Nat.sub_eq_zero_of_le h, Nat.zero_min]

theorem one_le_room (h : k ≤ n) : 1 ≤ room period n k := by
  rw [room, le_min_iff]
  exact ⟨Nat.sub_pos_of_lt (Nat.lt_succ_of_le h), Nat.le_add_left 1 _⟩

theorem room_succ_lt (h : k ≤ n) (hspan : n - k ≤ tolerance / period) :
    room period n (k + 1) + 1 ≤ room period n k := by
  rw [room, room]
  omega

/-- In the cell in which a ticker fires it loses room. -/
theorem fire_onGrid (hperiod : 0 < period) (hdue : start + k * period ≤ now) (n : Nat) :
    ∃ m, (onGrid start period k).fire now = onGrid start period m ∧
      room period n m + (if InCell start period n now then 1 else 0) ≤ room period n k := by
  -- A ticker that is too late goes on behind the cell of `now`, any other one at the next line.
  by_cases hlate : start + k * period + tolerance < now
  · have hcell := inCell_div hperiod ((Nat.le_add_right _ _).trans hdue)
    have hk := hcell.le_of_line_le hdue
    refine ⟨_, fire_of_late hperiod hlate, ?_⟩
    split
    next hn =>
      -- The rest of the cell is skipped.
      rw [hcell.unique hn] at hk ⊢
      rw [room_eq_zero (Nat.lt_succ_self n), Nat.zero_add]
      exact one_le_room hk
    next => exact room_le_of_le (Nat.le_succ_of_le hk)
  · have hlate := Nat.not_lt.1 hlate
    refine ⟨k + 1, fire_of_in_time hlate, ?_⟩
    split
    next hn =>
      -- The lines from `k` up to the cell are within the tolerance, for `now` is.
      have hspan : (n - k) * period ≤ tolerance := by
        have hlow := hn.1
        rw [Nat.sub_mul]
        omega
      exact room_succ_lt (hn.le_of_line_le hdue) ((Nat.le_div_iff_mul_le hperiod).2 hspan)
    next => exact room_le_of_le (Nat.le_succ k)

end Ticker

/-! ## Emission times -/

theorem Pacer.tick_arrive (pacer : Pacer) (e : Event) :
    (pacer.arrive e).tick = (some e, { pacer.arrive e with fresh := false }) :=
  if_pos (.inr rfl)

namespace Pipeline

def ticker? (p : Pipeline) : Option Ticker :=
  p.pacing.map Pacing.ticker

/-- When something comes out of a pipeline that finds these hubs one after the other. -/
def emissionTimes (target : Target) (id : ReaderId) : Pipeline → List Hub → List Nat
  | _, [] => []
  | p, h :: hubs =>
    match p.advance? target h id with
    | none => p.emissionTimes target id hubs
    | some (step, _) =>
      (step.response.event?.toList.map fun _ => h.now) ++
        match step.next? with
        | some q => q.emissionTimes target id hubs
        | none => []

/-- The step leaves the ticker alone and emits nothing. -/
def Step.Waits (step : Step) (ticker : Ticker) : Prop :=
  step.response.event? = none ∧ ∀ q, step.next? = some q → q.ticker? = some ticker

theorem waits_onward (hticker : p.ticker? = some ticker) : (Step.onward p).Waits ticker :=
  ⟨rfl, fun _ hnext => Option.some.inj hnext ▸ hticker⟩

theorem waits_ended : Step.ended.Waits ticker := by
  refine ⟨rfl, fun q hnext => ?_⟩
  rw [Step.next?] at hnext
  cases hnext

theorem waits_arrival (e : Event) (hticker : p.ticker? = some ticker) :
    (p.arrival e).Waits ticker := by
  obtain ⟨seeds, covered, pacing⟩ := p
  cases pacing with
  | none => cases hticker
  | some pacing => exact waits_onward hticker

/-- Only a tick that is due emits something, and it moves the ticker on. -/
theorem advance_ticker (hstep : p.advance? target h id = some (step, h'))
    (hticker : p.ticker? = some ticker) :
    step.Waits ticker ∨
    ticker.deadline ≤ h.now ∧ ∃ q, step.next? = some q ∧ q.ticker? = some (ticker.fire h.now) := by
  obtain ⟨seeds, covered, pacing⟩ := p
  cases seeds with
  | cons e seeds =>
    cases hstep
    exact .inl (waits_arrival e hticker)
  | nil =>
    -- The ticker is asked only when there are no seeds and no live events.
    cases hquiet : h.transport.backend.isQuiet id with
    | true =>
      cases pacing with
      | none => cases hticker
      | some pacing =>
        cases hticker
        simp only [advance?, hquiet, if_pos, tick?] at hstep
        split at hstep
        next hdue =>
          cases hstep
          refine .inr ⟨of_decide_eq_true hdue, ?_⟩
          cases pacing.pacer.tick.1 with
          | none => exact ⟨_, rfl, rfl⟩
          | some e => exact ⟨_, rfl, rfl⟩
        next => cases hstep
    | false =>
      simp only [advance?, hquiet, Bool.false_eq_true, if_false] at hstep
      left
      cases hlive : (h.nextLive id).1 with
      | pending =>
        rw [hlive] at hstep
        cases hstep
        exact waits_onward hticker
      | ended =>
        rw [hlive] at hstep
        cases hstep
        exact waits_ended
      | item w =>
        rw [hlive] at hstep
        cases hstep
        unfold liveArrival
        split
        · exact waits_arrival w.event hticker
        · exact waits_onward hticker

theorem emissionTimes_of_wait (hstep : p.advance? target h id = none) :
    p.emissionTimes target id (h :: hubs) = p.emissionTimes target id hubs := by
  rw [emissionTimes, hstep]

theorem emissionTimes_of_step (hstep : p.advance? target h id = some (step, h')) :
    p.emissionTimes target id (h :: hubs) =
      (step.response.event?.toList.map fun _ => h.now) ++
        (step.next?.elim [] fun q => q.emissionTimes target id hubs) := by
  simp only [emissionTimes, hstep]
  cases step.next? with
  | none => rfl
  | some q => rfl

theorem crowd_step (response : Response) (times : List Nat) :
    crowd start period n ((response.event?.toList.map fun _ => now) ++ times) ≤
      crowd start period n times + if InCell start period n now then 1 else 0 := by
  rw [crowd, List.countP_append, Nat.add_comm]
  cases response.event? with
  | none => simp [crowd]
  | some e => simp [crowd, List.countP_singleton]

theorem crowd_emissionTimes (hperiod : 0 < period) (hubs : List Hub)
    (hticker : p.ticker? = some (.onGrid start period k)) :
    crowd start period n (p.emissionTimes target id hubs) ≤ Ticker.room period n k := by
  induction hubs generalizing p k with
  | nil => exact Nat.zero_le _
  | cons h hubs ih =>
    cases hstep : p.advance? target h id with
    | none =>
      rw [emissionTimes_of_wait hstep]
      exact ih hticker
    | some next =>
      obtain ⟨step, h'⟩ := next
      rw [emissionTimes_of_step hstep]
      -- The ticker stays where it is, or it fires and loses room in the cell of the hub.
      obtain ⟨hsilent, hnext⟩ | ⟨hdue, q, hq, hfired⟩ := advance_ticker hstep hticker
      · rw [hsilent]
        cases hq : step.next? with
        | none => exact Nat.zero_le _
        | some q => exact ih (hnext q hq)
      · obtain ⟨m, hfire, hroom⟩ := Ticker.fire_onGrid hperiod hdue n
        rw [hfire] at hfired
        rw [hq, Option.elim_some]
        calc
          _ ≤ crowd start period n (q.emissionTimes target id hubs) +
              if InCell start period n h.now then 1 else 0 := crowd_step step.response _
          _ ≤ Ticker.room period n m + if InCell start period n h.now then 1 else 0 :=
              Nat.add_le_add_right (ih hfired) _
          _ ≤ Ticker.room period n k := hroom

/-! ## Bursts -/

/-- The hubs of `j` ticks at `now`, each with an arrival before it. -/
def burst (now : Nat) (e : Event) : Nat → List Hub
  | 0 => []
  | j + 1 => hubFor now (.arrival e) :: hubFor now .tick :: burst now e j

/-- The step at a tick that has something new to emit. -/
theorem emissionTimes_fresh {covered : Table EventKey Nat} (pacer : Pacer) (e : Event)
    (hdue : ticker.deadline ≤ now) :
    emissionTimes (.keys []) 0 ⟨[], covered, some ⟨ticker, pacer.arrive e⟩⟩
        (hubFor now .tick :: hubs) =
      now :: emissionTimes (.keys []) 0
        ⟨[], covered, some ⟨ticker.fire now, { pacer.arrive e with fresh := false }⟩⟩ hubs := by
  have hstep : advance? ⟨[], covered, some ⟨ticker, pacer.arrive e⟩⟩ (.keys [])
      (hubFor now .tick) 0 = some (.emit e
        ⟨[], covered, some ⟨ticker.fire now, { pacer.arrive e with fresh := false }⟩⟩,
        hubFor now .tick) := by
    have htick : tick? ⟨[], covered, some ⟨ticker, pacer.arrive e⟩⟩ now = some (.emit e
        ⟨[], covered, some ⟨ticker.fire now, { pacer.arrive e with fresh := false }⟩⟩) := by
      simp only [tick?, Ticker.isDue, hdue, decide_true, if_pos, Pacer.tick_arrive]
    exact congrArg (Option.map fun step => (step, hubFor now .tick)) htick
  exact emissionTimes_of_step hstep

/-- A stall that the tolerance spans: all its ticks are made up for at its end. -/
theorem emissionTimes_burst {j : Nat} (hspan : m * period ≤ Ticker.tolerance) (e : Event)
    (pacer : Pacer) (hj : k + j ≤ m + 1) :
    emissionTimes (.keys []) 0 ⟨[], .empty, some ⟨.onGrid start period k, pacer⟩⟩
      (burst (start + m * period) e j) = List.replicate j (start + m * period) := by
  induction j generalizing k pacer with
  | zero => rfl
  | succ j ih =>
    have hk : k * period ≤ m * period := Nat.mul_le_mul_right _ (by omega)
    have hdue : start + k * period ≤ start + m * period := Nat.add_le_add_left hk _
    have hfire : (Ticker.onGrid start period k).fire (start + m * period) =
        .onGrid start period (k + 1) := Ticker.fire_of_in_time (by omega)
    calc
      _ = emissionTimes (.keys []) 0
            ⟨[], .empty, some ⟨.onGrid start period k, pacer.arrive e⟩⟩
            (hubFor (start + m * period) .tick :: burst (start + m * period) e j) := rfl
      _ = (start + m * period) :: List.replicate j (start + m * period) := by
        rw [emissionTimes_fresh pacer e hdue, hfire, ih _ (by omega)]

theorem isChain_burst (h : start ≤ now) (e : Event) (j : Nat) :
    (start :: (burst now e j).map Hub.now).IsChain (· ≤ ·) := by
  induction j generalizing start with
  | zero => exact .singleton _
  | succ j ih => exact .cons_cons h (.cons_cons le_rfl (ih le_rfl))

theorem start_onGrid (seeds : List Stamped) (rate : RateControl) (start : Nat) :
    Pipeline.start seeds (some rate) start =
      { Pipeline.start seeds none start with
        pacing := some ⟨.onGrid start rate.interval 0, .start rate.mode⟩ } := by
  rw [Ticker.onGrid, Nat.zero_mul]
  rfl

/-- What can come out in one cell, however long the pipeline stalls: one event, and one more for
every period that the tolerance spans. -/
theorem crowd_le_iff (rate : RateControl) (limit : Nat) :
    (∀ target id seeds start hubs, (start :: hubs.map Hub.now).IsChain (· ≤ ·) → ∀ n,
      crowd start rate.interval n
        ((Pipeline.start seeds (some rate) start).emissionTimes target id hubs) ≤ limit) ↔
      Ticker.tolerance / rate.interval < limit := by
  constructor
  · intro hall
    -- The tick at the beginning is as late as the tolerance allows, and the others with it.
    let m := Ticker.tolerance / rate.interval
    let now := 0 + m * rate.interval
    let e : Event := .invalid ⟨⟨default, "a"⟩, ⟨"b"⟩⟩
    have htimes : (Pipeline.start [] (some rate) 0).emissionTimes (.keys []) 0
        (burst now e (m + 1)) = List.replicate (m + 1) now := by
      rw [start_onGrid]
      exact emissionTimes_burst (Nat.div_mul_le_self _ _) e _ (Nat.zero_add _).le
    have hcell : InCell 0 rate.interval m now :=
      ⟨le_rfl, Nat.add_lt_add_left (Nat.mul_lt_mul_of_pos_right m.lt_succ_self rate.interval_pos) 0⟩
    calc
      m + 1 = crowd 0 rate.interval m (List.replicate (m + 1) now) :=
        (crowd_replicate hcell (m + 1)).symm
      _ ≤ limit := htimes ▸ hall (.keys []) 0 [] 0 _ (isChain_burst (Nat.zero_le _) e (m + 1)) m
  · intro hlimit target id seeds start hubs _ n
    have hticker : (Pipeline.start seeds (some rate) start).ticker? =
        some (.onGrid start rate.interval 0) := by
      rw [start_onGrid]
      rfl
    calc
      _ ≤ Ticker.room rate.interval n 0 := crowd_emissionTimes rate.interval_pos hubs hticker
      _ ≤ Ticker.tolerance / rate.interval + 1 := min_le_right _ _
      _ ≤ limit := hlimit

/-- Missed ticks are skipped, not bunched up, if and only if the tolerance does not span a
period. -/
theorem spaced_iff (rate : RateControl) :
    (∀ target id seeds start hubs, (start :: hubs.map Hub.now).IsChain (· ≤ ·) → ∀ n,
      crowd start rate.interval n
        ((Pipeline.start seeds (some rate) start).emissionTimes target id hubs) ≤ 1) ↔
      Ticker.tolerance < rate.interval :=
  (crowd_le_iff rate 1).trans (Nat.div_lt_one_iff rate.interval_pos)

/-- The rate with this interval in milliseconds, in adaptive mode. -/
def everyMillis (millis : Nat) (h : 0 < millis * nanosPerMilli) : RateControl :=
  ⟨millis * nanosPerMilli, .adaptive, h⟩

/-- A stall, from the first tick on. -/
def stalled (now ticks : Nat) : List Hub :=
  hubFor 0 (.arrival (.invalid ⟨⟨default, "a"⟩, ⟨"b"⟩⟩)) :: hubFor 0 .tick ::
    List.replicate ticks (hubFor now .tick)

/-- With a rate of six milliseconds the ticks that a stall of twenty-three misses are skipped. -/
theorem spaced_iff_stalled :
    (Pipeline.start [] (some (everyMillis 6 (by decide))) 0).emissionTimes (.keys []) 0
        (stalled (23 * nanosPerMilli) 4) = [0, 23 * nanosPerMilli] ∧
      ∀ n, crowd 0 (6 * nanosPerMilli) n
        ((Pipeline.start [] (some (everyMillis 6 (by decide))) 0).emissionTimes (.keys []) 0
          (stalled (23 * nanosPerMilli) 4)) ≤ 1 :=
  ⟨by decide, (spaced_iff (everyMillis 6 (by decide))).2 (by decide) _ _ _ _ _ (by decide)⟩

/-- After four milliseconds of a rate of one, four ticks emit at once. -/
theorem not_spaced : ¬ ∀ (rate : RateControl) target id seeds start hubs,
    (start :: hubs.map Hub.now).IsChain (· ≤ ·) → ∀ n,
      crowd start rate.interval n
        ((Pipeline.start seeds (some rate) start).emissionTimes target id hubs) ≤ 1 := by
  intro hall
  have hcrowd := hall (everyMillis 1 (by decide)) (.keys []) 0 [] 0 (stalled (4 * nanosPerMilli) 4)
    (by decide) 4
  exact absurd hcrowd (by decide)

end Pipeline

end Observatory
