import Observatory.Proofs.Publisher.Relays
import Observatory.Proofs.Subscription.Spacing
import Observatory.Proofs.Time.Shift

/-!
# Publishing on a schedule

A periodic task calls its generator on the lines of a grid that begins when the task runs first, or
at the time that its schedule asks for if that is later. Each call has a line of its own, no later
than itself, so there are no more calls at any time than there were lines. A task hears of a
shutdown of its publisher unless the publisher was closed before the task was started.

A task finds out how long it has to wait from the difference of two times, and that difference loses
a leap second of a later day at an earlier time of day. A grid that is to begin in such a second
begins one second too early.
-/

namespace Observatory

open Deed Moment Publisher

/-! ## Lines of a grid -/

section

variable {start period limit least : Nat} {lines times : List Nat}

/-- Each of the times has a line of the grid for its own, no later than itself, and the lines
ascend. -/
def Gridded (start period : Nat) (times : List Nat) : Prop :=
  ∃ lines : List Nat, lines.Pairwise (· < ·) ∧
    List.Forall₂ (fun line time => start + line * period ≤ time) lines times

/-- Only a line that is not too late has a time that is not too late. -/
theorem countP_le_of_lines (hperiod : 0 < period) (hlines : lines.Pairwise (· < ·))
    (htimes : List.Forall₂ (fun line time => start + line * period ≤ time) lines times)
    (hleast : ∀ line ∈ lines, least ≤ line) :
    times.countP (· ≤ limit) ≤ (limit - start) / period + 1 - least := by
  induction htimes generalizing least with
  | nil => exact Nat.zero_le _
  | @cons line time lines times hline _ ih =>
    obtain ⟨hfirst, hlines⟩ := List.pairwise_cons.1 hlines
    -- The other lines are later than this one, so the bound on them is one less.
    have hrest := ih hlines fun other hother => Nat.succ_le_of_lt (hfirst other hother)
    have hline' := hleast line List.mem_cons_self
    rw [List.countP_cons]
    split
    next hearly =>
      have htime : time ≤ limit := of_decide_eq_true hearly
      have hbound : line ≤ (limit - start) / period := by
        rw [Nat.le_div_iff_mul_le hperiod]
        omega
      omega
    next => omega

/-- There are no more times up to a limit than there are lines. -/
theorem Gridded.countP_le (hperiod : 0 < period) (h : Gridded start period times) (limit : Nat) :
    times.countP (· ≤ limit) ≤ (limit - start) / period + 1 := by
  obtain ⟨lines, hlines, htimes⟩ := h
  exact countP_le_of_lines hperiod hlines htimes fun line _ => Nat.zero_le line

theorem Gridded.le (h : Gridded start period times) {time : Nat} (htime : time ∈ times) :
    start ≤ time := by
  obtain ⟨lines, -, htimes⟩ := h
  induction htimes with
  | nil => cases htime
  | cons hline _ ih =>
    obtain rfl | htime := List.mem_cons.1 htime
    · exact (Nat.le_add_right _ _).trans hline
    · exact ih htime

end

/-! ## The beginning of the grid -/

/-- The nanoseconds since the beginning of 1970, where a leap second is counted as the second after
it. -/
def UtcTime.sinceEpoch (t : UtcTime) : Int :=
  (t.day * secondsPerDay + t.second) * nanosPerSecond + t.nano

namespace Schedule

variable {schedule : Schedule} {now : Nat} {time : UtcTime}

/-- When a task is to begin that runs first at `now`, as the clock shows `time`: at once, or at the
time that the schedule asks for if that is later. -/
def due (schedule : Schedule) (now : Nat) (time : UtcTime) : Int :=
  schedule.start.elim now fun wanted =>
    if wanted.le time then now else now + (wanted.sinceEpoch - time.sinceEpoch)

/-- The schedule asks for a leap second of a later day, at an earlier time of day than `time`. -/
def LosesLeap (schedule : Schedule) (time : UtcTime) : Prop :=
  ∃ wanted, schedule.start = some wanted ∧ nanosPerSecond ≤ wanted.nano ∧
    time.day < wanted.day ∧ wanted.second < time.second

/-- When a task begins, on a clock that shows no leap seconds. -/
structure Begins (schedule : Schedule) (now : Nat) (time : UtcTime) (start : Nat) : Prop where
  /-- Not before it is due. -/
  kept : ¬schedule.LosesLeap time → schedule.due now time ≤ start
  /-- And just then, if it is not to begin in a leap second. -/
  plain : (∀ wanted, schedule.start = some wanted → wanted.nano < nanosPerSecond) →
    start = schedule.due now time
  /-- One second too early, if that second is lost. -/
  lost : schedule.LosesLeap time → start + nanosPerSecond = schedule.due now time

theorem delay_eq (schedule : Schedule) (time : UtcTime) :
    schedule.delay time = schedule.start.elim 0 fun wanted => (wanted.since time).toNat := by
  unfold delay
  cases schedule.start with
  | none => rfl
  | some wanted =>
    simp only [Option.bind_some, Option.elim_some, UtcTime.remaining?]
    split
    next => rfl
    next hpast => exact (Int.toNat_of_nonpos (Int.not_lt.1 hpast)).symm

section

variable {wanted : UtcTime}

theorem since_of_not_le (hclock : time.nano < nanosPerSecond) (hlater : ¬wanted.le time = true)
    (hkept : wanted.nano < nanosPerSecond ∨ time.second ≤ wanted.second) :
    0 ≤ wanted.since time ∧ wanted.since time = wanted.sinceEpoch - time.sinceEpoch := by
  have := wanted.second_lt; have := wanted.nano_lt; have := time.second_lt
  rw [UtcTime.le_iff_rank] at hlater
  simp only [UtcTime.since, UtcTime.sinceEpoch, UtcTime.rank, secondsPerDay, nanosPerSecond] at *
  split_ifs <;> omega

theorem since_of_le (hclock : time.nano < nanosPerSecond) (hpast : wanted.le time = true)
    (hplain : wanted.nano < nanosPerSecond) : wanted.since time ≤ 0 := by
  have := wanted.second_lt; have := time.second_lt
  rw [UtcTime.le_iff_rank] at hpast
  simp only [UtcTime.since, UtcTime.rank, secondsPerDay, nanosPerSecond] at *
  split_ifs <;> omega

/-- The difference counts the leap second as if it were over. -/
theorem since_of_leap (hclock : time.nano < nanosPerSecond) (hleap : nanosPerSecond ≤ wanted.nano)
    (hday : time.day < wanted.day) (hsecond : wanted.second < time.second) :
    0 ≤ wanted.since time ∧ ¬wanted.le time = true ∧
      wanted.since time + nanosPerSecond = wanted.sinceEpoch - time.sinceEpoch := by
  have := wanted.nano_lt; have := time.second_lt
  rw [UtcTime.le_iff_rank]
  simp only [UtcTime.since, UtcTime.sinceEpoch, UtcTime.rank, secondsPerDay, nanosPerSecond] at *
  split_ifs <;> omega

end

/-- A leap second at an earlier time of day is over if it is not lost. -/
theorem le_of_not_losesLeap {wanted : UtcTime} (hclock : time.nano < nanosPerSecond)
    (hwanted : schedule.start = some wanted) (hkept : ¬schedule.LosesLeap time)
    (hleap : nanosPerSecond ≤ wanted.nano) (hsecond : wanted.second < time.second) :
    wanted.le time = true := by
  have := wanted.nano_lt; have := time.second_lt
  have hday : wanted.day ≤ time.day :=
    Int.not_lt.1 fun hday => hkept ⟨wanted, hwanted, hleap, hday, hsecond⟩
  rw [UtcTime.le_iff_rank]
  simp only [UtcTime.rank, secondsPerDay, nanosPerSecond] at *
  omega

/-- The wait of a task that runs first at `now` ends when it should, but for a second lost. -/
theorem begins_delay (schedule : Schedule) (now : Nat) (hclock : time.nano < nanosPerSecond) :
    schedule.Begins now time (now + schedule.delay time) := by
  rw [delay_eq]
  cases hstart : schedule.start with
  | none =>
    have hdue : schedule.due now time = now := by rw [due, hstart, Option.elim_none]
    refine ⟨fun _ => hdue.le, fun _ => hdue.symm, ?_⟩
    rintro ⟨wanted, hwanted, -⟩
    cases hstart.symm.trans hwanted
  | some wanted =>
    have hdue : schedule.due now time =
        if wanted.le time then (now : Int) else now + (wanted.sinceEpoch - time.sinceEpoch) := by
      rw [due, hstart, Option.elim_some]
    simp only [Option.elim_some]
    refine ⟨fun hkept => ?kept, fun hplain => ?plain, fun hlost => ?lost⟩
    case kept =>
      rw [hdue]
      split
      next => exact Int.ofNat_le.2 (Nat.le_add_right _ _)
      next hlater =>
        have hside : wanted.nano < nanosPerSecond ∨ time.second ≤ wanted.second := by
          by_contra hleap
          rw [not_or, Nat.not_lt, Nat.not_le] at hleap
          exact hlater (le_of_not_losesLeap hclock hstart hkept hleap.1 hleap.2)
        have hsince := since_of_not_le hclock hlater hside
        omega
    case plain =>
      have hnano := hplain wanted hstart
      rw [hdue]
      split
      next hpast =>
        have hsince := since_of_le hclock hpast hnano
        omega
      next hlater =>
        have hsince := since_of_not_le hclock hlater (.inl hnano)
        omega
    case lost =>
      obtain ⟨_, hwanted, hleap, hday, hsecond⟩ := hlost
      cases hstart.symm.trans hwanted
      obtain ⟨hpositive, hlater, hsince⟩ := since_of_leap hclock hleap hday hsecond
      rw [hdue, if_neg hlater]
      omega

/-- The leap second after 2020-01-02T12:00:59, asked for at 2020-01-01T13:00:00, is waited for as if
it were the second before it. -/
example :
    let wanted := (UtcTime.ofParts? 18263 43259 nanosPerSecond).get (by decide)
    let time := (UtcTime.ofParts? 18262 46800 0).get (by decide)
    ((every nanosPerMilli).startingAt wanted).delay time = 82859 * nanosPerSecond := by
  decide

theorem interval_pos {schedule : Schedule} (h : schedule.check = .ok ()) :
    0 < schedule.interval := by
  unfold check at h
  split at h
  next => cases h
  next hinterval => exact Nat.pos_of_ne_zero hinterval

end Schedule

/-! ## The ticker of a task -/

theorem Ticker.exists_fire_onGrid {start period line now : Nat} (hperiod : 0 < period)
    (hdue : start + line * period ≤ now) :
    ∃ next, line < next ∧ (onGrid start period line).fire now = onGrid start period next := by
  obtain ⟨next, hfire, -⟩ := fire_onGrid hperiod hdue 0
  have hlater := deadline_lt_deadline_fire (onGrid start period line) now hperiod
  rw [hfire] at hlater
  have hlines : line * period < next * period := Nat.lt_of_add_lt_add_left hlater
  exact ⟨next, Nat.lt_of_mul_lt_mul_right hlines, hfire⟩

theorem TaskSource.Asked.of_periodic {schedule : Schedule} {ticker : Ticker}
    {generate : Nat → GeneratorCall} {now : Nat} {after : TaskSource}
    (h : (periodic schedule (some ticker) generate).Asked now after) :
    ticker.deadline ≤ now ∧ after = .periodic schedule (some (ticker.fire now)) generate := by
  cases h with | tick hdue =>
  exact ⟨hdue, rfl⟩

theorem TaskSource.Asked.not_waiting {schedule : Schedule} {generate : Nat → GeneratorCall}
    {now : Nat} {after : TaskSource} :
    ¬(periodic schedule none generate).Asked now after := by
  intro h
  cases h

/-- The ticker of a task stands at the first line that has no call yet. -/
inductive Clocked (schedule : Schedule) (t : List Deed) (source : TaskSource) : Prop where
  | waiting (generate : Nat → GeneratorCall) (hsource : source = .periodic schedule none generate)
      (hbegun : beginnings t = []) (hcalls : callTimes t = [])
  | ticking (generate : Nat → GeneratorCall) (now : Nat) (time : UtcTime) (line : Nat)
      (lines : List Nat)
      (hsource : source = .periodic schedule
        (some (.onGrid (now + schedule.delay time) schedule.interval line)) generate)
      (hbegun : beginnings t = [(now, time)]) (hlines : (lines ++ [line]).Pairwise (· < ·))
      (hcalls : List.Forall₂ (fun line call =>
        now + schedule.delay time + line * schedule.interval ≤ call) lines (callTimes t))

namespace Clocked

variable {schedule : Schedule} {t deeds : List Deed} {source after : TaskSource}
  {task task' : PublishTask} {h : Hub} {p p' : Publisher}

theorem same (hc : Clocked schedule t source) (hbegun : beginnings deeds = [])
    (hcalls : callTimes deeds = []) : Clocked schedule (t ++ deeds) source := by
  have hbegun' : beginnings (t ++ deeds) = beginnings t := by
    rw [beginnings_append, hbegun, List.append_nil]
  have hcalls' : callTimes (t ++ deeds) = callTimes t := by
    rw [callTimes_append, hcalls, List.append_nil]
  cases hc with
  | waiting generate hsource hnone hempty =>
    exact .waiting generate hsource (hbegun'.trans hnone) (hcalls'.trans hempty)
  | ticking generate now time line lines hsource hone hlines htimes =>
    exact .ticking generate now time line lines hsource (hbegun'.trans hone) hlines
      (hcalls' ▸ htimes)

theorem begin {generate : Nat → GeneratorCall} {now : Nat} {time : UtcTime}
    (hc : Clocked schedule t (.periodic schedule none generate)) :
    Clocked schedule (t ++ [.began now time]) (.periodic schedule
      (some ⟨schedule.interval, now + schedule.delay time⟩) generate) := by
  cases hc with
  | ticking generate now time line lines hsource => cases hsource
  | waiting generate hsource hnone hempty =>
    cases hsource
    apply Clocked.ticking generate now time 0 []
    · rw [Ticker.onGrid, Nat.zero_mul]
      rfl
    · rw [beginnings_append, hnone]
      rfl
    · exact List.pairwise_singleton _ _
    · rw [callTimes_append, hempty]
      exact .nil

/-- A call takes the line at which the ticker stands, and the ticker goes on to a later one. -/
theorem call (hperiod : 0 < schedule.interval) (hc : Clocked schedule t source) {now : Nat}
    (hasked : source.Asked now after) (hbegun : beginnings deeds = [])
    (hcalls : callTimes deeds = [now]) : Clocked schedule (t ++ deeds) after := by
  cases hc with
  | waiting generate hsource hnone hempty =>
    subst hsource
    exact absurd hasked TaskSource.Asked.not_waiting
  | ticking generate first time line lines hsource hone hlines htimes =>
    subst hsource
    obtain ⟨hdue, rfl⟩ := hasked.of_periodic
    -- A late tick may pass over lines, but the ticker never stays or goes back.
    obtain ⟨next, hlater, hfire⟩ := Ticker.exists_fire_onGrid hperiod hdue
    apply Clocked.ticking generate first time next (lines ++ [line])
    · rw [hfire]
    · rw [beginnings_append, hbegun, List.append_nil, hone]
    · refine List.pairwise_append.2 ⟨hlines, List.pairwise_singleton _ _, ?_⟩
      intro earlier hearlier later hlater'
      cases List.mem_singleton.1 hlater'
      obtain hearlier | hlast := List.mem_append.1 hearlier
      · exact ((List.pairwise_append.1 hlines).2.2 earlier hearlier line
          List.mem_cons_self).trans hlater
      · cases List.mem_singleton.1 hlast
        exact hlater
    · rw [callTimes_append, hcalls]
      exact List.rel_append htimes (.cons hdue .nil)

theorem step (hperiod : 0 < schedule.interval) (hc : Clocked schedule t task.source)
    (hmove : task.Move h p p' deeds task') : Clocked schedule (t ++ deeds) task'.source := by
  cases hmove with
  | own hstride =>
    cases hstride with
    | begin schedule' generate hphase hrunning hsource =>
      rw [hsource] at hc
      have hschedule : schedule' = schedule := by
        cases hc with
        | waiting generate hsource =>
          cases hsource
          rfl
        | ticking generate now time line lines hsource => cases hsource
      subst hschedule
      exact hc.begin
    | crash after hphase hrunning hasked hcall => exact hc.call hperiod hasked rfl rfl
    | call after delay product hphase hrunning hasked hcall => exact hc.call hperiod hasked rfl rfl
    | use due product => cases product <;> exact hc.same rfl rfl
    | finish | abandon | learn => exact hc.same rfl rfl
  | rest | cancel | shut | shutAgain | collect => exact hc.same rfl rfl

end Clocked

/-- The calls of a task, which are all made on the grid that begins when the task ran first, or when
its schedule wants to if that is later. The task reads a clock that shows no leap seconds. -/
inductive OnSchedule (schedule : Schedule) (t : List Deed) : Prop where
  | waiting (hbegun : beginnings t = []) (hcalls : callTimes t = [])
  | running (now : Nat) (time : UtcTime) (start : Nat) (hbegun : beginnings t = [(now, time)])
      (hstart : start = now + schedule.delay time)
      (hbegins : time.nano < nanosPerSecond → schedule.Begins now time start)
      (hgrid : Gridded start schedule.interval (callTimes t))
      (hfirst : ∀ call ∈ callTimes t, start ≤ call)
      (hsparse : ∀ limit, (callTimes t).countP (· ≤ limit) ≤
        (limit - start) / schedule.interval + 1)

theorem Clocked.onSchedule {t : List Deed} {source : TaskSource}
    (hperiod : 0 < schedule.interval) (hc : Clocked schedule t source) : OnSchedule schedule t := by
  cases hc with
  | waiting generate hsource hbegun hcalls => exact .waiting hbegun hcalls
  | ticking generate now time line lines hsource hbegun hlines hcalls =>
    have hgrid : Gridded (now + schedule.delay time) schedule.interval (callTimes t) :=
      ⟨lines, (List.pairwise_append.1 hlines).1, hcalls⟩
    exact .running now time (now + schedule.delay time) hbegun rfl (schedule.begins_delay now)
      hgrid (fun call hcall => hgrid.le hcall) fun limit => hgrid.countP_le hperiod limit

/-- A task that does not give anything up is through with its calls when it rests. -/
theorem Place.settled {source : TaskSource} {turns : Nat} {made : List Product}
    {handed replied : List Ticket} {cancelled : Bool} {phase : TaskPhase}
    (hplace : Place source turns made handed replied cancelled phase)
    (hkeeps : source.isStream = false) (hrests : phase = .idle ∨ phase = .finished) :
    made.length = turns ∧ replied = handed := by
  cases hplace with
  | idle hmade hreplied | ended _ hmade hreplied => exact ⟨hmade.length, hreplied⟩
  | making | publishing => simp at hrests
  | abandoned hstream => cases hstream.symm.trans hkeeps

namespace Service

variable {settings : Settings} {origin : UtcTime} {transport : Transport} {schedule : Schedule}
  {generate : Nat → GeneratorCall} {reports : Bool} {opened : Prop} {name : TaskId}
  {id : PublisherId} {s s' next : Service} {before t : List (Service × Action)}
  {task : PublishTask}

/-- What a task does that publishes on a schedule. In `t` is what happened since it was started, and
the service is `s` now. -/
structure Periodic (schedule : Schedule) (generate : Nat → GeneratorCall) (reports : Bool)
    (opened : Prop) (name : TaskId) (id : PublisherId) (t : List (Service × Action)) (s : Service) :
    Prop extends Relays reports name id t s where
  onSchedule : OnSchedule schedule (readOff (deeds name) t)
  /-- Calls do not overlap, and a task that was told to stop calls no more. -/
  apart : ∀ before d, before ++ [d] <+: readOff (deeds name) t → d.IsCall →
    Settled before ∧ ¬Told opened before
  /-- What is published are the events that were made in the calls that are through. -/
  made : ∃ through, (through = (callTimes (readOff (deeds name) t)).length ∨
      through + 1 = (callTimes (readOff (deeds name) t)).length) ∧
    (handovers (readOff (deeds name) t)).map Prod.snd =
      (List.range through).filterMap fun turn => (generate turn).product.event?
  /-- What is under way comes to its end. -/
  settles : ∀ c : Course s, c.Fair (.task name) → c.Fair (.publisher id) →
    ∃ n, Settled (readOff (deeds name) (t ++ c.seen record n))
  /-- A task that is not told to stop calls again and again, whatever the calls make. -/
  goesOn : ∀ c : Course s, c.Fair (.task name) → c.Fair (.publisher id) →
    (∀ n, ¬Told opened (readOff (deeds name) (t ++ c.seen record n))) →
    ∀ count, ∃ n, count ≤ (callTimes (readOff (deeds name) (t ++ c.seen record n))).length

/-- A task calls no more when its publisher was shut down. -/
def HeedsShutdown (t : List Deed) : Prop :=
  ∀ before d, before ++ [d] <+: t → d.IsCall → .shut ∉ before

theorem Course.Fair.settles {c : Course s}
    (he : Engaged (.periodic schedule none generate) reports opened name id t s task)
    (fair : c.Fair (.task name)) (hdriver : c.Fair (.publisher id)) :
    ∃ n, Settled (readOff (deeds name) (t ++ c.seen record n)) := by
  obtain ⟨n, task', he', hrests⟩ := fair.rests he hdriver
  obtain ⟨hmade, hreplied⟩ := he'.diligent.place.settled rfl hrests
  exact ⟨n, hmade.trans he'.diligent.turns, hreplied⟩

theorem Course.Fair.callsAgain {c : Course s}
    (he : Engaged (.periodic schedule none generate) reports opened name id t s task)
    (fair : c.Fair (.task name)) (hdriver : c.Fair (.publisher id))
    (hfree : ∀ n, ¬Told opened (readOff (deeds name) (t ++ c.seen record n))) (count : Nat) :
    ∃ n, count ≤ (callTimes (readOff (deeds name) (t ++ c.seen record n))).length := by
  have hruns : c.Runs name id 0 := by
    intro n _ task' hentry hphase
    obtain ⟨task'', he'⟩ := c.engaged he n
    cases he'.entry.symm.trans hentry
    have hrunning : task'.cancelled = false := by
      rw [← Bool.not_eq_true, he'.diligent.told]
      exact hfree n
    -- A generator never says that it has nothing more to give.
    cases (Place.of_finished (hphase ▸ he'.diligent.place) hrunning).1
  -- A call takes three steps at most, and one more step began the task.
  obtain ⟨n, hn⟩ := fair.le_labour he hdriver hruns (1 + 3 * count)
  obtain ⟨task', he'⟩ := c.engaged he n
  have hlabour := he'.diligent.labour_le
  have hturns := he'.diligent.turns
  unfold deedsUpTo at hn
  exact ⟨n, by omega⟩

theorem Engaged.toPeriodic
    (he : Engaged (.periodic schedule none generate) reports opened name id t s task)
    (honSchedule : OnSchedule schedule (readOff (deeds name) t)) :
    Periodic schedule generate reports opened name id t s where
  toRelays := he.relays
  onSchedule := honSchedule
  apart before d hbefore hcall := by
    have htimely := he.diligent.timely before d hbefore
    cases d with
    | called now => exact htimely
    | crashed now => exact htimely
    | _ => cases hcall
  made := by
    obtain ⟨hmade, hlength⟩ := he.diligent.place.exists_made
    rw [he.diligent.turns] at hlength
    refine ⟨_, hlength, ?_⟩
    rw [handovers_eq, hmade.events]
    rfl
  settles c fair hdriver := fair.settles he hdriver
  goesOn c fair hdriver hfree count := fair.callsAgain he hdriver hfree count

/-! ## Shutdowns -/

/-- Where the publisher is closed already, a shutdown leaves the ticker running. -/
theorem exists_late_call {ticker : Ticker} (hentry : s.tasks.get? name = some ⟨id, task⟩)
    (hclosed : (s.publisher id).closed = true) (hphase : task.phase = .idle)
    (hrunning : task.cancelled = false)
    (hsource : task.source = .periodic schedule (some ticker) generate) :
    ∃ t s' d, Trail record s t s' ∧ readOff (deeds name) t = [.shut, d] ∧ d.IsCall := by
  -- What is closed is not closed again, so that nobody is told.
  have hclose : s.perform? (.closePublisher id) = some s := by
    simp [perform?, closePublisher, hclosed]
  let later : Service := { s with hub := { s.hub with now := s.hub.now + ticker.deadline } }
  have hwait : s.perform? (.wait ticker.deadline) = some later := rfl
  have hdue : task.advance? later.hub (later.publisher id) ≠ none := by
    apply PublishTask.advance?_ne_none
    · simp [hphase]
    · intro time hdeadline
      have htime : ticker.deadline = time := by
        simpa [PublishTask.deadline?, hphase, hsource] using hdeadline
      rw [← htime]
      exact Nat.le_add_left _ _
    · intro ticket hticket
      cases hphase.symm.trans hticket
  obtain ⟨s', hstep⟩ := Option.ne_none_iff_exists'.1 (advance?_task (s := later) hentry hdue)
  have opened : Trail record s [] s := .start
  have trail := ((opened.step hclose).step hwait).step (a := .step (.task name)) hstep
  have hseen : readOff (deeds name) ([] ++ record s (.closePublisher id) ++
      record s (.wait ticker.deadline) ++ record later (.step (.task name))) =
      .shut :: task.deeds later.hub (later.publisher id) := by
    have hentry' : later.tasks.get? name = some ⟨id, task⟩ := hentry
    simp [readOff, record, deeds, hentry, hentry']
  cases hcall : generate task.turns with
  | crash =>
    refine ⟨_, s', .crashed later.hub.now, trail, ?_, trivial⟩
    rw [hseen]
    simp [PublishTask.deeds, hphase, hrunning, hsource, hcall]
  | makes delay product =>
    refine ⟨_, s', .called later.hub.now, trail, ?_, trivial⟩
    rw [hseen]
    simp [PublishTask.deeds, hphase, hrunning, hsource, hcall]

theorem not_heedsShutdown {d : Deed} {early : List Deed} (hcall : d.IsCall) :
    ¬HeedsShutdown (early ++ [.shut, d]) := by
  intro hheeds
  apply hheeds (early ++ [.shut]) d
  · simp
  · exact hcall
  · simp

/-- The first step of a task makes its ticker, whatever has become of its publisher. -/
theorem exists_unheeded
    (hentry : s.tasks.get? name = some ⟨id, .periodic schedule generate reports⟩)
    (hclosed : (s.publisher id).closed = true) :
    ∃ t s', Trail record s t s' ∧ ¬HeedsShutdown (readOff (deeds name) t) := by
  let ticker : Ticker := ⟨schedule.interval, s.hub.now + schedule.delay s.hub.time⟩
  let task : PublishTask :=
    { PublishTask.periodic schedule generate reports with
      source := .periodic schedule (some ticker) generate }
  let begun : Service :=
    { s.withPublisher id (s.publisher id) with tasks := s.tasks.insert name ⟨id, task⟩ }
  have hbegin : s.perform? (.step (.task name)) = some begun := by
    simp only [perform?, advance?, advanceTask?, hentry]
    rfl
  have hentry' : begun.tasks.get? name = some ⟨id, task⟩ := Table.get?_insert_self ..
  have hclosed' : (begun.publisher id).closed = true := by
    have hsame : begun.publisher id = s.publisher id :=
      (publisher_withPublisher s id id _).trans (if_pos rfl)
    rw [hsame, hclosed]
  obtain ⟨t, s', d, late, hseen, hcall⟩ := exists_late_call hentry' hclosed' rfl rfl rfl
  refine ⟨_, s', (Trail.start.step hbegin).trans late, ?_⟩
  rw [readOff_append, hseen]
  exact not_heedsShutdown hcall

/-! ## All of it -/

/-- A periodic task keeps to its schedule and publishes what is made for it, one event after
another, until it is told to stop. It hears of every shutdown of its publisher that comes later just
if its publisher was not closed when the task was started. -/
theorem Trail.periodic_iff
    (early : Trail record (withTransport settings origin transport) before s)
    (h : s.perform? (.startPeriodic name id schedule generate reports) = some next) :
    (∀ t s', Trail record next t s' →
      Periodic schedule generate reports ((s.publisher id).closed = false) name id t s') ∧
    ((∀ t s', Trail record next t s' → HeedsShutdown (readOff (deeds name) t)) ↔
      (s.publisher id).closed = false) := by
  obtain ⟨-, hcheck, htasks⟩ := tasks_startPeriodic h
  have hentry : next.tasks.get? name = some ⟨id, .periodic schedule generate reports⟩ := by
    rw [htasks]
    exact Table.get?_insert_self ..
  have hsame : next.publisher id = s.publisher id := by
    obtain ⟨tasks, rfl⟩ := exists_of_startPeriodic h
    exact publisher_usePublisher s id id
  have hall : ∀ t s', Trail record next t s' →
      Periodic schedule generate reports ((s.publisher id).closed = false) name id t s' := by
    intro t s' late
    have hperiod := Schedule.interval_pos hcheck
    obtain ⟨task, he, hclocked⟩ := ((early.step h).engaged hentry rfl).keeps
      (P := fun t task => Clocked schedule t task.source) (Clocked.step hperiod)
      (.waiting generate rfl rfl rfl) late
    rw [hsame] at he
    exact he.toPeriodic (hclocked.onSchedule hperiod)
  refine ⟨hall, fun hheeds => ?_, fun hopened t s' late => ?_⟩
  · by_contra hclosed
    rw [Bool.not_eq_false, ← hsame] at hclosed
    obtain ⟨t, s', late, hunheeded⟩ := exists_unheeded hentry hclosed
    exact hunheeded (hheeds t s' late)
  · intro before d hbefore hcall hshut
    exact ((hall t s' late).apart before d hbefore hcall).2 (.inr ⟨hopened, hshut⟩)

/-- A generator that has something to tell twice, has nothing once, and panics once. -/
def bulletins : Nat → GeneratorCall
  | 0 => .makes 0 (.event (sharedEvent "a"))
  | 1 => .makes 0 .nothing
  | 2 => .crash
  | 3 => .makes (250 * nanosPerMilli) (.event (sharedEvent "b"))
  | _ => .makes 0 .nothing

/-- A schedule that ticks every tenth of a second. -/
def tenths : Schedule :=
  .every (100 * nanosPerMilli)

/-- The service, when it has just started to publish the bulletins. -/
def bulletinBoard (s : Service) : Service :=
  { s.usePublisher (.own 0) with
    tasks := s.tasks.insert 0 ⟨.own 0, .periodic tenths bulletins true⟩ }

/-- The transport refuses the first event. The second takes so long that two ticks are missed, of
which one is made up for, and the task is cancelled in a call. -/
def postUp : List Action :=
  let task : Action := .step (.task 0)
  let driver : Action := .step (.publisher (.own 0))
  [task, task, task, .script ⟨.fail (.rejected "full"), .handOn, 0, 0, none⟩, driver, driver, task,
    .wait tenths.interval, task, task, .wait tenths.interval, task, .wait tenths.interval, task,
    .wait (250 * nanosPerMilli), task, .script ⟨.handOn, .handOn, 0, 0, none⟩, driver, driver, task,
    task, task, .wait (50 * nanosPerMilli), task, .cancelTask 0, task, .takeFailures 0]

theorem periodic_iff_bulletins : ∃ after s',
    Trail record (bulletinBoard logService) after s' ∧
    Periodic tenths bulletins true ((logService.publisher (.own 0)).closed = false) 0 (.own 0)
      after s' ∧
    HeedsShutdown (readOff (deeds 0) after) ∧
    readOff (deeds 0) after =
      [.began 0 .epoch, .called 0, .handed 0 (sharedEvent "a"),
        .answered 0 (.error ⟨sharedEvent "a", .transport (.rejected "full")⟩),
        .called (100 * nanosPerMilli), .skipped, .crashed (200 * nanosPerMilli),
        .called (300 * nanosPerMilli), .handed 1 (sharedEvent "b"), .answered 1 (.ok ()),
        .called (550 * nanosPerMilli), .skipped, .called (600 * nanosPerMilli), .cancelled,
        .skipped, .collected [(0, ⟨sharedEvent "a", .transport (.rejected "full")⟩)]] := by
  have opened : Trail record logService [] logService := .start
  have hstart : logService.perform? (.startPeriodic 0 (.own 0) tenths bulletins true) =
      some (bulletinBoard logService) := rfl
  obtain ⟨hall, hheeds⟩ := opened.periodic_iff hstart
  have trail := Trail.replay (bulletinBoard logService) postUp
  refine ⟨_, _, trail, hall _ _ trail, hheeds.2 rfl _ _ trail, ?_⟩
  decide +kernel

/-- A publisher that is shut down before its task is started and once more when the task has begun
to run, and still the task calls its generator. -/
theorem unheeded_bulletins : ∃ s after s',
    Trail record logService [(logService, .closePublisher (.own 0))] s ∧
    s.perform? (.startPeriodic 0 (.own 0) tenths bulletins true) = some (bulletinBoard s) ∧
    Trail record (bulletinBoard s) after s' ∧
    readOff (deeds 0) after = [.began 0 .epoch, .shut, .called 0] ∧
    ¬HeedsShutdown (readOff (deeds 0) after) := by
  have opened : Trail record logService [] logService := .start
  have closed := opened.step (a := .closePublisher (.own 0)) rfl
  have trail := Trail.replay (bulletinBoard (logService.closePublisher (.own 0)))
    [.step (.task 0), .closePublisher (.own 0), .step (.task 0)]
  have hseen : readOff (deeds 0) ((bulletinBoard (logService.closePublisher (.own 0))).replay
      [.step (.task 0), .closePublisher (.own 0), .step (.task 0)]).1 =
      [.began 0 .epoch, .shut, .called 0] := by decide +kernel
  have hlate : ¬HeedsShutdown ([.began 0 .epoch] ++ [.shut, .called 0]) := not_heedsShutdown trivial
  exact ⟨_, _, _, closed, rfl, trail, hseen, hseen ▸ hlate⟩

end Service

end Observatory
