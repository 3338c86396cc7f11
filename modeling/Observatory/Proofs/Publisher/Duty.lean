import Observatory.Proofs.Publisher.Deeds

/-!
# The duty of publishing tasks

A publishing task uses what its source makes in the order of the calls, publishes what is an event,
and waits for the outcome before it goes on. It begins nothing more when it was told to stop.
-/

namespace Observatory

open Deed

variable {source : TaskSource} {reports : Bool} {opened : Prop} {t deeds : List Deed}
  {task task' : PublishTask} {h : Hub} {p p' : Publisher}

/-- These are the first things that a source makes. -/
def TaskSource.Made (source : TaskSource) (turns : Nat) (made : List Product) : Prop :=
  made.map some = (List.range turns).map fun turn => (source.call? turn).map GeneratorCall.product

namespace TaskSource.Made

variable {turns : Nat} {made : List Product}

theorem zero : source.Made 0 [] :=
  rfl

theorem concat (hmade : source.Made turns made) {call : GeneratorCall}
    (hcall : source.call? turns = some call) :
    source.Made (turns + 1) (made ++ [call.product]) := by
  unfold Made at hmade ⊢
  simp [List.range_succ, hmade, hcall]

theorem length (hmade : source.Made turns made) : made.length = turns := by
  simpa using congrArg List.length hmade

/-- Without the last thing that was made. -/
theorem init {product : Product} (hmade : source.Made turns (made ++ [product])) :
    source.Made made.length made ∧ made.length + 1 = turns := by
  have hlength : made.length + 1 = turns := by simpa using hmade.length
  refine ⟨?_, hlength⟩
  unfold Made at hmade ⊢
  rw [← hlength, List.range_succ, List.map_append, List.map_append] at hmade
  exact (List.append_inj' hmade rfl).1

/-- The events among them are the events that the calls made. -/
theorem events (hmade : source.Made turns made) :
    made.filterMap Product.event? =
      (List.range turns).filterMap fun turn =>
        (source.call? turn).bind fun call => call.product.event? := by
  have hbind : (made.map some).filterMap (fun product => product.bind Product.event?) =
      made.filterMap Product.event? := by
    simp [List.filterMap_map]
  rw [← hbind, hmade, List.filterMap_map]
  simp [Option.bind_map]

end TaskSource.Made

/-! ## How far a task has come -/

/-- How far a task has come after some turns, when `made` was used, and `handed` are its publishes
and `replied` those of them that were answered. -/
inductive Place (source : TaskSource) (turns : Nat) (made : List Product)
    (handed replied : List Ticket) : Bool → TaskPhase → Prop where
  | idle {cancelled : Bool} (hmade : source.Made turns made) (hreplied : replied = handed) :
      Place source turns made handed replied cancelled .idle
  | making {cancelled : Bool} {due : Nat} {product : Product}
      (hmade : source.Made turns (made ++ [product])) (hreplied : replied = handed) :
      Place source turns made handed replied cancelled (.making due product)
  | publishing {cancelled : Bool} {ticket : Ticket} (hmade : source.Made turns made)
      (hreplied : replied ++ [ticket] = handed) :
      Place source turns made handed replied cancelled (.publishing ticket)
  | ended {cancelled : Bool}
      (hover : cancelled = true ∨ source.isStream = true ∧ source.call? turns = none)
      (hmade : source.Made turns made) (hreplied : replied = handed) :
      Place source turns made handed replied cancelled .finished
  /-- A stream is not waited for when the task is cancelled. -/
  | abandoned {product : Product} (hstream : source.isStream = true)
      (hmade : source.Made turns (made ++ [product])) (hreplied : replied = handed) :
      Place source turns made handed replied true .finished

namespace Place

variable {turns : Nat} {made : List Product} {handed replied : List Ticket} {cancelled : Bool}
  {phase : TaskPhase}

theorem cancel (hplace : Place source turns made handed replied cancelled phase) :
    Place source turns made handed replied true phase := by
  cases hplace with
  | idle hmade hreplied => exact .idle hmade hreplied
  | making hmade hreplied => exact .making hmade hreplied
  | publishing hmade hreplied => exact .publishing hmade hreplied
  | ended hover hmade hreplied => exact .ended (.inl rfl) hmade hreplied
  | abandoned hstream hmade hreplied => exact .abandoned hstream hmade hreplied

/-- Where nothing new is made, published or answered. -/
theorem same (hplace : Place source turns made handed replied cancelled phase) :
    Place source turns (made ++ []) (handed ++ []) (replied ++ []) cancelled phase := by
  rwa [List.append_nil, List.append_nil, List.append_nil]

theorem of_idle (hplace : Place source turns made handed replied cancelled .idle) :
    source.Made turns made ∧ replied = handed := by
  cases hplace with | idle hmade hreplied =>
  exact ⟨hmade, hreplied⟩

theorem of_publishing {ticket : Ticket}
    (hplace : Place source turns made handed replied cancelled (.publishing ticket)) :
    replied ++ [ticket] = handed := by
  cases hplace with | publishing hmade hreplied =>
  exact hreplied

theorem answered (hplace : Place source turns made handed replied cancelled phase)
    (hphase : ∀ ticket, phase ≠ .publishing ticket) : replied = handed := by
  cases hplace with
  | publishing => exact absurd rfl (hphase _)
  | idle _ hreplied | making _ hreplied | ended _ _ hreplied | abandoned _ _ hreplied =>
    exact hreplied

theorem finish (hplace : Place source turns made handed replied cancelled .idle)
    (hover : cancelled = true ∨ source.isStream = true ∧ source.call? turns = none) :
    Place source turns made handed replied cancelled .finished := by
  obtain ⟨hmade, hreplied⟩ := hplace.of_idle
  exact .ended hover hmade hreplied

theorem abandon {due : Nat} {product : Product}
    (hplace : Place source turns made handed replied cancelled (.making due product))
    (hstream : source.isStream = true) (hcancelled : cancelled = true) :
    Place source turns made handed replied cancelled .finished := by
  cases hplace with | making hmade hreplied =>
  subst hcancelled
  exact .abandoned hstream hmade hreplied

theorem crash (hplace : Place source turns made handed replied cancelled .idle)
    (hcall : source.call? turns = some .crash) :
    Place source (turns + 1) (made ++ [.panic]) handed replied cancelled .idle := by
  obtain ⟨hmade, hreplied⟩ := hplace.of_idle
  exact .idle (hmade.concat hcall) hreplied

theorem call {delay : Duration} {product : Product}
    (hplace : Place source turns made handed replied cancelled .idle)
    (hcall : source.call? turns = some (.makes delay product)) (due : Nat) :
    Place source (turns + 1) made handed replied cancelled (.making due product) := by
  obtain ⟨hmade, hreplied⟩ := hplace.of_idle
  exact .making (hmade.concat hcall) hreplied

theorem use {due : Nat} {product : Product}
    (hplace : Place source turns made handed replied cancelled (.making due product))
    (ticket : Ticket) :
    Place source turns (made ++ products [product.deed ticket])
      (handed ++ (handovers [product.deed ticket]).map Prod.fst) replied cancelled
      (product.phase ticket) := by
  cases hplace with | making hmade hreplied =>
  cases product with
  | event e => exact .publishing hmade (by rw [hreplied]; rfl)
  | nothing => exact .idle hmade (by rw [hreplied]; exact (List.append_nil _).symm)
  | panic => exact .idle hmade (by rw [hreplied]; exact (List.append_nil _).symm)

theorem learn {ticket : Ticket}
    (hplace : Place source turns made handed replied cancelled (.publishing ticket)) :
    Place source turns made handed (replied ++ [ticket]) cancelled .idle := by
  cases hplace with | publishing hmade hreplied =>
  exact .idle hmade hreplied

/-- What was made are the products of all calls, but for one at most that is under way. -/
theorem exists_made (hplace : Place source turns made handed replied cancelled phase) :
    source.Made made.length made ∧ (made.length = turns ∨ made.length + 1 = turns) := by
  cases hplace with
  | idle hmade | publishing hmade | ended _ hmade =>
    exact ⟨hmade.length.symm ▸ hmade, .inl hmade.length⟩
  | making hmade | abandoned _ hmade =>
    obtain ⟨hinit, hlength⟩ := hmade.init
    exact ⟨hinit, .inr hlength⟩

theorem length_le (hplace : Place source turns made handed replied cancelled phase) :
    made.length ≤ turns := by
  have := hplace.exists_made.2
  omega

/-- A task that nobody stops ends where its stream ends. -/
theorem of_finished (hplace : Place source turns made handed replied cancelled .finished)
    (hrunning : cancelled = false) :
    source.call? turns = none ∧ made.length = turns ∧ replied = handed := by
  cases hplace with
  | ended hover hmade hreplied =>
    obtain hcancelled | ⟨-, hnone⟩ := hover
    · cases hcancelled.symm.trans hrunning
    · exact ⟨hnone, hmade.length, hreplied⟩
  | abandoned => cases hrunning

/-- Publishes are answered in their order. -/
theorem replied_initial (hplace : Place source turns made handed replied cancelled phase) :
    replied <+: handed := by
  cases hplace with
  | publishing _ hreplied => exact ⟨_, hreplied⟩
  | idle _ hreplied | making _ hreplied | ended _ _ hreplied | abandoned _ _ hreplied =>
    rw [hreplied]

end Place

/-! ## Steps -/

/-- A task does this at the right time: it calls when nothing is under way, publishes when its last
publish was answered, and begins nothing when it was told to stop. -/
def Deed.Timely (opened : Prop) (streams : Bool) (before : List Deed) : Deed → Prop
  | .called _ | .crashed _ =>
    Settled before ∧ ¬Told opened before
  | .handed _ _ => Answered before ∧ (streams = true → ¬Told opened before)
  | _ => True

/-- What was seen of a task that was started with a source, and what it is like now. -/
structure Diligent (source : TaskSource) (reports : Bool) (opened : Prop) (t : List Deed)
    (task : PublishTask) : Prop where
  calls : task.source.call? = source.call?
  streams : task.source.isStream = source.isStream
  reporting : task.reports = reports
  begun : (beginnings t).length = if task.source.ticks then 1 else 0
  turns : task.turns = (callTimes t).length
  place : Place source task.turns (products t) ((handovers t).map Prod.fst)
    ((replies t).map Prod.fst) task.cancelled task.phase
  told : task.cancelled = true ↔ Told opened t
  reported : (taken t ++ task.failures).map Prod.snd = if reports then failed t else []
  timely : ∀ before d, before ++ [d] <+: t → d.Timely opened source.isStream before

theorem diligent_start (reports : Bool) (opened : Prop) (hticks : source.ticks = false) :
    Diligent source reports opened [] (.start source reports) where
  calls := rfl
  streams := rfl
  reporting := rfl
  begun := by simp [PublishTask.start, hticks, beginnings]
  turns := rfl
  place := .idle .zero rfl
  told := by simp [PublishTask.start, Told]
  reported := by cases reports <;> rfl
  timely before d hd := by
    have hlength := hd.length_le
    simp at hlength

namespace PublishTask

theorem Stride.source_eq (hstride : task.Stride h p deeds task' p') :
    task'.source.call? = task.source.call? ∧ task'.source.isStream = task.source.isStream := by
  cases hstride with
  | begin schedule generate hphase hrunning hsource =>
    rw [hsource]
    exact ⟨rfl, rfl⟩
  | crash source hphase hrunning hasked hcall => exact ⟨hasked.same.1, hasked.same.2.1⟩
  | call source delay product hphase hrunning hasked hcall =>
    exact ⟨hasked.same.1, hasked.same.2.1⟩
  | finish | abandon | use | learn => exact ⟨rfl, rfl⟩

theorem Move.source_eq (hmove : task.Move h p p' deeds task') :
    task'.source.call? = task.source.call? ∧ task'.source.isStream = task.source.isStream := by
  cases hmove with
  | own hstride => exact hstride.source_eq
  | rest | cancel | shut | shutAgain | collect => exact ⟨rfl, rfl⟩

theorem Move.reports_eq (hmove : task.Move h p p' deeds task') : task'.reports = task.reports := by
  cases hmove with
  | own hstride =>
    cases hstride with
    | finish | begin | crash | call | abandon | use | learn => rfl
  | rest | cancel | shut | shutAgain | collect => rfl

theorem Move.replied (hmove : task.Move h p p' deeds task') {ticket : Ticket} {outcome : Outcome}
    (hreply : (ticket, outcome) ∈ replies deeds) : p.outcome? ticket = some outcome := by
  cases hmove with
  | own hstride =>
    cases hstride with
    | learn ticket outcome hphase houtcome =>
      cases List.mem_singleton.1 hreply
      exact houtcome
    | use due product => cases product <;> cases hreply
    | finish | begin | crash | call | abandon => cases hreply
  | rest | cancel | shut | shutAgain | collect => cases hreply

end PublishTask

namespace Diligent

open PublishTask

theorem call_eq (hd : Diligent source reports opened t task) {turn : Nat} :
    task.source.call? turn = source.call? turn :=
  congrFun hd.calls turn

theorem settled (hd : Diligent source reports opened t task) (hphase : task.phase = .idle) :
    Settled t := by
  obtain ⟨hmade, hreplied⟩ := Place.of_idle (hphase ▸ hd.place)
  exact ⟨hmade.length.trans hd.turns, hreplied⟩

theorem not_told (hd : Diligent source reports opened t task) (hrunning : task.cancelled = false) :
    ¬Told opened t := by
  rw [← hd.told, hrunning]
  exact Bool.false_ne_true

theorem begun_step (hd : Diligent source reports opened t task)
    (hmove : task.Move h p p' deeds task') :
    (beginnings (t ++ deeds)).length = if task'.source.ticks then 1 else 0 := by
  rw [beginnings_append, List.length_append, hd.begun]
  cases hmove with
  | own hstride =>
    cases hstride with
    | begin schedule generate hphase hrunning hsource =>
      rw [hsource]
      rfl
    | crash source hphase hrunning hasked hcall =>
      rw [← hasked.same.2.2]
      rfl
    | call source delay product hphase hrunning hasked hcall =>
      rw [← hasked.same.2.2]
      rfl
    | use due product => cases product <;> rfl
    | finish | abandon | learn => rfl
  | rest | cancel | shut | shutAgain | collect => rfl

theorem turns_step (hd : Diligent source reports opened t task)
    (hmove : task.Move h p p' deeds task') : task'.turns = (callTimes (t ++ deeds)).length := by
  rw [callTimes_append, List.length_append, ← hd.turns]
  cases hmove with
  | own hstride =>
    cases hstride with
    | use due product => cases product <;> rfl
    | finish | begin | crash | call | abandon | learn => rfl
  | rest | cancel | shut | shutAgain | collect => rfl

theorem place_step (hd : Diligent source reports opened t task)
    (hmove : task.Move h p p' deeds task') :
    Place source task'.turns (products (t ++ deeds)) ((handovers (t ++ deeds)).map Prod.fst)
      ((replies (t ++ deeds)).map Prod.fst) task'.cancelled task'.phase := by
  have hplace := hd.place
  rw [products_append, handovers_append, replies_append, List.map_append, List.map_append]
  cases hmove with
  | own hstride =>
    cases hstride with
    | finish hphase hover =>
      rw [hd.streams, hd.call_eq] at hover
      rw [hphase] at hplace
      exact (hplace.finish hover).same
    | begin schedule generate hphase hrunning hsource => exact hplace.same
    | crash after hphase hrunning hasked hcall =>
      rw [hd.call_eq] at hcall
      rw [hphase] at hplace ⊢
      show Place source (task.turns + 1) _ (_ ++ []) (_ ++ []) task.cancelled .idle
      rw [List.append_nil, List.append_nil]
      exact hplace.crash hcall
    | call after delay product hphase hrunning hasked hcall =>
      rw [hd.call_eq] at hcall
      rw [hphase] at hplace
      exact (hplace.call hcall (h.now + delay)).same
    | abandon due product hphase hstream hcancelled =>
      rw [hd.streams] at hstream
      rw [hphase] at hplace
      exact (hplace.abandon hstream hcancelled).same
    | use due product hphase hdue hrunning =>
      -- Whether anything is published depends on the product, but nothing is answered.
      rw [hphase] at hplace
      have hreplies : replies [product.deed p.nextTicket] = [] := by cases product <;> rfl
      rw [hreplies, List.map_nil, List.append_nil]
      exact hplace.use p.nextTicket
    | learn ticket outcome hphase houtcome =>
      rw [hphase] at hplace
      show Place source task.turns (_ ++ []) (_ ++ []) (_ ++ [ticket]) task.cancelled .idle
      rw [List.append_nil, List.append_nil]
      exact hplace.learn
  | rest | shutAgain | collect => exact hplace.same
  | cancel | shut => exact hplace.cancel.same

theorem told_step (hd : Diligent source reports opened t task)
    (hclosed : p.closed = true ↔ ¬opened ∨ .shut ∈ t) (hmove : task.Move h p p' deeds task') :
    task'.cancelled = true ↔ Told opened (t ++ deeds) := by
  rw [told_append, ← hd.told]
  cases hmove with
  | own hstride =>
    cases hstride with
    | use due product => cases product <;> simp [Told, Product.deed]
    | finish | begin | crash | call | abandon | learn => simp [Told, PublishTask.begin]
  | rest | collect => simp [Told, takeFailures]
  | cancel => simp [Told, PublishTask.cancel]
  | shut hopen =>
    -- A publisher that is open now has been so since the task was started.
    have hopened : opened := by
      by_contra hnot
      rw [hclosed.2 (.inl hnot)] at hopen
      cases hopen
    simp [Told, PublishTask.cancel, hopened]
  | shutAgain hagain =>
    -- Whoever closed the publisher meanwhile has told the task.
    have hbefore : opened → task.cancelled = true := by
      intro hopened
      exact hd.told.2 (.inr ⟨hopened, (hclosed.1 hagain).resolve_left (not_not_intro hopened)⟩)
    simpa [Told] using hbefore

theorem reported_step (hd : Diligent source reports opened t task)
    (hmove : task.Move h p p' deeds task') :
    (taken (t ++ deeds) ++ task'.failures).map Prod.snd =
      if reports then failed (t ++ deeds) else [] := by
  have hold := hd.reported
  have hquiet : taken deeds = [] → failed deeds = [] → task'.failures = task.failures →
      (taken (t ++ deeds) ++ task'.failures).map Prod.snd =
        if reports then failed (t ++ deeds) else [] := by
    intro htaken hfailed hsame
    rw [taken_append, failed_append, htaken, hfailed, hsame, List.append_nil, List.append_nil]
    exact hold
  cases hmove with
  | own hstride =>
    cases hstride with
    | learn ticket outcome hphase houtcome =>
      have hreporting := hd.reporting
      rw [taken_append, failed_append]
      cases outcome with
      | ok _ => simpa [taken, failed, replies, failure?, report] using hold
      | error failure =>
        cases hreports : reports with
        | false =>
          simp only [hreports, Bool.false_eq_true, if_false] at hold hreporting ⊢
          simpa [taken, report, hreporting] using hold
        | true =>
          simp only [hreports, if_true] at hold hreporting ⊢
          rw [← hold]
          simp [taken, failed, replies, failure?, report, hreporting]
    | use due product => cases product <;> exact hquiet rfl rfl rfl
    | finish | begin | crash | call | abandon => exact hquiet rfl rfl rfl
  | rest | cancel | shut | shutAgain => exact hquiet rfl rfl rfl
  | collect =>
    -- What was reported is taken away, and nothing is lost.
    rw [taken_append, failed_append]
    simpa [taken, failed, replies, takeFailures] using hold

theorem timely_concat (hd : Diligent source reports opened t task) {d : Deed}
    (hlast : d.Timely opened source.isStream t) :
    ∀ before d', before ++ [d'] <+: t ++ [d] → d'.Timely opened source.isStream before := by
  intro before d' hinitial
  obtain heq | hearly := List.prefix_concat_iff.1 hinitial
  · obtain ⟨rfl, hsame⟩ := List.append_inj' heq rfl
    cases hsame
    exact hlast
  · exact hd.timely before d' hearly

theorem timely_step (hd : Diligent source reports opened t task)
    (hmove : task.Move h p p' deeds task') :
    ∀ before d, before ++ [d] <+: t ++ deeds → d.Timely opened source.isStream before := by
  have hnone : deeds = [] → ∀ before d, before ++ [d] <+: t ++ deeds →
      d.Timely opened source.isStream before := by
    rintro rfl
    rw [List.append_nil]
    exact hd.timely
  cases hmove with
  | own hstride =>
    cases hstride with
    | finish | abandon => exact hnone rfl
    | begin | learn => exact hd.timely_concat trivial
    | crash after hphase hrunning hasked hcall =>
      exact hd.timely_concat ⟨hd.settled hphase, hd.not_told hrunning⟩
    | call after delay product hphase hrunning hasked hcall =>
      exact hd.timely_concat ⟨hd.settled hphase, hd.not_told hrunning⟩
    | use due product hphase hdue hrunning =>
      apply hd.timely_concat
      cases product with
      | event e =>
        refine ⟨hd.place.answered (by simp [hphase]), fun hstream => hd.not_told ?_⟩
        exact hrunning (hd.streams.trans hstream)
      | nothing => trivial
      | panic => trivial
  | rest => exact hnone rfl
  | cancel | shut | shutAgain | collect => exact hd.timely_concat trivial

theorem step (hd : Diligent source reports opened t task)
    (hclosed : p.closed = true ↔ ¬opened ∨ .shut ∈ t) (hmove : task.Move h p p' deeds task') :
    Diligent source reports opened (t ++ deeds) task' where
  calls := hmove.source_eq.1.trans hd.calls
  streams := hmove.source_eq.2.trans hd.streams
  reporting := hmove.reports_eq.trans hd.reporting
  begun := hd.begun_step hmove
  turns := hd.turns_step hmove
  place := hd.place_step hmove
  told := hd.told_step hclosed hmove
  reported := hd.reported_step hmove
  timely := hd.timely_step hmove

end Diligent

end Observatory
