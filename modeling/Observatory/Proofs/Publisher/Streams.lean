import Observatory.Proofs.Publisher.Relays

/-!
# Publishing streams

A task that publishes a stream takes one event after another and publishes it, and takes the next
when the last was answered. Failures are reported and stop nothing; being told to stop stops it, but
not what it has published already.
-/

namespace Observatory

open Deed Moment Publisher

variable {item : Nat → Option StreamItem} {turns : Nat} {made : List Product}

theorem map_some_filterMap {α β : Type} {f : α → Option β} {l : List α}
    (h : ∀ a ∈ l, (f a).isSome) : (l.filterMap f).map some = l.map f := by
  induction l with
  | nil => rfl
  | cons a l ih =>
    obtain ⟨b, hb⟩ := Option.isSome_iff_exists.1 (h a List.mem_cons_self)
    rw [List.filterMap_cons_some hb, List.map_cons, List.map_cons, hb,
      ih fun a ha => h a (List.mem_cons_of_mem _ ha)]

namespace TaskSource.Made

/-- All that a stream makes are its events. -/
theorem stream (hmade : (stream item).Made turns made) :
    (made.filterMap Product.event?).map some =
      (List.range turns).map fun turn => (item turn).map StreamItem.event := by
  have hevents : ∀ turn, ((TaskSource.stream item).call? turn).bind (fun call =>
      call.product.event?) = (item turn).map StreamItem.event := by
    intro turn
    show ((item turn).map _).bind _ = _
    cases item turn <;> rfl
  have hsome : ∀ turn ∈ List.range turns, ((item turn).map StreamItem.event).isSome := by
    intro turn hturn
    have hmem :
        ((TaskSource.stream item).call? turn).map GeneratorCall.product ∈ made.map some := by
      rw [hmade]
      exact List.mem_map_of_mem hturn
    obtain ⟨product, -, hproduct⟩ := List.mem_map.1 hmem
    cases hitem : item turn with
    | none => simp [TaskSource.call?, hitem] at hproduct
    | some given => rfl
  rw [hmade.events, List.filterMap_congr fun turn _ => hevents turn, map_some_filterMap hsome]

theorem length_events (hmade : (TaskSource.stream item).Made turns made) :
    (made.filterMap Product.event?).length = turns := by
  simpa using congrArg List.length hmade.stream

end TaskSource.Made

namespace Place

variable {source : TaskSource} {handed replied : List Ticket} {cancelled : Bool} {phase : TaskPhase}

/-- Where all that is made is published, all calls but one at most are answered. -/
theorem turns_le (hplace : Place source turns made handed replied cancelled phase)
    (hlength : handed.length = made.length) : turns ≤ replied.length + 1 := by
  cases hplace with
  | idle hmade hreplied | ended _ hmade hreplied =>
    have := hmade.length
    rw [hreplied]
    omega
  | making hmade hreplied | abandoned _ hmade hreplied =>
    have := hmade.init.2
    rw [hreplied]
    omega
  | publishing hmade hreplied =>
    have := hmade.length
    rw [← hreplied, List.length_append, List.length_singleton] at hlength
    omega

end Place

namespace Service

variable {settings : Settings} {origin : UtcTime} {transport : Transport} {reports : Bool}
  {opened : Prop} {name : TaskId} {id : PublisherId} {s s' : Service}
  {before after t : List (Service × Action)} {task : PublishTask}

/-- What a task does that publishes a stream. In `t` is what happened since it was started, and the
service is `s` now. -/
structure Streams (item : Nat → Option StreamItem) (reports : Bool) (opened : Prop) (name : TaskId)
    (id : PublisherId) (t : List (Service × Action)) (s : Service) : Prop extends
    Relays reports name id t s where
  /-- What is published are the first events of the stream. -/
  inOrder : ((handovers (readOff (deeds name) t)).map Prod.snd).map some =
    (List.range (handovers (readOff (deeds name) t)).length).map fun turn =>
      (item turn).map StreamItem.event
  /-- A task that was told to stop does not ask for an event any more. -/
  asks : ∀ before now, before ++ [.called now] <+: readOff (deeds name) t → ¬Told opened before
  /-- And the event that it has asked for is not taken. -/
  takes : ∀ before ticket event, before ++ [.handed ticket event] <+: readOff (deeds name) t →
    ¬Told opened before
  /-- A task that is not told to stop goes on to the end of the stream, whatever fails. -/
  goesOn : ∀ c : Course s, c.Fair (.task name) → c.Fair (.publisher id) →
    (∀ n, ¬Told opened (readOff (deeds name) (t ++ c.seen record n))) →
    ∀ count, (∀ turn < count, item turn ≠ none) →
      ∃ n, count ≤ (replies (readOff (deeds name) (t ++ c.seen record n))).length

theorem Engaged.length_handovers
    (he : Engaged (.stream item) reports opened name id t s task) :
    (handovers (readOff (deeds name) t)).length = (products (readOff (deeds name) t)).length := by
  rw [← List.length_map Prod.snd, handovers_eq]
  exact he.diligent.place.exists_made.1.length_events

namespace Course

variable {c : Course s}

/-- Nobody tells the task to stop on the course. -/
theorem running_of_not_told
    (hfree : ∀ n, ¬Told opened (readOff (deeds name) (t ++ c.seen record n)))
    {n : Nat} (he : Engaged (.stream item) reports opened name id (t ++ c.seen record n) (c.state n)
      task) : task.cancelled = false := by
  rw [← Bool.not_eq_true, he.diligent.told]
  exact hfree n

/-- As many events of the stream are answered as one likes, if there are as many. -/
theorem Fair.repliesAgain (he : Engaged (.stream item) reports opened name id t s task)
    (fair : c.Fair (.task name)) (hdriver : c.Fair (.publisher id))
    (hfree : ∀ n, ¬Told opened (readOff (deeds name) (t ++ c.seen record n))) {count : Nat}
    (hitems : ∀ turn < count, item turn ≠ none) :
    ∃ n, count ≤ (replies (readOff (deeds name) (t ++ c.seen record n))).length := by
  by_cases hruns : c.Runs name id 0
  · obtain ⟨n, hn⟩ := fair.le_labour he hdriver hruns (2 + 3 * count)
    obtain ⟨task', he'⟩ := c.engaged he n
    have hlabour := he'.diligent.labour_le
    have hanswered := he'.diligent.place.turns_le (by simpa using he'.length_handovers)
    rw [List.length_map] at hanswered
    unfold deedsUpTo at hn
    exact ⟨n, by omega⟩
  · -- The task has come to its end, which is the end of the stream.
    unfold Runs at hruns
    push Not at hruns
    obtain ⟨n, -, task', hentry, hphase⟩ := hruns
    obtain ⟨task'', he'⟩ := c.engaged he n
    cases he'.entry.symm.trans hentry
    obtain ⟨hnone, hmade, hreplied⟩ :=
      Place.of_finished (hphase ▸ he'.diligent.place) (running_of_not_told hfree he')
    refine ⟨n, ?_⟩
    have hlength := congrArg List.length hreplied
    rw [List.length_map, List.length_map, he'.length_handovers, hmade] at hlength
    rw [hlength]
    by_contra hshort
    apply hitems _ (Nat.lt_of_not_le hshort)
    simpa [TaskSource.call?] using hnone

end Course

theorem Engaged.toStreams (he : Engaged (.stream item) reports opened name id t s task) :
    Streams item reports opened name id t s where
  toRelays := he.relays
  inOrder := by
    rw [he.length_handovers, handovers_eq]
    exact he.diligent.place.exists_made.1.stream
  asks before now hbefore := (he.diligent.timely before _ hbefore).2
  takes before ticket event hbefore := (he.diligent.timely before _ hbefore).2 rfl
  goesOn c fair hdriver hfree count hitems := fair.repliesAgain he hdriver hfree hitems

/-- A task that publishes a stream publishes its events in order, and one after another, until it is
told to stop; failures are reported. -/
theorem Trail.streams
    (trail : Trail record (withTransport settings origin transport)
      (before ++ (s, .startStream name id item reports) :: after) s') :
    Streams item reports ((s.publisher id).closed = false) name id after s' := by
  obtain ⟨early, next, hnext, late⟩ := trail.split
  have hentry : next.tasks.get? name = some ⟨id, .start (.stream item) reports⟩ := by
    rw [(tasks_startStream hnext).2]
    exact Table.get?_insert_self ..
  have hsame : next.publisher id = s.publisher id := by
    obtain ⟨tasks, rfl⟩ := exists_of_startStream hnext
    exact publisher_usePublisher s id id
  obtain ⟨task, he⟩ := ((early.step hnext).engaged hentry rfl).trail late
  rw [hsame] at he
  exact he.toStreams

/-- A stream of three events, with some time before each of them. -/
def headlines : Nat → Option StreamItem :=
  listStream [sharedEvent "a", sharedEvent "b", sharedEvent "c"] 10

/-- The transport refuses the first event and takes the second, and the task is cancelled while it
waits for the third. -/
def readOut : List Action :=
  let task : Action := .step (.task 0)
  let driver : Action := .step (.publisher (.own 0))
  [task, .wait 10, task, .script ⟨.fail (.rejected "full"), .handOn, 0, 0, none⟩, driver, driver,
    task, task, .wait 10, task, .script ⟨.handOn, .handOn, 5, 0, none⟩, driver, .wait 5, driver,
    task, task, .cancelTask 0, .wait 10, task, .takeFailures 0]

theorem streams_headlines : ∃ after s',
    Trail record logService ([] ++ (logService, .startStream 0 (.own 0) headlines true) :: after)
      s' ∧
    Streams headlines true ((logService.publisher (.own 0)).closed = false) 0 (.own 0) after s' ∧
    readOff (deeds 0) after =
      [.called 0, .handed 0 (sharedEvent "a"),
        .answered 0 (.error ⟨sharedEvent "a", .transport (.rejected "full")⟩), .called 10,
        .handed 1 (sharedEvent "b"), .answered 1 (.ok ()), .called 25, .cancelled,
        .collected [(10, ⟨sharedEvent "a", .transport (.rejected "full")⟩)]] := by
  have opened : Trail record logService [] logService := .start
  have trail := opened.join (a := .startStream 0 (.own 0) headlines true) rfl
    (Trail.replay (logService.startStream 0 (.own 0) headlines true) readOut)
  refine ⟨_, _, trail, trail.streams, ?_⟩
  decide +kernel

end Service

end Observatory
