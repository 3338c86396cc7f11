import Observatory.Proofs.Service.Rollback

/-!
# A store while every write is refused

When the transport refuses every write, the publishes in flight on a key lie over its entry in a
pile: each gives back what the one below it has written, and the lowest gives back the entry. A
refusal takes the top off the pile, unless the write was overtaken. Once the pile is gone, the
entry is what it was, or there is none if the store was emptied meanwhile.
-/

namespace Observatory

/-- Publishes in flight over an entry, the latest first, and the entry as it looks from above. -/
inductive Stack (base : Option Stamped) : List InFlight → Option Stamped → Prop where
  | nil : Stack base [] base
  | cons {flight : InFlight} {rest : List InFlight} (h : Stack base rest flight.previous) :
      Stack base (flight :: rest) (some flight.written)

/-- The publishes on a key with stamps beyond `mark` lie over the entry `base`. Those with earlier
stamps were in flight at first, or there is no entry for them to undo. -/
structure Pile (first v : View) (key : EventKey) (base : Option Stamped) (mark : Nat)
    (pile : List InFlight) : Prop where
  late : first.store.lastStamp ≤ mark
  used : mark ≤ v.store.lastStamp
  stack : Stack base pile (v.store.entries.get? key)
  descending : pile.Pairwise fun a b => b.written.stamp < a.written.stamp
  mem_iff : ∀ flight, flight ∈ pile ↔ mark < flight.written.stamp ∧ flight.written.key = key ∧
    ∃ id, v.flight id = some flight
  below : ∀ id flight, v.flight id = some flight → flight.written.key = key →
    flight.written.stamp ≤ mark → first.flight id = some flight ∨ base = none

theorem Accounted.stamp_le {t : List Mark} {v : View} (hacc : Accounted t v) {id : PublisherId}
    {flight : InFlight} (hin : v.flight id = some flight) :
    flight.written.stamp ≤ v.store.lastStamp :=
  hacc.bounded _ (hacc.inFlight id flight hin).1.1

namespace Pile

variable {t marks : List Mark} {first v v' : View} {key : EventKey} {base : Option Stamped}
  {mark : Nat} {pile : List InFlight} {id : PublisherId} {flight : InFlight}

/-- There is no pile over the entry that is there, and none over no entry. -/
theorem bare (hacc : Accounted t v) (hlate : first.store.lastStamp ≤ v.store.lastStamp)
    (hentry : v.store.entries.get? key = base)
    (hbelow : ∀ id flight, v.flight id = some flight → flight.written.key = key →
      first.flight id = some flight ∨ base = none) :
    Pile first v key base v.store.lastStamp [] where
  late := hlate
  used := le_rfl
  stack := by
    rw [hentry]
    exact .nil
  descending := .nil
  mem_iff flight := by
    refine ⟨(nomatch ·), ?_⟩
    rintro ⟨hmark, -, id, hin⟩
    exact absurd (hacc.stamp_le hin) (Nat.not_le.2 hmark)
  below id flight hin hkey _ := hbelow id flight hin hkey

theorem frame (h : Pile first v key base mark pile) (hstore : v'.store = v.store)
    (hflight : v'.flight = v.flight) : Pile first v' key base mark pile where
  late := h.late
  used := hstore ▸ h.used
  stack := hstore ▸ h.stack
  descending := h.descending
  mem_iff := hflight ▸ h.mem_iff
  below := hflight ▸ h.below

/-- What is offered on the key goes on top of the pile. -/
theorem offer (h : Pile first v key base mark pile) (hacc : Accounted t v) {event : Event}
    (hfree : v.flight id = none)
    (hwritten : flight.written = (v.store.put event.key event).1.written)
    (hprevious : flight.previous = (v.store.put event.key event).1.previous)
    (hstore : v'.store = (v.store.put event.key event).2)
    (hflight : v'.flight = Function.update v.flight id (some flight)) (hkey : event.key = key) :
    Pile first v' key base mark (flight :: pile) where
  late := h.late
  used := by
    rw [hstore, Store.lastStamp_put]
    exact Nat.le_succ_of_le h.used
  stack := by
    rw [hstore, Store.get?_put, if_pos hkey.symm]
    have hentry : Stack base pile flight.previous := by
      rw [hprevious, hkey]
      exact h.stack
    have htop : (⟨v.store.lastStamp + 1, event⟩ : Stamped) = flight.written := hwritten.symm
    rw [htop]
    exact .cons hentry
  descending := by
    refine List.pairwise_cons.2 ⟨fun other hother => ?_, h.descending⟩
    -- What lies in the pile was written before, with a lesser stamp.
    obtain ⟨-, -, id', hin⟩ := (h.mem_iff other).1 hother
    rw [hwritten]
    exact Nat.lt_succ_of_le (hacc.stamp_le hin)
  mem_iff other := by
    rw [List.mem_cons, h.mem_iff]
    constructor
    · rintro (rfl | ⟨hmark, hother, id', hin⟩)
      · refine ⟨?_, by rw [hwritten, ← hkey]; rfl, id, by rw [hflight, Function.update_self]⟩
        rw [hwritten]
        exact Nat.lt_succ_of_le h.used
      · refine ⟨hmark, hother, id', ?_⟩
        rw [hflight, Function.update_of_ne, hin]
        rintro rfl
        rw [hfree] at hin
        cases hin
    · rintro ⟨hmark, hother, id', hin⟩
      rcases View.flight_of_offer hflight hin with ⟨-, heq⟩ | ⟨-, hin⟩
      · exact .inl heq
      · exact .inr ⟨hmark, hother, id', hin⟩
  below id' other hin hother hmark := by
    rcases View.flight_of_offer hflight hin with ⟨-, rfl⟩ | ⟨-, hin⟩
    · rw [hwritten] at hmark
      exact absurd (h.used.trans_lt (Nat.lt_succ_self _)) (Nat.not_lt.2 hmark)
    · exact h.below id' other hin hother hmark

/-- What happens on other keys does not matter. -/
theorem other (h : Pile first v key base mark pile)
    (hlast : v.store.lastStamp ≤ v'.store.lastStamp)
    (hentry : v'.store.entries.get? key = v.store.entries.get? key)
    (hflight : ∀ id flight, flight.written.key = key →
      (v'.flight id = some flight ↔ v.flight id = some flight)) :
    Pile first v' key base mark pile where
  late := h.late
  used := h.used.trans hlast
  stack := hentry ▸ h.stack
  descending := h.descending
  mem_iff flight := by
    rw [h.mem_iff]
    refine and_congr_right fun _ => and_congr_right fun hkey => ?_
    exact exists_congr fun id => (hflight id flight hkey).symm
  below id flight hin hkey hmark := h.below id flight ((hflight id flight hkey).1 hin) hkey hmark

/-- A write that is not the top of the pile is overtaken when it is refused. -/
theorem eq_top (h : Pile first v key base mark (flight :: pile)) (hacc : Accounted t v)
    {refused : InFlight} (hin : v.flight id = some refused) (hkey : refused.written.key = key)
    (hover : ¬Overtaken (t ++ [.refused refused.written]) refused.written) : refused = flight := by
  by_contra hne
  obtain ⟨hmark, htop, id', hin'⟩ := (h.mem_iff flight).1 List.mem_cons_self
  refine hover ⟨t, [], flight.written, rfl, htop.trans hkey.symm, ?_,
    (hacc.inFlight id' flight hin').1⟩
  by_cases hbelow : mark < refused.written.stamp
  · have hmem := (h.mem_iff refused).2 ⟨hbelow, hkey, id, hin⟩
    exact (List.pairwise_cons.1 h.descending).1 refused ((List.mem_cons.1 hmem).resolve_left hne)
  · exact (Nat.not_lt.1 hbelow).trans_lt hmark

/-- A refusal takes the top off the pile. -/
theorem refuse_top (h : Pile first v key base mark (flight :: pile)) (hacc : Accounted t v)
    (hin : v.flight id = some flight) (hstore : v'.store = v.store.undo flight)
    (hflight : v'.flight = Function.update v.flight id none) :
    Pile first v' key base mark pile := by
  obtain ⟨-, htop, -⟩ := (h.mem_iff flight).1 List.mem_cons_self
  obtain ⟨habove, hdescending⟩ := List.pairwise_cons.1 h.descending
  have hstack := h.stack
  generalize hentry : v.store.entries.get? key = entry at hstack
  cases hstack with
  | cons hrest =>
    refine ⟨h.late, ?used, ?stack, hdescending, ?mem_iff, ?below⟩
    case used =>
      rw [hstore, Store.undo, Store.lastStamp_restore]
      exact h.used
    case stack =>
      rw [hstore, ← htop, Store.get?_undo_self (htop ▸ hentry) rfl]
      exact hrest
    case mem_iff =>
      intro other
      constructor
      · intro hother
        obtain ⟨hmark, hkey, id', hin'⟩ := (h.mem_iff other).1 (List.mem_cons_of_mem _ hother)
        refine ⟨hmark, hkey, id', ?_⟩
        rw [hflight, Function.update_of_ne, hin']
        rintro rfl
        rw [hin] at hin'
        cases hin'
        exact Nat.lt_irrefl _ (habove flight hother)
      · rintro ⟨hmark, hkey, id', hin'⟩
        obtain ⟨hid, hin'⟩ := View.flight_of_answer hflight hin'
        have hmem := (h.mem_iff other).2 ⟨hmark, hkey, id', hin'⟩
        refine (List.mem_cons.1 hmem).resolve_left ?_
        rintro rfl
        exact hid (hacc.apart id' id other other hin' hin rfl)
    case below =>
      intro id' other hin' hkey hmark
      exact h.below id' other (View.flight_of_answer hflight hin').2 hkey hmark

/-- Below the pile there is nothing to undo. -/
theorem refuse_below (h : Pile first v key none mark []) (hkey : flight.written.key = key)
    (hstore : v'.store = v.store.undo flight)
    (hflight : v'.flight = Function.update v.flight id none)
    (hin : v.flight id = some flight) (hmark : flight.written.stamp ≤ mark) :
    Pile first v' key none mark [] := by
  have hnone : v.store.entries.get? flight.written.key = none := by
    have hstack := h.stack
    rw [hkey]
    generalize v.store.entries.get? key = entry at hstack
    cases hstack
    rfl
  have hsame : v'.store = v.store := hstore.trans (Store.restore_of_none hnone)
  refine ⟨h.late, hsame ▸ h.used, hsame ▸ h.stack, h.descending, fun other => ?_,
    fun _ _ _ _ _ => .inr rfl⟩
  rw [h.mem_iff]
  refine and_congr_right fun hlt => and_congr_right fun _ => exists_congr fun id' => ?_
  refine ⟨fun hin' => ?_, fun hin' => (View.flight_of_answer hflight hin').2⟩
  rw [hflight, Function.update_of_ne, hin']
  rintro rfl
  rw [hin] at hin'
  cases hin'
  exact absurd hlt (Nat.not_lt.2 hmark)

theorem step (h : Pile first v key base mark pile) (hacc : Accounted t v)
    (hstep : View.Publishing v marks v')
    (hrefused : ∀ w, .accepted w ∉ marks ∧ .crashed w ∉ marks)
    (hover : ∀ w, w.key = key → .refused w ∈ marks → ¬Overtaken (t ++ marks) w)
    (hfirst : ∀ id flight, first.flight id = some flight → flight.written.key = key →
      .refused flight.written ∉ marks) :
    ∃ mark pile, Pile first v' key (if .cleared ∈ marks then none else base) mark pile := by
  cases hstep with
  | quiet _ _ hmarks hstore hflight =>
    have hcleared : .cleared ∉ marks := fun hm => Bool.noConfusion (hmarks _ hm)
    rw [if_neg hcleared]
    exact ⟨mark, pile, h.frame hstore hflight⟩
  | clear _ hstore hflight =>
    have hafter := hacc.step (.clear v' hstore hflight)
    have hlast : v'.store.lastStamp = v.store.lastStamp := hstore ▸ rfl
    rw [if_pos List.mem_cons_self]
    refine ⟨_, [], bare hafter ?_ (hstore ▸ rfl) fun _ _ _ _ => .inr rfl⟩
    rw [hlast]
    exact h.late.trans h.used
  | offer id event flight _ hfree hwritten hprevious hstore hflight =>
    rw [if_neg (by simp)]
    by_cases hkey : event.key = key
    · exact ⟨mark, _, h.offer hacc hfree hwritten hprevious hstore hflight hkey⟩
    · refine ⟨mark, pile, h.other ?_ ?_ fun id' other hother => ?_⟩
      · rw [hstore, Store.lastStamp_put]
        exact Nat.le_succ _
      · rw [hstore, Store.get?_put, if_neg (Ne.symm hkey)]
      · rw [hflight]
        by_cases hid : id' = id
        · subst hid
          rw [Function.update_self, hfree]
          refine ⟨fun heq => ?_, (nomatch ·)⟩
          cases heq
          rw [hwritten] at hother
          exact absurd hother hkey
        · rw [Function.update_of_ne hid]
  | accept id flight => exact absurd List.mem_cons_self (hrefused flight.written).1
  | crash id flight => exact absurd List.mem_cons_self (hrefused flight.written).2
  | refuse id flight _ hin hstore hflight =>
    rw [if_neg (by simp)]
    by_cases hkey : flight.written.key = key
    · -- Only the top of the pile can be refused without having been overtaken.
      cases pile with
      | cons top rest =>
        obtain rfl := h.eq_top hacc hin hkey (hover _ hkey List.mem_cons_self)
        exact ⟨mark, rest, h.refuse_top hacc hin hstore hflight⟩
      | nil =>
        have hmark : flight.written.stamp ≤ mark := by
          by_contra hlt
          exact nomatch (h.mem_iff flight).2 ⟨Nat.not_le.1 hlt, hkey, id, hin⟩
        rcases h.below id flight hin hkey hmark with hearly | rfl
        · exact absurd List.mem_cons_self (hfirst id flight hearly hkey)
        · exact ⟨mark, [], h.refuse_below hkey hstore hflight hin hmark⟩
    · refine ⟨mark, pile, h.other ?_ ?_ fun id' other hother => ?_⟩
      · rw [hstore, Store.undo, Store.lastStamp_restore]
      · rw [hstore, Store.get?_undo_of_ne (Ne.symm hkey)]
      · rw [hflight]
        by_cases hid : id' = id
        · subst hid
          rw [Function.update_self, hin]
          refine ⟨(nomatch ·), fun heq => ?_⟩
          cases heq
          exact absurd hother hkey
        · rw [Function.update_of_ne hid]

end Pile

namespace Service

variable {settings : Settings} {origin : UtcTime} {transport : Transport} {before t : List Mark}
  {s s' : Service} {key : EventKey}

theorem Run.accounted_after (early : Run (withTransport settings origin transport) before s)
    (run : Run s t s') : Accounted (before ++ t) s'.view := by
  induction run with
  | start =>
    rw [List.append_nil]
    exact early.accounted
  | step _ h ih =>
    rw [← List.append_assoc]
    exact ih.step (step_view h).publishing

theorem Run.exists_pile (early : Run (withTransport settings origin transport) before s)
    (run : Run s t s') (hrefused : ∀ w, .accepted w ∉ t ∧ .crashed w ∉ t)
    (hover : ∀ w, w.key = key → .refused w ∈ t → ¬Overtaken (before ++ t) w)
    (hfirst : ∀ id flight, s.view.flight id = some flight → flight.written.key = key →
      .refused flight.written ∉ t) :
    ∃ mark pile, Pile s.view s'.view key
      (if .cleared ∈ t then none else s.hub.store.entries.get? key) mark pile := by
  induction run with
  | start =>
    exact ⟨_, [], .bare early.accounted le_rfl rfl fun _ _ hin _ => .inl hin⟩
  | @step t x y a run h ih =>
    simp only [List.mem_append, not_or] at hrefused hfirst
    -- What was overtaken before the last step is overtaken still.
    have hearly : ∀ w, w.key = key → .refused w ∈ t → ¬Overtaken (before ++ t) w := by
      intro w hw hm hovertaken
      refine hover w hw (List.mem_append_left _ hm) ?_
      rw [← List.append_assoc]
      exact hovertaken.append _
    have hnow : ∀ w, w.key = key → .refused w ∈ x.marks a →
        ¬Overtaken (before ++ t ++ x.marks a) w := by
      intro w hw hm
      rw [List.append_assoc]
      exact hover w hw (List.mem_append_right _ hm)
    obtain ⟨mark, pile, hpile⟩ := ih (fun w => ⟨(hrefused w).1.1, (hrefused w).2.1⟩) hearly
      fun id flight hin hkey => (hfirst id flight hin hkey).1
    obtain ⟨mark', pile', hpile'⟩ := hpile.step (early.accounted_after run)
      (step_view h).publishing (fun w => ⟨(hrefused w).1.2, (hrefused w).2.2⟩) hnow
      fun id flight hin hkey => (hfirst id flight hin hkey).2
    refine ⟨mark', pile', ?_⟩
    simp only [List.mem_append]
    split at hpile'
    next hcleared => rwa [if_pos (.inr hcleared)]
    next hcleared => simpa [hcleared] using hpile'

/-- Where every write is refused, and none was overtaken, the entry of a key is the same whenever
the same publishes are in flight on it, unless the store was emptied meanwhile. -/
theorem Run.get?_of_refused (early : Run (withTransport settings origin transport) before s)
    (run : Run s t s') (hrefused : ∀ w, .accepted w ∉ t ∧ .crashed w ∉ t)
    (hover : ∀ w, w.key = key → .refused w ∈ t → ¬Overtaken (before ++ t) w)
    (hsame : ∀ id flight, flight.written.key = key →
      ((s.publisher id).inFlight = some flight ↔ (s'.publisher id).inFlight = some flight)) :
    s'.hub.store.entries.get? key =
      if .cleared ∈ t then none else s.hub.store.entries.get? key := by
  have hacc := early.accounted_after run
  have hfirst : ∀ id flight, s.view.flight id = some flight → flight.written.key = key →
      .refused flight.written ∉ t := by
    intro id flight hin hkey hm
    have hlast : s'.view.flight id = some flight := (hsame id flight hkey).1 hin
    exact (hacc.inFlight id flight hlast).1.2.2 (List.mem_append_right _ hm)
  obtain ⟨mark, pile, hpile⟩ := early.exists_pile run hrefused hover hfirst
  -- What lies on the pile was offered on the way, so it is not in flight any more.
  have hnone : pile = [] := by
    refine List.eq_nil_iff_forall_not_mem.2 fun flight hmem => ?_
    obtain ⟨hmark, hkey, id, hin⟩ := (hpile.mem_iff flight).1 hmem
    have hbefore : s.view.flight id = some flight := (hsame id flight hkey).2 hin
    have hstamp := early.accounted.stamp_le hbefore
    exact absurd (hstamp.trans hpile.late) (Nat.not_le.2 hmark)
  have hstack := hpile.stack
  rw [hnone] at hstack
  change s'.view.store.entries.get? key = _
  generalize s'.view.store.entries.get? key = entry at hstack
  cases hstack
  rfl

end Service

end Observatory
