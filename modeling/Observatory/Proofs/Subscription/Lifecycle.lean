import Observatory.Proofs.Subscription.Sights

/-!
# The life of a subscription

A subscription becomes ready, fails or is cancelled, and everyone who waits for it to be ready gets
the same answer, unless an unsubscribe comes to its end after the registration was refused: then the
failure is overwritten by a cancellation.
-/

namespace Observatory

namespace Lifecycle

/-- The changes of state that a subscription is to make. -/
inductive Move : Lifecycle → Lifecycle → Prop where
  | ready : Move .pending .ready
  | fail (error : BusError) : Move .pending (.failed error)
  | cancel : Move .pending (.cancelled false)
  | cancelReady : Move .ready (.cancelled true)

/-- Whether no state is to come after this one. -/
def isFinal : Lifecycle → Bool
  | .failed _ | .cancelled _ => true
  | .pending | .ready => false

variable {x y z : Lifecycle}

/-- The states that come later in a life. -/
inductive Leads : Lifecycle → Lifecycle → Prop where
  | refl (x : Lifecycle) : Leads x x
  | pending (y : Lifecycle) : Leads .pending y
  | ready : Leads .ready (.cancelled true)

theorem Leads.of_move (h : Relation.ReflGen Move x y) : Leads x y := by
  cases h with
  | refl => exact .refl x
  | single hmove =>
    cases hmove with
    | cancelReady => exact .ready
    | _ => exact .pending _

theorem Leads.trans (h : Leads x y) (h' : Leads y z) : Leads x z := by
  cases h with
  | refl => exact h'
  | pending => exact .pending z
  | ready =>
    cases h'
    exact .ready

/-- What someone who waits is told stays true. -/
theorem Leads.readiness?_eq (h : Leads x y) {r r' : Except BusError Unit}
    (hx : x.readiness? = some r) (hy : y.readiness? = some r') : r = r' := by
  cases h with
  | refl => exact Option.some.inj (hx.symm.trans hy)
  | pending => cases hx
  | ready => exact Option.some.inj (hx.symm.trans hy)

theorem Leads.eq_of_isFinal (h : Leads x y) (hfinal : x.isFinal = true) : y = x := by
  cases h with
  | refl => rfl
  | pending => cases hfinal
  | ready => cases hfinal

theorem acknowledge_move (x : Lifecycle) : Relation.ReflGen Move x x.acknowledge := by
  cases x with
  | pending => exact .single .ready
  | _ => exact .refl

theorem refuse_move (x : Lifecycle) (error : BusError) :
    Relation.ReflGen Move x (x.refuse error) := by
  cases x with
  | pending => exact .single (.fail error)
  | _ => exact .refl

/-- A failure is the one state that cancelling must not reach. -/
theorem cancel_move (h : ∀ error, x ≠ .failed error) : Relation.ReflGen Move x x.cancel := by
  cases x with
  | pending => exact .single .cancel
  | ready => exact .single .cancelReady
  | failed error => exact absurd rfl (h error)
  | cancelled wasReady => exact .refl

end Lifecycle

namespace Sight

/-- The states that were seen, in order. -/
def states (t : List Sight) : List Lifecycle :=
  t.filterMap fun
    | .state x => some x
    | _ => none

variable {t t' : List Sight} {x y : Lifecycle}

@[simp]
theorem states_append (t t' : List Sight) : states (t ++ t') = states t ++ states t' :=
  List.filterMap_append

/-- What the life of a subscription is to look like, to those who watch its state and to those who
wait for it to be ready. -/
structure Lawful (t : List Sight) : Prop where
  moves : (states t).IsChain (Relation.ReflGen Lifecycle.Move)
  final : (states t).Pairwise fun x y => x.isFinal = true → y = x
  stable : ∀ x ∈ states t, ∀ y ∈ states t, ∀ r r',
    x.readiness? = some r → y.readiness? = some r' → r = r'
  ready : .ready ∈ states t → ∀ x ∈ states t, ∀ r, x.readiness? = some r → r = .ok ()
  refused : ∀ error, .refused error ∈ t → ∀ x ∈ states t, ∀ r,
    x.readiness? = some r → r = .error error
  cancelled : ∀ wasReady, [.pending, .cancelled wasReady] <:+: states t →
    ∀ x ∈ states t, ∀ r, x.readiness? = some r → r = .error .cancelled

/-- If all changes of state are as they are to be, so is everything else. -/
theorem lawful_of_moves (hmoves : (states t).IsChain (Relation.ReflGen Lifecycle.Move))
    (hrefused : ∀ error, .refused error ∈ t → .failed error ∈ states t) : Lawful t := by
  -- Neighbours are one move apart or the same, and the states further on are led to.
  have hleads : (states t).Pairwise Lifecycle.Leads := by
    have : IsTrans Lifecycle Lifecycle.Leads := ⟨fun _ _ _ => Lifecycle.Leads.trans⟩
    exact (hmoves.imp fun _ _ => Lifecycle.Leads.of_move).pairwise
  have hstable : ∀ x ∈ states t, ∀ y ∈ states t, ∀ r r',
      x.readiness? = some r → y.readiness? = some r' → r = r' := by
    have hsymm : Std.Symm fun x y : Lifecycle => ∀ r r',
        x.readiness? = some r → y.readiness? = some r' → r = r' :=
      ⟨fun _ _ h r r' hr hr' => (h r' r hr' hr).symm⟩
    refine List.Pairwise.forall_of_forall (fun _ _ r r' hr hr' => ?_)
      (hleads.imp fun h r r' => h.readiness?_eq)
    exact Option.some.inj (hr.symm.trans hr')
  refine ⟨hmoves, hleads.imp Lifecycle.Leads.eq_of_isFinal, hstable, ?ready, ?refused, ?cancelled⟩
  case ready => exact fun hmem x hx r hr => hstable x hx _ hmem r _ hr rfl
  case refused =>
    exact fun error hmem x hx r hr => hstable x hx _ (hrefused error hmem) r _ hr rfl
  case cancelled =>
    intro wasReady hinfix x hx r hr
    have hmem : .cancelled wasReady ∈ states t := hinfix.subset (by simp)
    have hmove := hmoves.infix hinfix
    simp only [List.isChain_cons_cons] at hmove
    cases hmove.1 with
    | single hcancel =>
      cases hcancel
      exact hstable x hx _ hmem r _ hr rfl

variable {sub sub' : Subscription} {marks : List Sight} {error : BusError}

/-- What a subscription has behind it. -/
structure Lived (t : List Sight) (sub : Subscription) : Prop where
  last : (states t).getLast? = some sub.state
  spawned : sub.stage = .spawned → sub.state = .pending
  failed : ∀ error, sub.state = .failed error → sub.stage = .stopped ∧ .refused error ∈ t
  refused : ∀ error, .refused error ∈ t → .failed error ∈ states t

theorem lived_start (target : Target) (rate : Option RateControl) (consumer : Consumer) :
    Lived [.state .pending] (.start target rate consumer) where
  last := rfl
  spawned _ := rfl
  failed _ h := nomatch h
  refused _ h := by simp at h

namespace Lived

theorem step (h : Lived t sub) (hmove : sub.Move marks sub') :
    Lived (t ++ (marks ++ [.state sub'.state])) sub' := by
  have hlater : ∀ {x}, states (t ++ (marks ++ [.state x])) = states t ++ (states marks ++ [x]) := by
    simp [states]
  refine ⟨by simp [hlater], ?spawned, ?failed, ?refused⟩
  case spawned =>
    intro hstage
    cases hmove with
    | onward _ hstate hspawned =>
      rw [hstate]
      exact h.spawned (hspawned hstage)
    | refuse => cases hstage
    | acknowledge _ _ hspawned => exact absurd hstage hspawned
    | stop => cases hstage
    | resolve hstopped => rw [hstopped] at hstage; cases hstage
  case failed =>
    intro error hfailed
    -- A failure is of this step, by a refusal, or of an earlier one.
    have hbefore : sub.state = .failed error →
        sub.stage = .stopped ∧ .refused error ∈ t ++ (marks ++ [.state sub'.state]) := fun heq =>
      (h.failed error heq).imp_right fun hmem => List.mem_append_left _ hmem
    cases hmove with
    | onward _ hstate _ hstopped =>
      rw [hstate] at hfailed
      exact (hbefore hfailed).imp_left hstopped
    | refuse error' hspawned =>
      simp only [h.spawned hspawned, Lifecycle.refuse] at hfailed
      cases hfailed
      exact ⟨rfl, by simp⟩
    | acknowledge _ hrunning =>
      cases hstate : sub.state with
      | failed error' => exact absurd (h.failed error' hstate).1 hrunning
      | _ => simp [hstate, Lifecycle.acknowledge] at hfailed
    | stop => cases hfailed
    | resolve => cases hfailed
  case refused =>
    intro error hmem
    rw [hlater, List.mem_append]
    rcases List.mem_append.1 hmem with hmem | hmem
    · exact .inl (h.refused error hmem)
    · cases hmove with
      | refuse error' hspawned =>
        simp only [List.cons_append, List.nil_append, List.mem_cons, Sight.refused.injEq,
          reduceCtorEq, List.not_mem_nil, or_false] at hmem
        subst hmem
        simp [h.spawned hspawned, Lifecycle.refuse]
      | _ => simp at hmem

/-- Only the end of an unsubscribe changes the state in another way than it is to. -/
theorem move (h : Lived t sub) (hmove : sub.Move marks sub')
    (hresolved : .resolved ∈ marks → ∀ error, sub.state ≠ .failed error) :
    Relation.ReflGen Lifecycle.Move sub.state sub'.state := by
  cases hmove with
  | onward _ hstate => rw [hstate]
  | refuse error => exact Lifecycle.refuse_move _ error
  | acknowledge => exact Lifecycle.acknowledge_move _
  | stop hrunning =>
    exact Lifecycle.cancel_move fun error hfailed => hrunning (h.failed error hfailed).1
  | resolve => exact Lifecycle.cancel_move (hresolved List.mem_cons_self)

end Lived

/-- No unsubscribe came to its end after a refusal. -/
def Spared (t : List Sight) : Prop :=
  ∀ before, before ++ [.resolved] <+: t → ∀ error, .refused error ∉ before

theorem prefix_of_not_mem {α : Type} {before t marks : List α} {m : α}
    (h : before ++ [m] <+: t ++ marks) (hm : m ∉ marks) : before ++ [m] <+: t := by
  rcases List.prefix_or_prefix_of_prefix h (List.prefix_append t marks) with hshort | hlong
  · exact hshort
  · obtain ⟨rest, hrest⟩ := hlong
    rw [← hrest, List.prefix_append_right_inj] at h
    cases rest using List.reverseRecOn with
    | nil => exact hrest ▸ (by simp)
    | append_singleton rest m' =>
      rw [← List.append_assoc] at hrest
      obtain rfl : m' = m := by simpa using (List.append_inj' hrest rfl).2
      exact absurd (h.subset (by simp)) hm

theorem Spared.of_initial (h : Spared (t ++ t')) : Spared t := fun before hbefore =>
  h before (hbefore.trans (List.prefix_append t t'))

end Sight

namespace Service

open Sight

variable {settings : Settings} {origin : UtcTime} {transport : Transport} {id : ReaderId}
  {s s' : Service} {t : List Sight} {a : Action} {sub : Subscription}

theorem sights_eq (h : s.perform? a = some s') : s.sights id a = s.signals id a ++
    ((s'.subscriptions.get? id).map fun sub => Sight.state sub.state).toList := by
  rw [sights, h]
  rfl

/-- A subscription has lived through what was seen of it. -/
def Seen (t : List Sight) : Option Subscription → Prop
  | none => t = []
  | some sub => Lived t sub

/-- What an action adds to what was seen: nothing, a beginning, or a move. -/
inductive Next : List Sight → List Sight → Option Subscription → Prop where
  | none : Next [] [] none
  | new (target : Target) (rate : Option RateControl) (consumer : Consumer) :
      Next [] [.state .pending] (some (.start target rate consumer))
  | move {t marks : List Sight} {sub sub' : Subscription} (hlived : Lived t sub)
      (hmove : sub.Move marks sub') : Next t (marks ++ [.state sub'.state]) (some sub')

theorem Seen.next (hseen : Seen t (s.subscriptions.get? id)) (h : s.perform? a = some s') :
    Next t (s.sights id a) (s'.subscriptions.get? id) := by
  rw [sights_eq h]
  have hchange : Change _ (s.signals id a) (s'.subscriptions.get? id) := change h
  generalize s.subscriptions.get? id = x at hseen hchange
  generalize s'.subscriptions.get? id = x' at hchange
  generalize s.signals id a = marks at hchange
  cases hchange with
  | none =>
    cases hseen
    exact .none
  | new target rate consumer =>
    cases hseen
    exact .new target rate consumer
  | move hmove => exact .move hseen hmove

theorem Next.seen {t marks : List Sight} {x : Option Subscription} (h : Next t marks x) :
    Seen (t ++ marks) x := by
  cases h with
  | none => exact rfl
  | new target rate consumer => exact lived_start target rate consumer
  | move hlived hmove => exact hlived.step hmove

theorem Trail.seen (trail : Trail (sights id) (withTransport settings origin transport) t s) :
    Seen t (s.subscriptions.get? id) := by
  induction trail with
  | start => exact rfl
  | step _ h ih => exact (ih.next h).seen

theorem Next.moves {t marks : List Sight} {x : Option Subscription} (h : Next t marks x)
    (hspared : Spared (t ++ marks))
    (hmoves : (states t).IsChain (Relation.ReflGen Lifecycle.Move)) :
    (states (t ++ marks)).IsChain (Relation.ReflGen Lifecycle.Move) := by
  cases h with
  | none => exact .nil
  | new => exact .singleton _
  | @move _ marks sub sub' hlived hmove =>
    have hstates : states (marks ++ [.state sub'.state]) = [sub'.state] := by
      cases hmove <;> rfl
    rw [states_append, hstates, List.isChain_append]
    refine ⟨hmoves, .singleton _, fun x hx y hy => ?_⟩
    obtain rfl : sub.state = x := Option.some.inj (hlived.last.symm.trans hx)
    obtain rfl : sub'.state = y := Option.some.inj hy
    refine hlived.move hmove fun hresolved error hfailed => ?_
    -- The refusal was seen before, and the unsubscribe comes to its end now.
    refine hspared t ?_ error (hlived.failed error hfailed).2
    cases hmove with
    | resolve => exact (List.prefix_append_right_inj t).2 (List.prefix_append _ _)
    | _ => simp at hresolved

theorem Trail.moves (trail : Trail (sights id) (withTransport settings origin transport) t s)
    (hspared : Spared t) : (states t).IsChain (Relation.ReflGen Lifecycle.Move) := by
  induction trail with
  | start => exact .nil
  | step trail h ih => exact (trail.seen.next h).moves hspared (ih hspared.of_initial)

/-- An unsubscribe that comes to its end after the refusal overwrites the failure. -/
theorem Next.overwritten {t marks before : List Sight} {x : Option Subscription}
    {error : BusError} (h : Next t marks x) (hrefused : .refused error ∈ before)
    (hresolved : before ++ [.resolved] <+: t ++ marks) :
    before ++ [.resolved] <+: t ∨
      ∃ wasReady, List.Sublist [.failed error, .cancelled wasReady] (states (t ++ marks)) := by
  have hbefore := hresolved.subset (List.mem_append_left _ hrefused)
  cases h with
  | none => exact .inl hresolved
  | new => simp at hbefore
  | @move _ marks sub sub' hlived hmove =>
    cases hmove with
    | resolve hstopped =>
      refine .inr ⟨sub.state.everReady, ?_⟩
      have hmem : Sight.refused error ∈ t := by simpa using hbefore
      rw [states_append]
      exact (List.singleton_sublist.2 (hlived.refused error hmem)).append
        (List.Sublist.refl [Lifecycle.cancelled sub.state.everReady])
    | _ => exact .inl (prefix_of_not_mem hresolved (by simp))

theorem Trail.overwritten
    (trail : Trail (sights id) (withTransport settings origin transport) t s)
    {before : List Sight} {error : BusError} (hrefused : .refused error ∈ before)
    (hresolved : before ++ [.resolved] <+: t) :
    ∃ wasReady, List.Sublist [.failed error, .cancelled wasReady] (states t) := by
  induction trail with
  | start => simpa using hresolved.length_le
  | step trail h ih =>
    rcases (trail.seen.next h).overwritten hrefused hresolved with hearlier | hnow
    · obtain ⟨wasReady, hsublist⟩ := ih hearlier
      rw [states_append]
      exact ⟨wasReady, hsublist.trans (List.sublist_append_left _ _)⟩
    · exact hnow

/-- A subscription lives as it is to, just if no unsubscribe of it came to its end after its
registration had been refused. -/
theorem Trail.lawful_iff
    (trail : Trail (sights id) (withTransport settings origin transport) t s) :
    Lawful t ↔ Spared t := by
  constructor
  · intro hlawful before hresolved error hrefused
    obtain ⟨wasReady, hsublist⟩ := trail.overwritten hrefused hresolved
    have hfinal := hlawful.final.sublist hsublist
    simp [Lifecycle.isFinal] at hfinal
  · intro hspared
    refine lawful_of_moves (trail.moves hspared) fun error hrefused => ?_
    have hseen := trail.seen
    generalize s.subscriptions.get? id = x at hseen
    cases x with
    | none =>
      cases hseen
      cases hrefused
    | some sub => exact Lived.refused hseen error hrefused

/-- A subscription becomes ready, and is cancelled twice. -/
def farewell : List Action :=
  [.subscribe 0 (.keys [sharedKey]) none (.scriptedCallback []), .step (.subscription 0),
    .step (.subscription 0), .raiseCancel 0, .endUnsubscribe 0, .step (.subscription 0),
    .endUnsubscribe 0, .raiseCancel 0, .endUnsubscribe 0]

/-- What is seen of it. -/
def farewellSights : List Sight :=
  [.state .pending, .state .pending, .state .ready, .state .ready, .state .ready,
    .state (.cancelled true), .resolved, .state (.cancelled true), .state (.cancelled true),
    .resolved, .state (.cancelled true)]

theorem lawful_iff_farewell : (∃ s, Trail (sights 0) logService farewellSights s) ∧
    Lawful farewellSights := by
  obtain ⟨t, s, trail, hgood⟩ := exists_trail_of_observed (sights 0) logService farewell
    (fun t _ => decide (t = farewellSights)) (by decide +kernel)
  obtain rfl := of_decide_eq_true hgood
  refine ⟨⟨s, trail⟩, trail.lawful_iff.2 fun before hresolved error hrefused => ?_⟩
  have hmem := hresolved.subset (List.mem_append_left _ hrefused)
  simp [farewellSights] at hmem

/-- A subscription is refused, and then unsubscribed. -/
def refusal : List Action :=
  [.script ⟨.handOn, .fail (.rejected "link down"), 0, 0, none⟩,
    .subscribe 0 (.keys [sharedKey]) none (.scriptedCallback []), .step (.subscription 0),
    .raiseCancel 0, .endUnsubscribe 0]

/-- What is seen of it. -/
def refusalSights : List Sight :=
  let error : BusError := .transport (.rejected "link down")
  [.state .pending, .refused error, .state (.failed error), .state (.failed error), .resolved,
    .state (.cancelled false)]

theorem exists_refusal : ∃ s, Trail (sights 0) logService refusalSights s := by
  obtain ⟨t, s, trail, hgood⟩ := exists_trail_of_observed (sights 0) logService refusal
    (fun t _ => decide (t = refusalSights)) (by decide +kernel)
  obtain rfl := of_decide_eq_true hgood
  exact ⟨s, trail⟩

/-- Who waits before the unsubscribe learns of the refusal, and who waits afterwards does not. -/
theorem not_lawful : ¬∀ t s, Trail (sights 0) logService t s → Lawful t := by
  intro hall
  obtain ⟨s, trail⟩ := exists_refusal
  have hanswers := (hall _ s trail).stable (.failed (.transport (.rejected "link down")))
    (by decide) (.cancelled false) (by decide) _ _ rfl rfl
  cases hanswers

end Service

end Observatory
