import Observatory.Proofs.Service.Publishing

/-!
# What rolling back leaves behind

The writes on a key that were not undone lie above one another like layers, and the entry of the
key is the top one. A refused write goes if it is the top layer; below others it stays, and comes
to the surface once all of them were refused too. So the store holds the newest write that the
transport has taken, unless a refused write was overtaken and no later write was taken.
-/

namespace Observatory

/-- The layers of a key after a mark. -/
def layer (key : EventKey) (layers : List Stamped) : Mark → List Stamped
  | .written w => if w.key = key then w :: layers else layers
  | .refused w => if layers.head? = some w then layers.tail else layers
  | _ => layers

/-- The writes on a key that were not undone, the latest first. -/
def layers (key : EventKey) (t : List Mark) : List Stamped :=
  t.foldl (layer key) []

/-- The write is the newest one on its key that the transport has taken, or stands for none. -/
def IsNewest (t : List Mark) (key : EventKey) (w : Stamped) : Prop :=
  (w = .invalid key ∧ ∀ v, .accepted v ∈ t → v.key ≠ key) ∨
    (.accepted w ∈ t ∧ w.key = key ∧ ∀ v, .accepted v ∈ t → v.key = key → v.stamp ≤ w.stamp)

section Trace

variable {t marks : List Mark} {key : EventKey} {u w : Stamped}

theorem layers_append (t : List Mark) (m : Mark) :
    layers key (t ++ [m]) = layer key (layers key t) m := by
  rw [layers, List.foldl_append]
  rfl

theorem layers_quiet (h : ∀ m ∈ marks, m.write? = none) :
    layers key (t ++ marks) = layers key t := by
  rw [layers, List.foldl_append, ← layers]
  generalize layers key t = below
  induction marks generalizing below with
  | nil => rfl
  | cons m marks ih =>
    have hm := h m List.mem_cons_self
    have hsame : layer key below m = below := by
      cases m with
      | written w => cases hm
      | refused w => cases hm
      | _ => rfl
    rw [List.foldl_cons, hsame]
    exact ih (fun m' hm' => h m' (List.mem_cons_of_mem m hm')) below

theorem layers_accepted (t : List Mark) (w : Stamped) :
    layers key (t ++ [.accepted w]) = layers key t :=
  layers_append t (.accepted w)

theorem layers_written_self (t : List Mark) (w : Stamped) :
    layers w.key (t ++ [.written w]) = w :: layers w.key t := by
  rw [layers_append, layer, if_pos rfl]

theorem layers_written_of_ne (t : List Mark) (h : w.key ≠ key) :
    layers key (t ++ [.written w]) = layers key t := by
  rw [layers_append, layer, if_neg h]

theorem layers_written_cases (t : List Mark) (w : Stamped) (key : EventKey) :
    (key = w.key ∧ layers key (t ++ [.written w]) = w :: layers key t) ∨
      (key ≠ w.key ∧ layers key (t ++ [.written w]) = layers key t) := by
  by_cases hk : key = w.key
  · subst hk
    exact .inl ⟨rfl, layers_written_self t w⟩
  · exact .inr ⟨hk, layers_written_of_ne t (Ne.symm hk)⟩

theorem mem_layers_written :
    u ∈ layers key (t ++ [.written w]) ↔ (u = w ∧ w.key = key) ∨ u ∈ layers key t := by
  rcases layers_written_cases t w key with ⟨rfl, heq⟩ | ⟨hk, heq⟩
  · rw [heq, List.mem_cons, and_iff_left rfl]
  · rw [heq, or_iff_right fun hu => hk hu.2.symm]

theorem layers_refused_top (h : (layers key t).head? = some w) :
    layers key (t ++ [.refused w]) = (layers key t).tail := by
  rw [layers_append, layer, if_pos h]

theorem layers_refused_of_ne (h : (layers key t).head? ≠ some w) :
    layers key (t ++ [.refused w]) = layers key t := by
  rw [layers_append, layer, if_neg h]

theorem Open.of_append (h : Open (t ++ marks) w) (hwritten : .written w ∈ t) : Open t w :=
  ⟨hwritten, fun hw => h.2.1 (List.mem_append_left _ hw),
    fun hw => h.2.2 (List.mem_append_left _ hw)⟩

/-- Only a refusal makes a write an overtaken one. -/
theorem overtaken_append {m : Mark} (h : Overtaken (t ++ [m]) w) :
    Overtaken t w ∨ (m = .refused w ∧ ∃ v, v.key = w.key ∧ w.stamp < v.stamp ∧ Open t v) := by
  obtain ⟨before, after, v, heq, hv⟩ := h
  rcases List.eq_nil_or_concat after with rfl | ⟨after, last, rfl⟩
  · obtain ⟨rfl, hm⟩ := List.append_inj' heq rfl
    exact .inr ⟨(List.cons.inj hm).1, v, hv⟩
  · rw [List.concat_eq_append, ← List.cons_append, ← List.append_assoc] at heq
    obtain ⟨rfl, _⟩ := List.append_inj' heq rfl
    exact .inl ⟨before, after, v, rfl, hv⟩

theorem overtaken_quiet (h : ∀ m ∈ marks, m.write? = none) (hw : Overtaken (t ++ marks) w) :
    Overtaken t w := by
  induction marks using List.reverseRecOn with
  | nil => rwa [List.append_nil] at hw
  | append_singleton marks m ih =>
    rw [← List.append_assoc] at hw
    rcases overtaken_append hw with hold | ⟨rfl, _⟩
    · exact ih (fun m' hm' => h m' (List.mem_append_left _ hm')) hold
    · cases h _ (List.mem_append_right _ List.mem_cons_self)

end Trace

/-- How the store lies on the layers of a trace. -/
structure Layered (t : List Mark) (v : View) : Prop where
  entry : ∀ key, v.store.entries.get? key = (layers key t).head?
  previous : ∀ id flight, v.flight id = some flight →
    ∃ above below, layers flight.written.key t = above ++ flight.written :: below ∧
      flight.previous = below.head?
  descending : ∀ key, (layers key t).Pairwise fun a b => b.stamp < a.stamp
  mem : ∀ key w, w ∈ layers key t → w.key = key ∧ .written w ∈ t
  kept : ∀ w, .written w ∈ t → .refused w ∉ t → w ∈ layers w.key t
  overtaken : ∀ w, Overtaken t w → w ∈ layers w.key t
  /-- A refused write is left only if it was overtaken, or lies below a write that has its answer
  and so stays. -/
  buried : ∀ key u, u ∈ layers key t → .refused u ∈ t →
    Overtaken t u ∨ ∃ w ∈ layers key t, u.stamp < w.stamp ∧ ¬ Open t w

namespace Layered

variable {t marks : List Mark} {v v' : View}

theorem start (hstore : v.store = .empty) (hflight : ∀ id, v.flight id = none) :
    Layered [] v where
  entry key := by
    rw [hstore]
    rfl
  previous id flight hin := by
    rw [hflight id] at hin
    cases hin
  descending _ := List.Pairwise.nil
  mem _ _ hw := absurd hw List.not_mem_nil
  kept _ hw := absurd hw List.not_mem_nil
  overtaken _ hw := absurd hw.refused List.not_mem_nil
  buried _ _ hu := absurd hu List.not_mem_nil

/-- A refused write stays buried as long as no layer goes that has its answer. -/
theorem buried_append (h : Layered t v) {key : EventKey} {u : Stamped} (hu : u ∈ layers key t)
    (hrefused : .refused u ∈ t)
    (hstays : ∀ w ∈ layers key t, ¬Open t w → w ∈ layers key (t ++ marks)) :
    Overtaken (t ++ marks) u ∨
      ∃ w ∈ layers key (t ++ marks), u.stamp < w.stamp ∧ ¬Open (t ++ marks) w := by
  rcases h.buried key u hu hrefused with hover | ⟨w, hw, hlt, hclosed⟩
  · exact .inl (hover.append marks)
  · exact .inr ⟨w, hstays w hw hclosed, hlt,
      fun hopen => hclosed (hopen.of_append (h.mem key w hw).2)⟩

/-- Marks that change no layers keep the store as it lies, if what they refuse is buried. -/
theorem still (h : Layered t v) (hlayers : ∀ key, layers key (t ++ marks) = layers key t)
    (hwritten : ∀ w, .written w ∈ t ++ marks → .written w ∈ t) (hstore : v'.store = v.store)
    (hflight : ∀ id flight, v'.flight id = some flight → v.flight id = some flight)
    (hover : ∀ w, Overtaken (t ++ marks) w → w ∈ layers w.key t)
    (hburied : ∀ key u, u ∈ layers key t → .refused u ∈ marks →
      Overtaken (t ++ marks) u ∨ ∃ w ∈ layers key t, u.stamp < w.stamp ∧ ¬Open t w) :
    Layered (t ++ marks) v' where
  entry key := by
    rw [hstore, hlayers]
    exact h.entry key
  previous id flight hin := by
    rw [hlayers]
    exact h.previous id flight (hflight id flight hin)
  descending key := by
    rw [hlayers]
    exact h.descending key
  mem key w hw := by
    rw [hlayers] at hw
    exact ⟨(h.mem key w hw).1, List.mem_append_left _ (h.mem key w hw).2⟩
  kept w hw hrefused := by
    rw [hlayers]
    exact h.kept w (hwritten w hw) fun hold => hrefused (List.mem_append_left _ hold)
  overtaken w hw := by
    rw [hlayers]
    exact hover w hw
  buried key u hu hrefused := by
    rw [hlayers] at hu
    rcases List.mem_append.1 hrefused with hold | hnew
    · refine h.buried_append hu hold fun w hw _ => ?_
      rwa [hlayers]
    · rcases hburied key u hu hnew with hover | ⟨w, hw, hlt, hclosed⟩
      · exact .inl hover
      · rw [hlayers]
        exact .inr ⟨w, hw, hlt, fun hopen => hclosed (hopen.of_append (h.mem key w hw).2)⟩

theorem frame (h : Layered t v) (hmarks : ∀ m ∈ marks, m.write? = none)
    (hstore : v'.store = v.store) (hflight : v'.flight = v.flight) :
    Layered (t ++ marks) v' := by
  refine h.still (fun key => layers_quiet hmarks) (fun w => (mem_quiet hmarks rfl).1) hstore
    (fun id flight hin => ?flight) (fun w hw => h.overtaken w (overtaken_quiet hmarks hw))
    fun key u _ hrefused => ?refused
  case flight => rwa [hflight] at hin
  case refused => cases hmarks _ hrefused

theorem offer (h : Layered t v) (hacc : Accounted t v) {id : PublisherId} {event : Event}
    {flight : InFlight} (hwritten : flight.written = ⟨v.store.lastStamp + 1, event⟩)
    (hprevious : flight.previous = v.store.entries.get? event.key)
    (hstore : v'.store = (v.store.put event.key event).2)
    (hflight : v'.flight = Function.update v.flight id (some flight)) :
    Layered (t ++ [.written flight.written]) v' := by
  have hkey : flight.written.key = event.key := by rw [hwritten]; rfl
  -- Stamps ascend, so the new write goes on top of every layer there is.
  have hnewest : ∀ w, .written w ∈ t → w.stamp < flight.written.stamp := by
    intro w hw
    rw [hwritten]
    exact Nat.lt_succ_of_le (hacc.bounded w hw)
  refine ⟨?entry, ?previous, ?descending, ?mem, ?kept, ?overtaken, ?buried⟩
  case entry =>
    intro key
    rw [hstore, Store.get?_put, ← hkey]
    rcases layers_written_cases t flight.written key with ⟨hk, heq⟩ | ⟨hk, heq⟩
    · rw [if_pos hk, heq, List.head?_cons, hwritten]
    · rw [if_neg hk, heq]
      exact h.entry key
  case previous =>
    intro id' flight' hin
    rcases View.flight_of_offer hflight hin with ⟨_, rfl⟩ | ⟨_, hin⟩
    · refine ⟨[], layers flight'.written.key t, layers_written_self t flight'.written, ?_⟩
      rw [hprevious, hkey]
      exact h.entry event.key
    · obtain ⟨above, below, hsplit, hprev⟩ := h.previous id' flight' hin
      rcases layers_written_cases t flight.written flight'.written.key with ⟨_, heq⟩ | ⟨_, heq⟩
      · exact ⟨flight.written :: above, below, by rw [heq, hsplit, List.cons_append], hprev⟩
      · exact ⟨above, below, heq.trans hsplit, hprev⟩
  case descending =>
    intro key
    rcases layers_written_cases t flight.written key with ⟨_, heq⟩ | ⟨_, heq⟩
    · rw [heq, List.pairwise_cons]
      exact ⟨fun w hw => hnewest w (h.mem key w hw).2, h.descending key⟩
    · rw [heq]
      exact h.descending key
  case mem =>
    intro key w hw
    rcases mem_layers_written.1 hw with ⟨rfl, hk⟩ | hw
    · exact ⟨hk, List.mem_append_right _ List.mem_cons_self⟩
    · exact ⟨(h.mem key w hw).1, List.mem_append_left _ (h.mem key w hw).2⟩
  case kept =>
    intro w hw hrefused
    rw [mem_layers_written]
    rcases List.mem_append.1 hw with hw | hw
    · exact .inr (h.kept w hw fun href => hrefused (List.mem_append_left _ href))
    · cases List.mem_singleton.1 hw
      exact .inl ⟨rfl, rfl⟩
  case overtaken =>
    intro w hw
    rcases overtaken_append hw with hold | ⟨heq, _⟩
    · exact mem_layers_written.2 (.inr (h.overtaken w hold))
    · cases heq
  case buried =>
    intro key u hu hrefused
    have hrefused' : .refused u ∈ t := by
      rcases List.mem_append.1 hrefused with hr | hr
      · exact hr
      · cases List.mem_singleton.1 hr
    rcases mem_layers_written.1 hu with ⟨rfl, _⟩ | hold
    · -- A write that was refused already is not the one that is offered now.
      exact absurd (hnewest _ (hacc.refused _ hrefused')) (Nat.lt_irrefl _)
    · exact h.buried_append hold hrefused' fun w hw _ => mem_layers_written.2 (.inr hw)

theorem accept (h : Layered t v) {id : PublisherId} {w : Stamped}
    (hstore : v'.store = v.store) (hflight : v'.flight = Function.update v.flight id none) :
    Layered (t ++ [.accepted w]) v' := by
  refine h.still (fun key => layers_accepted t w) (fun u hu => ?written) hstore
    (fun id' flight hin => (View.flight_of_answer hflight hin).2) (fun u hu => ?overtaken)
    fun key u _ hrefused => ?refused
  case written => simpa using hu
  case overtaken =>
    rcases overtaken_append hu with hold | ⟨heq, _⟩
    · exact h.overtaken u hold
    · cases heq
  case refused => cases List.mem_singleton.1 hrefused

section Top

variable {w u : Stamped} {below : List Stamped} {key : EventKey}

theorem lt_top (h : Layered t v) (htop : layers key t = w :: below) (hu : u ∈ below) :
    u.stamp < w.stamp := by
  have hdescending := h.descending key
  rw [htop, List.pairwise_cons] at hdescending
  exact hdescending.1 u hu

theorem le_top (h : Layered t v) (htop : layers key t = w :: below) (hu : u ∈ layers key t) :
    u.stamp ≤ w.stamp := by
  rw [htop] at hu
  rcases List.mem_cons.1 hu with rfl | hu
  · exact Nat.le_refl _
  · exact Nat.le_of_lt (h.lt_top htop hu)

theorem layers_refused_cases (h : Layered t v) (htop : layers w.key t = w :: below)
    (key : EventKey) :
    (key = w.key ∧ layers key (t ++ [.refused w]) = below) ∨
      (key ≠ w.key ∧ layers key (t ++ [.refused w]) = layers key t) := by
  by_cases hk : key = w.key
  · subst hk
    refine .inl ⟨rfl, ?_⟩
    rw [layers_refused_top (by rw [htop]; rfl), htop, List.tail_cons]
  · refine .inr ⟨hk, layers_refused_of_ne fun hhead => hk ?_⟩
    exact (h.mem key w (List.mem_of_mem_head? hhead)).1.symm

/-- All layers stay but the top one, which is refused. -/
theorem mem_layers_refused (h : Layered t v) (htop : layers w.key t = w :: below) :
    u ∈ layers key (t ++ [.refused w]) ↔ u ∈ layers key t ∧ u ≠ w := by
  rcases h.layers_refused_cases htop key with ⟨rfl, heq⟩ | ⟨hk, heq⟩
  · rw [heq, htop, List.mem_cons]
    have hne : u ∈ below → u ≠ w := by
      rintro hu rfl
      exact Nat.lt_irrefl _ (h.lt_top htop hu)
    tauto
  · rw [heq, iff_self_and]
    rintro hu rfl
    exact hk (h.mem key u hu).1.symm

end Top

/-- A refused write that is the top layer goes. -/
theorem refuse_top (h : Layered t v) (hacc : Accounted t v) {id : PublisherId} {flight : InFlight}
    {below : List Stamped} (hin : v.flight id = some flight)
    (htop : layers flight.written.key t = flight.written :: below)
    (hprevious : flight.previous = below.head?)
    (hstore : v'.store = v.store.undo flight)
    (hflight : v'.flight = Function.update v.flight id none) :
    Layered (t ++ [.refused flight.written]) v' := by
  have hopen := (hacc.inFlight id flight hin).1
  have hlayers := h.layers_refused_cases htop
  refine ⟨?entry, ?previous, ?descending, ?mem, ?kept, ?overtaken, ?buried⟩
  case entry =>
    intro key
    rw [hstore]
    rcases hlayers key with ⟨rfl, heq⟩ | ⟨hk, heq⟩
    · have hcurrent : v.store.entries.get? flight.written.key = some flight.written := by
        rw [h.entry, htop, List.head?_cons]
      rw [Store.get?_undo_self hcurrent rfl, heq, hprevious]
    · rw [Store.get?_undo_of_ne hk, heq]
      exact h.entry key
  case previous =>
    intro id' flight' hin'
    obtain ⟨hid, hin'⟩ := View.flight_of_answer hflight hin'
    obtain ⟨above, under, hsplit, hprev⟩ := h.previous id' flight' hin'
    rcases hlayers flight'.written.key with ⟨hk, heq⟩ | ⟨_, heq⟩
    · rw [hk, htop] at hsplit
      cases above with
      | nil =>
        -- The write that goes belongs to no other publisher.
        have hsame := (List.cons.inj hsplit).1
        exact absurd (hacc.apart id' id flight' flight hin' hin hsame.symm) hid
      | cons x above => exact ⟨above, under, heq.trans (List.cons.inj hsplit).2, hprev⟩
    · exact ⟨above, under, heq.trans hsplit, hprev⟩
  case descending =>
    intro key
    rcases hlayers key with ⟨rfl, heq⟩ | ⟨_, heq⟩
    · have hdescending := h.descending flight.written.key
      rw [htop, List.pairwise_cons] at hdescending
      exact heq ▸ hdescending.2
    · exact heq ▸ h.descending key
  case mem =>
    intro key u hu
    obtain ⟨hkey, hwritten⟩ := h.mem key u ((h.mem_layers_refused htop).1 hu).1
    exact ⟨hkey, List.mem_append_left _ hwritten⟩
  case kept =>
    intro u hwritten hrefused
    simp only [List.mem_append, List.mem_singleton, reduceCtorEq, or_false, Mark.refused.injEq,
      not_or] at hwritten hrefused
    exact (h.mem_layers_refused htop).2 ⟨h.kept u hwritten hrefused.1, hrefused.2⟩
  case overtaken =>
    intro u hu
    rw [h.mem_layers_refused htop]
    rcases overtaken_append hu with hold | ⟨heq, w, hkey, hlt, hw⟩
    · refine ⟨h.overtaken u hold, ?_⟩
      rintro rfl
      exact hopen.2.2 hold.refused
    · -- Nothing lies above the write, and so nothing overtook it.
      cases heq
      have hmem := h.kept w hw.1 hw.2.2
      rw [hkey] at hmem
      exact absurd hlt (Nat.not_lt_of_le (h.le_top htop hmem))
  case buried =>
    intro key u hu hrefused
    obtain ⟨hmem, hne⟩ := (h.mem_layers_refused htop).1 hu
    have hrefused' : .refused u ∈ t := by
      rcases List.mem_append.1 hrefused with hr | hr
      · exact hr
      · exact absurd (Mark.refused.inj (List.mem_singleton.1 hr)) hne
    refine h.buried_append hmem hrefused' fun w hw hclosed => ?_
    refine (h.mem_layers_refused htop).2 ⟨hw, ?_⟩
    rintro rfl
    exact hclosed hopen

/-- A refused write that lies below others stays. -/
theorem refuse_below (h : Layered t v) {id : PublisherId} {flight : InFlight} {top : Stamped}
    {rest : List Stamped} (htop : layers flight.written.key t = top :: rest)
    (hmem : flight.written ∈ rest) (hstore : v'.store = v.store)
    (hflight : v'.flight = Function.update v.flight id none) :
    Layered (t ++ [.refused flight.written]) v' := by
  have hlt := h.lt_top htop hmem
  refine h.still (fun key => ?layers) (fun u hu => ?written) hstore
    (fun id' flight' hin => (View.flight_of_answer hflight hin).2) (fun u hu => ?overtaken)
    fun key u hu hrefused => ?refused
  case layers =>
    refine layers_refused_of_ne fun hhead => ?_
    have hkey := (h.mem key _ (List.mem_of_mem_head? hhead)).1
    rw [← hkey, htop, List.head?_cons] at hhead
    exact Nat.lt_irrefl _ (Option.some.inj hhead ▸ hlt)
  case written => simpa using hu
  case overtaken =>
    rcases overtaken_append hu with hold | ⟨heq, _⟩
    · exact h.overtaken u hold
    · cases heq
      rw [htop]
      exact List.mem_cons_of_mem _ hmem
  case refused =>
    cases List.mem_singleton.1 hrefused
    have htopmem : top ∈ layers flight.written.key t := htop ▸ List.mem_cons_self
    obtain ⟨htopkey, htopwritten⟩ := h.mem _ top htopmem
    rw [← (h.mem key _ hu).1]
    -- The top layer overtook the write if it has no answer yet; else it lies there for good.
    by_cases hopen : Open t top
    · exact .inl ⟨t, [], top, rfl, htopkey, hlt, hopen⟩
    · exact .inr ⟨top, htopmem, hlt, hopen⟩

theorem refuse (h : Layered t v) (hacc : Accounted t v) {id : PublisherId} {flight : InFlight}
    (hids : ((writes t).map fun w => w.event.id).Nodup) (hin : v.flight id = some flight)
    (hstore : v'.store = v.store.undo flight)
    (hflight : v'.flight = Function.update v.flight id none) :
    Layered (t ++ [.refused flight.written]) v' := by
  obtain ⟨above, below, hsplit, hprevious⟩ := h.previous id flight hin
  cases above with
  | nil => exact h.refuse_top hacc hin hsplit hprevious hstore hflight
  | cons top above =>
    have hmem : flight.written ∈ above ++ flight.written :: below :=
      List.mem_append_right _ List.mem_cons_self
    have hentry : v.store.entries.get? flight.written.key = some top := by
      rw [h.entry, hsplit]
      rfl
    have htop : top ∈ layers flight.written.key t := hsplit ▸ List.mem_cons_self
    -- The store goes by ids, and ids tell the two writes apart.
    have hne : top.event.id ≠ flight.written.event.id := by
      intro hid
      have hsame := List.inj_on_of_nodup_map hids (mem_writes.2 (h.mem _ top htop).2)
        (mem_writes.2 (hacc.inFlight id flight hin).1.1) hid
      exact Nat.lt_irrefl _ (hsame ▸ h.lt_top hsplit hmem)
    rw [Store.undo_of_ne hentry hne] at hstore
    exact h.refuse_below hsplit hmem hstore hflight

/-- What one step keeps, where ids tell writes apart and nothing is cleared or crashes. -/
theorem step (h : Layered t v) (hacc : Accounted t v) (hstep : View.Publishing v marks v')
    (hids : ((writes t).map fun w => w.event.id).Nodup) (hclear : .cleared ∉ marks)
    (hcrash : ∀ w, .crashed w ∉ marks) : Layered (t ++ marks) v' := by
  cases hstep with
  | quiet _ _ hmarks hstore hflight =>
    exact h.frame (fun m hm => Mark.write?_of_isPublishing (hmarks m hm)) hstore hflight
  | clear _ hstore hflight => exact absurd List.mem_cons_self hclear
  | offer id event flight _ hfree hwritten hprevious hstore hflight =>
    exact h.offer hacc hwritten hprevious hstore hflight
  | accept id flight _ hin hstore hflight => exact h.accept hstore hflight
  | refuse id flight _ hin hstore hflight => exact h.refuse hacc hids hin hstore hflight
  | crash id flight _ hin hstore hflight => exact absurd List.mem_cons_self (hcrash _)

end Layered

namespace Service

variable {settings : Settings} {origin : UtcTime} {transport : Transport} {t : List Mark}
  {s : Service}

theorem Run.layered (run : Run (withTransport settings origin transport) t s)
    (hids : ((writes t).map fun w => w.event.id).Nodup) (hclear : .cleared ∉ t)
    (hcrash : ∀ w, .crashed w ∉ t) : Layered t s.view := by
  induction run with
  | start => exact .start rfl fun _ => rfl
  | step run h ih =>
    rw [writes_append, List.map_append] at hids
    simp only [List.mem_append, not_or] at hclear hcrash
    have hbefore := (List.nodup_append.1 hids).1
    have hlayered := ih hbefore hclear.1 fun w => (hcrash w).1
    exact hlayered.step run.accounted (step_view h).publishing hbefore hclear.2
      fun w => (hcrash w).2

/-- When no publish is in flight, a key reads as the newest write that the transport has taken if
and only if a later write was taken for every refused one that was overtaken. -/
theorem Run.isNewest_read_iff (run : Run (withTransport settings origin transport) t s)
    (hids : ((writes t).map fun w => w.event.id).Nodup) (hclear : .cleared ∉ t)
    (hcrash : ∀ w, .crashed w ∉ t) (hrest : ∀ id, (s.publisher id).inFlight = none)
    (key : EventKey) :
    IsNewest t key (s.hub.store.read key) ↔
      ∀ w, w.key = key → Overtaken t w →
        ∃ v, .accepted v ∈ t ∧ v.key = key ∧ w.stamp < v.stamp := by
  have hacc := run.accounted
  have hlayered := run.layered hids hclear hcrash
  have hread : s.hub.store.read key = ((layers key t).head?).getD (.invalid key) :=
    congrArg (fun entry => entry.getD (Stamped.invalid key)) (hlayered.entry key)
  have htaken : ∀ w, .accepted w ∈ t → w.key = key → w ∈ layers key t := by
    intro w hw hkey
    obtain ⟨hwritten, hrefused⟩ := hacc.accepted w hw
    exact hkey ▸ hlayered.kept w hwritten hrefused
  have hover : ∀ w, w.key = key → Overtaken t w → w ∈ layers key t := by
    intro w hkey hw
    exact hkey ▸ hlayered.overtaken w hw
  rw [hread]
  -- What is read is the top layer, and every write that was taken is a layer at or below it.
  cases hstack : layers key t with
  | nil =>
    rw [hstack] at htaken hover
    constructor
    · intro _ w hkey hw
      exact absurd (hover w hkey hw) List.not_mem_nil
    · intro _
      exact .inl ⟨rfl, fun w hw hkey => absurd (htaken w hw hkey) List.not_mem_nil⟩
  | cons top below =>
    have htop : top ∈ layers key t := hstack ▸ List.mem_cons_self
    obtain ⟨htopkey, hwritten⟩ := hlayered.mem key top htop
    have hle : ∀ w ∈ layers key t, w.stamp ≤ top.stamp := fun w => hlayered.le_top hstack
    rw [List.head?_cons, Option.getD_some]
    constructor
    · rintro (⟨hinvalid, _⟩ | ⟨haccepted, _, _⟩) w hkey hw
      · have hpositive := hacc.positive top hwritten
        rw [hinvalid] at hpositive
        exact absurd hpositive (Nat.lt_irrefl 0)
      · refine ⟨top, haccepted, htopkey, Nat.lt_of_le_of_ne (hle w (hover w hkey hw)) ?_⟩
        intro hstamp
        have hsame := hacc.eq_of_stamp (hlayered.mem key w (hover w hkey hw)).2 hwritten hstamp
        exact (hacc.accepted top haccepted).2 (hsame ▸ hw.refused)
    · intro hcovered
      rcases run.answered hcrash hrest hwritten with haccepted | hrefused
      · exact .inr ⟨haccepted, htopkey, fun w hw hkey => hle w (htaken w hw hkey)⟩
      · exfalso
        rcases hlayered.buried key top htop hrefused with hw | ⟨w, hw, hlt, _⟩
        · obtain ⟨w, haccepted, hkey, hlt⟩ := hcovered top htopkey hw
          exact Nat.not_lt_of_le (hle w (htaken w haccepted hkey)) hlt
        · exact Nat.not_lt_of_le (hle w hw) hlt

/-! ## Two publishers on one key -/

/-- The service on which two publishers meet. -/
def twoPublishers : Service :=
  withTransport .default .epoch (.ofBackend (.log (.create 1)))

/-- The first publisher writes, then the second, and the transport refuses the first write before
it answers the second one with `verdict`. -/
def overlap (verdict : Verdict) : List Action :=
  [.script ⟨.fail (.rejected "no"), .handOn, 0, 0, none⟩,
    .publish (.own 0) (sharedEvent "a"), .step (.publisher (.own 0)),
    .script ⟨verdict, .handOn, 0, 0, none⟩,
    .publish (.own 1) (sharedEvent "b"), .step (.publisher (.own 1)),
    .step (.publisher (.own 0)), .step (.publisher (.own 1))]

/-- The trace of the overlap, up to the second answer. -/
def overlapMarks : List Mark :=
  [.written ⟨1, sharedEvent "a"⟩, .written ⟨2, sharedEvent "b"⟩, .refused ⟨1, sharedEvent "a"⟩]

theorem exists_overlap (verdict : Verdict) (last : Mark) (entry : Stamped)
    (h : (twoPublishers.follow (overlap verdict)).any (fun reached =>
      decide (reached.1 = overlapMarks ++ [last]) && reached.2.isIdle &&
        decide (reached.2.hub.store.read sharedKey = entry)) = true) :
    ∃ s, Run twoPublishers (overlapMarks ++ [last]) s ∧
      (∀ id, (s.publisher id).inFlight = none) ∧ s.hub.store.read sharedKey = entry := by
  obtain ⟨t, s, run, hgood⟩ := exists_run_of_follow twoPublishers (overlap verdict)
    (fun t s => decide (t = overlapMarks ++ [last]) && s.isIdle &&
      decide (s.hub.store.read sharedKey = entry)) h
  simp only [Bool.and_eq_true, decide_eq_true_eq] at hgood
  obtain ⟨⟨rfl, hidle⟩, hread⟩ := hgood
  exact ⟨s, run, inFlight_of_isIdle hidle, hread⟩

/-- Where the second write is taken, the refusal of the first does no harm. -/
theorem isNewest_read_overlap : ∃ t s, Run twoPublishers t s ∧
    Overtaken t ⟨1, sharedEvent "a"⟩ ∧ IsNewest t sharedKey (s.hub.store.read sharedKey) := by
  obtain ⟨s, run, hrest, _⟩ := exists_overlap .handOn (.accepted ⟨2, sharedEvent "b"⟩)
    ⟨2, sharedEvent "b"⟩ (by decide +kernel)
  refine ⟨_, s, run, ⟨[.written ⟨1, sharedEvent "a"⟩, .written ⟨2, sharedEvent "b"⟩],
    [.accepted ⟨2, sharedEvent "b"⟩], ⟨2, sharedEvent "b"⟩, rfl, rfl, by decide, ?_⟩, ?_⟩
  · unfold Open
    decide +kernel
  · refine (run.isNewest_read_iff (by decide +kernel) (by decide +kernel) ?_ hrest sharedKey).2 ?_
    · intro w hw
      simp [overlapMarks] at hw
    · intro w _ hw
      have hrefused := hw.refused
      simp only [overlapMarks, List.cons_append, List.nil_append, List.mem_cons, reduceCtorEq,
        Mark.refused.injEq, List.not_mem_nil, or_false, false_or] at hrefused
      subst hrefused
      exact ⟨⟨2, sharedEvent "b"⟩, by decide +kernel, rfl, by decide⟩

/-- Where both writes are refused, the first one comes back to the surface. -/
theorem not_isNewest_read : ¬ ∀ (t : List Mark) (s : Service), Run twoPublishers t s →
    ((writes t).map fun w => w.event.id).Nodup → .cleared ∉ t → (∀ w, .crashed w ∉ t) →
    (∀ id, (s.publisher id).inFlight = none) →
    ∀ key, IsNewest t key (s.hub.store.read key) := by
  intro hall
  obtain ⟨s, run, hrest, hread⟩ := exists_overlap (.fail (.rejected "no"))
    (.refused ⟨2, sharedEvent "b"⟩) ⟨1, sharedEvent "a"⟩ (by decide +kernel)
  have hnewest := hall _ s run (by decide +kernel) (by decide +kernel)
    (fun w hw => by simp [overlapMarks] at hw) hrest sharedKey
  rw [hread] at hnewest
  rcases hnewest with ⟨hinvalid, _⟩ | ⟨haccepted, _⟩
  · exact absurd (congrArg Stamped.stamp hinvalid) (by decide)
  · simp [overlapMarks] at haccepted

end Service

end Observatory
