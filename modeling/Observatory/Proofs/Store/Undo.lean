import Observatory.Proofs.Store.History

/-!
# Undoing a put after later puts

A put is undone by the identifier of its event. Identifiers are not names of puts: a copy of an
event at another time has the identifier of the event, and the same event may be put again. So an
undoing takes back whatever put is the newest on the key, if only the identifiers are the same. A
put in between does not matter, whatever its identifier is.
-/

namespace Observatory.Store

variable {s : Store} {key : EventKey} {ops : List Op}

/-! ## Later puts -/

def Op.putsOn (key : EventKey) : Op → List Event
  | .put key' event => if key' = key then [event] else []
  | .restore .. | .clear => []

def putsOn (key : EventKey) (ops : List Op) : List Event :=
  ops.flatMap (Op.putsOn key)

/-- Of all the changes only puts concern the entry of the key. -/
def OnlyPuts (key : EventKey) (ops : List Op) : Prop :=
  ∀ op ∈ ops, op.Touches key → ∃ event, op = .put key event

theorem Op.putsOn_of_untouched {op : Op} (h : ¬op.Touches key) : op.putsOn key = [] := by
  cases op with
  | put key' event => exact if_neg h
  | restore => rfl
  | clear => rfl

theorem lastStamp_le_foldl (s : Store) (ops : List Op) :
    s.lastStamp ≤ (ops.foldl Op.run s).lastStamp := by
  induction ops generalizing s with
  | nil => exact Nat.le_refl _
  | cons op ops ih =>
    have hrun : s.lastStamp ≤ (op.run s).lastStamp := by
      cases op with
      | put => exact Nat.le_succ _
      | restore => exact (lastStamp_restore ..).ge
      | clear => exact Nat.le_refl _
    exact hrun.trans (ih (op.run s))

/-- What the newest of some later puts on a key makes of its entry. -/
inductive Overwritten (s s' : Store) (key : EventKey) : Option Event → Prop where
  | never (hentry : s'.entries.get? key = s.entries.get? key) : Overwritten s s' key none
  | replaced {newest : Event} (stamp : Nat) (hstamp : s.lastStamp < stamp)
      (hentry : s'.entries.get? key = some ⟨stamp, newest⟩) : Overwritten s s' key (some newest)

theorem overwritten_foldl (hops : OnlyPuts key ops) :
    Overwritten s (ops.foldl Op.run s) key (putsOn key ops).getLast? := by
  -- The last change is the newest put on the key, or it leaves the entry to the changes before it.
  induction ops using List.reverseRecOn with
  | nil => exact .never rfl
  | append_singleton ops op ih =>
    obtain ⟨hbefore, hop⟩ := List.forall_mem_append.1 hops
    rw [List.foldl_append, List.foldl_cons, List.foldl_nil, putsOn, List.flatMap_append,
      List.flatMap_singleton]
    by_cases htouches : op.Touches key
    · obtain ⟨event, rfl⟩ := hop op List.mem_cons_self htouches
      have hlater := Nat.lt_succ_of_le (lastStamp_le_foldl s ops)
      rw [Op.putsOn, if_pos rfl, List.getLast?_concat]
      apply Overwritten.replaced _ hlater
      rw [Op.run, get?_put, if_pos rfl]
    · rw [Op.putsOn_of_untouched htouches, List.append_nil]
      have hsame := get?_run_of_untouched (s := ops.foldl Op.run s) htouches
      have hover := ih hbefore
      rw [putsOn] at hover
      generalize (ops.flatMap (Op.putsOn key)).getLast? = newest at hover ⊢
      cases hover with
      | never hentry => exact .never (hsame.trans hentry)
      | replaced stamp hstamp hentry => exact .replaced stamp hstamp (hsame.trans hentry)

/-! ## Undoing -/

/-- Undoing a put takes back what the put wrote and nothing else. -/
structure TakesOwn (s : Store) (key : EventKey) (write : Write) : Prop where
  /-- The entry changes only if it is what the put wrote. -/
  own : (s.restore key write.written.event.id write.previous).entries.get? key ≠
    s.entries.get? key → s.entries.get? key = some write.written
  /-- What was written later stays. -/
  newer : ∀ current, s.entries.get? key = some current → write.written.stamp < current.stamp →
    (s.restore key write.written.event.id write.previous).entries.get? key = some current

section

variable {write : Write} {current : Stamped}

theorem takesOwn_of_current (hcurrent : s.entries.get? key = some write.written) :
    TakesOwn s key write where
  own _ := hcurrent
  newer current h hnewer := by
    obtain rfl := Option.some.inj (hcurrent.symm.trans h)
    exact absurd hnewer (Nat.lt_irrefl _)

theorem takesOwn_of_ne (hcurrent : s.entries.get? key = some current)
    (hid : current.event.id ≠ write.written.event.id) : TakesOwn s key write := by
  have hkept : s.restore key write.written.event.id write.previous = s := restore_of_ne hcurrent hid
  constructor
  · intro hchanged
    exact absurd (congrArg (·.entries.get? key) hkept) hchanged
  · intro newer hnewer _
    rw [hkept]
    exact hnewer

/-- A newer put of the same identifier is taken back, for what was replaced is older. -/
theorem not_takesOwn_of_eq (hcurrent : s.entries.get? key = some current)
    (hid : current.event.id = write.written.event.id)
    (hnewer : write.written.stamp < current.stamp)
    (hprevious : write.previous ≠ some current) : ¬TakesOwn s key write := by
  intro htakes
  have hback : (s.restore key write.written.event.id write.previous).entries.get? key =
      write.previous := get?_restore_self hcurrent hid
  rw [htakes.newer current hcurrent hnewer] at hback
  exact hprevious hback.symm

end

/-- After later puts on the key a put is undone as it is to be, just if the newest of them has an
event of another identifier, or there is none. -/
theorem History.takesOwn_iff {made : List Put} (history : History made s) (event : Event)
    (hops : OnlyPuts key ops) :
    TakesOwn (ops.foldl Op.run (s.put key event).2) key (s.put key event).1 ↔
      ∀ newest, (putsOn key ops).getLast? = some newest → newest.id ≠ event.id := by
  have hover := overwritten_foldl (s := (s.put key event).2) hops
  generalize ops.foldl Op.run (s.put key event).2 = later at hover
  cases hlast : (putsOn key ops).getLast? with
  | none =>
    rw [hlast] at hover
    cases hover with | never hentry =>
    rw [get?_put, if_pos rfl] at hentry
    exact iff_of_true (takesOwn_of_current hentry) (by simp)
  | some newest =>
    rw [hlast] at hover
    cases hover with | replaced stamp hstamp hentry =>
    rw [lastStamp_put] at hstamp
    by_cases hid : newest.id = event.id
    · have hprevious : (s.put key event).1.previous ≠ some ⟨stamp, newest⟩ := by
        intro hprevious
        have hledger := history.ledger
        have hold : stamp ≤ s.lastStamp := (hledger.stamp_bounds (hledger.owned key _ hprevious)).2
        omega
      exact iff_of_false (not_takesOwn_of_eq hentry hid hstamp hprevious)
        fun hother => hother newest rfl hid
    · refine iff_of_true (takesOwn_of_ne hentry hid) ?_
      rintro _ ⟨⟩
      exact hid

/-- The same event, a change on another key, and another event. -/
def again : List Op :=
  [.put (keyOf "a") (eventOf "a" "x"), .restore (keyOf "b") ⟨"x"⟩ none,
    .put (keyOf "a") (eventOf "a" "y")]

/-- The same event is put in between, and then one with another identifier: undoing the first put
leaves that one in place. If the same event is put once more, its put is taken back. -/
theorem History.takesOwn_iff_again : ∃ made s, History made s ∧
    OnlyPuts (keyOf "a") again ∧ OnlyPuts (keyOf "a") (again ++ again.take 1) ∧
    TakesOwn (again.foldl Op.run (s.put (keyOf "a") (eventOf "a" "x")).2) (keyOf "a")
      (s.put (keyOf "a") (eventOf "a" "x")).1 ∧
    ¬TakesOwn ((again ++ again.take 1).foldl Op.run (s.put (keyOf "a") (eventOf "a" "x")).2)
      (keyOf "a") (s.put (keyOf "a") (eventOf "a" "x")).1 := by
  have history := History.start.step (.put (keyOf "a") (eventOf "a" "x")) trivial
  have hagain : OnlyPuts (keyOf "a") again := by
    simp [OnlyPuts, again, Op.Touches, keyOf]
  have honce : OnlyPuts (keyOf "a") (again ++ again.take 1) := by
    simp [OnlyPuts, again, Op.Touches, keyOf]
  refine ⟨_, _, history, hagain, honce, (history.takesOwn_iff _ hagain).2 ?_, fun htakes => ?_⟩
  · rintro _ ⟨⟩
    decide
  · exact (history.takesOwn_iff _ honce).1 htakes _ rfl rfl

/-- An event of the key `a` is put, and then a second one. -/
def putTwice (second : Event) : Store :=
  ((empty.put (keyOf "a") (eventOf "a" "x")).2.put (keyOf "a") second).2

/-- The same event put again is taken back by undoing the first put, and so is its copy at another
time. -/
theorem not_takesOwn :
    ¬TakesOwn (putTwice (eventOf "a" "x")) (keyOf "a") (empty.put (keyOf "a") (eventOf "a" "x")).1 ∧
    ¬TakesOwn (putTwice ((eventOf "a" "x").withTime (UtcTime.epoch.plus 1))) (keyOf "a")
      (empty.put (keyOf "a") (eventOf "a" "x")).1 := by
  constructor
  · intro htakes
    cases (htakes.newer ⟨2, _⟩ rfl (by decide) : none = some _)
  · intro htakes
    cases (htakes.newer ⟨2, _⟩ rfl (by decide) : none = some _)

end Observatory.Store
