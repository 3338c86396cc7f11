import Mathlib
import Observatory.Event.Basic

/-!
# Sets of parameters as maps

A set in which no name is there twice is a finite map, and stays one whatever is inserted and
removed: a name stands for the parameter that was last inserted under it and not removed since. The
set is in the order in which its names were inserted: a name that is inserted again keeps its place,
and one that was removed in between goes to the end.
-/

namespace Observatory

namespace ParameterSet

/-- A change of a set. -/
inductive Edit where
  | insert (p : Parameter)
  | remove (name : String)
  deriving DecidableEq

/-- The name that an edit is about. -/
def Edit.name : Edit → String
  | .insert p => p.name
  | .remove name => name

/-- The parameter that the name of an edit stands for afterwards. -/
def Edit.result? : Edit → Option Parameter
  | .insert p => some p
  | .remove _ => none

variable {s : ParameterSet} {name : String}

/-! ## Names -/

theorem insertInto_of_not_mem {p : Parameter} {params : List Parameter}
    (h : p.name ∉ params.map Parameter.name) : insertInto p params = params ++ [p] := by
  induction params with
  | nil => rfl
  | cons q rest ih =>
    rw [List.map_cons, List.mem_cons, not_or] at h
    rw [insertInto, if_neg (Ne.symm h.1), ih h.2, List.cons_append]

theorem map_name_insertInto_of_mem {p : Parameter} {params : List Parameter}
    (h : p.name ∈ params.map Parameter.name) :
    (insertInto p params).map Parameter.name = params.map Parameter.name := by
  induction params with
  | nil => cases h
  | cons q rest ih =>
    rw [insertInto]
    split_ifs with hname
    · rw [List.map_cons, List.map_cons, hname]
    · have hrest : p.name ∈ rest.map Parameter.name := by
        rw [List.map_cons, List.mem_cons] at h
        exact h.resolve_left (Ne.symm hname)
      rw [List.map_cons, List.map_cons, ih hrest]

theorem names_insert (s : ParameterSet) (p : Parameter) :
    (s.insert p).names = if p.name ∈ s.names then s.names else s.names ++ [p.name] := by
  unfold names insert
  split
  next hmem => exact map_name_insertInto_of_mem hmem
  next hmem => rw [insertInto_of_not_mem hmem, List.map_append, List.map_singleton]

theorem nodup_insert (h : s.names.Nodup) (p : Parameter) : (s.insert p).names.Nodup := by
  rw [names_insert]
  split
  next => exact h
  next hmem =>
    rw [← List.concat_eq_append]
    exact h.concat hmem

theorem names_erase (s : ParameterSet) (name : String) :
    (s.erase name).names = s.names.erase name := by
  unfold names erase
  rw [List.erase_eq_eraseP', List.eraseP_map]
  rfl

theorem nodup_erase (h : s.names.Nodup) (name : String) : (s.erase name).names.Nodup := by
  rw [names_erase]
  exact h.erase name

theorem contains_eq_false_iff : s.contains name = false ↔ name ∉ s.names := by
  simp [contains, get?, names]

/-- Where no name is there twice, no parameter of an erased name is left. -/
theorem contains_erase (h : s.names.Nodup) (name : String) :
    (s.erase name).contains name = false := by
  rw [contains_eq_false_iff, names_erase]
  exact h.not_mem_erase

/-! ## Parameters -/

theorem mem_names_iff : name ∈ s.names ↔ (s.get? name).isSome = true := by
  rw [← not_iff_not, ← contains_eq_false_iff, Bool.not_eq_true]
  rfl

theorem get?_insert (s : ParameterSet) (p : Parameter) (name : String) :
    (s.insert p).get? name = if p.name = name then some p else s.get? name := by
  obtain ⟨params⟩ := s
  simp only [get?, insert]
  induction params with
  | nil => by_cases h : p.name = name <;> simp [insertInto, h]
  | cons q rest ih =>
    rw [insertInto]
    split_ifs with hplace hname hname
    · simp [hname]
    · simp [hplace, hname]
    · have hother : (q.name == name) = false := by simpa [← hname] using hplace
      rw [List.find?_cons, hother]
      simpa [hname] using ih
    · rw [List.find?_cons, List.find?_cons, ih, if_neg hname]

theorem get?_erase_of_ne (s : ParameterSet) {name name' : String} (h : name' ≠ name) :
    (s.erase name').get? name = s.get? name := by
  obtain ⟨params⟩ := s
  simp only [get?, erase]
  induction params with
  | nil => rfl
  | cons q rest ih =>
    by_cases hplace : q.name = name'
    · simp [hplace, h]
    · rw [List.eraseP_cons_of_neg (by simpa using hplace), List.find?_cons, List.find?_cons, ih]

theorem get?_erase (h : s.names.Nodup) (name' name : String) :
    (s.erase name').get? name = if name' = name then none else s.get? name := by
  split_ifs with heq
  · subst heq
    have hgone := contains_erase h name'
    rwa [contains, Option.isSome_eq_false_iff, Option.isNone_iff_eq_none] at hgone
  · exact s.get?_erase_of_ne heq

theorem name_of_get? {p : Parameter} (h : s.get? name = some p) : p.name = name := by
  simpa using List.find?_some h

theorem get?_of_mem (h : s.names.Nodup) {p : Parameter} (hp : p ∈ s.toList) :
    s.get? p.name = some p := by
  cases hget : s.get? p.name with
  | none =>
    have hname : p.name ∈ s.names := List.mem_map_of_mem hp
    rw [mem_names_iff, hget] at hname
    cases hname
  | some q =>
    have hq : q ∈ s.toList := List.mem_of_find?_eq_some hget
    rw [List.inj_on_of_nodup_map h hq hp (name_of_get? hget)]

/-- The parameters of other names, in order. -/
def others (s : ParameterSet) (name : String) : List Parameter :=
  s.toList.filter fun p => p.name ≠ name

theorem others_insert (s : ParameterSet) (p : Parameter) :
    (s.insert p).others p.name = s.others p.name := by
  obtain ⟨params⟩ := s
  simp only [others, insert]
  induction params with
  | nil => simp [insertInto]
  | cons q rest ih =>
    rw [insertInto]
    split_ifs with hplace
    · simp [hplace]
    · rw [List.filter_cons, List.filter_cons, ih]

theorem others_erase (s : ParameterSet) (name : String) :
    (s.erase name).others name = s.others name := by
  obtain ⟨params⟩ := s
  simp only [others, erase]
  induction params with
  | nil => rfl
  | cons q rest ih =>
    by_cases hplace : q.name = name
    · simp [hplace]
    · rw [List.eraseP_cons_of_neg (by simpa using hplace), List.filter_cons, List.filter_cons, ih]

/-! ## Edits -/

/-- The set after an edit. -/
def edit (s : ParameterSet) : Edit → ParameterSet
  | .insert p => s.insert p
  | .remove name => (s.remove name).2

theorem nodup_edit (h : s.names.Nodup) (e : Edit) : (s.edit e).names.Nodup := by
  cases e with
  | insert p => exact nodup_insert h p
  | remove name => exact nodup_erase h name

theorem get?_edit (h : s.names.Nodup) (e : Edit) (name : String) :
    (s.edit e).get? name = if e.name = name then e.result? else s.get? name := by
  cases e with
  | insert p => exact s.get?_insert p name
  | remove name' => exact get?_erase h name' name

/-- The set after some edits. -/
def edited (s : ParameterSet) (edits : List Edit) : ParameterSet :=
  edits.foldl edit s

theorem edited_concat (s : ParameterSet) (edits : List Edit) (e : Edit) :
    s.edited (edits ++ [e]) = (s.edited edits).edit e :=
  List.foldl_concat edit s e edits

/-- The parameter that was last inserted under a name and not removed since. -/
def lastUnder (s : ParameterSet) (edits : List Edit) (name : String) : Option Parameter :=
  match edits.reverse.find? fun e => e.name = name with
  | some e => e.result?
  | none => s.get? name

theorem lastUnder_concat (s : ParameterSet) (edits : List Edit) (e : Edit) (name : String) :
    s.lastUnder (edits ++ [e]) name =
      if e.name = name then e.result? else s.lastUnder edits name := by
  unfold lastUnder
  rw [List.reverse_concat, List.find?_cons]
  split_ifs with h <;> simp [h]

/-- The insertion by which the name is there after some edits, counted from the beginning: it was
absent before, and was not removed since. The names of the first set were inserted one after another
before all edits. -/
inductive InsertedAt (s : ParameterSet) (name : String) : List Edit → Nat → Prop
  | before {edits : List Edit} : name ∈ s.names → .remove name ∉ edits →
      InsertedAt s name edits (s.names.idxOf name)
  | inserted {earlier later : List Edit} {p : Parameter} : p.name = name →
      s.lastUnder earlier name = none → .remove name ∉ later →
      InsertedAt s name (earlier ++ .insert p :: later) (s.size + earlier.length)

namespace InsertedAt

variable {edits : List Edit} {i : Nat}

theorem lt (h : InsertedAt s name edits i) : i < s.size + edits.length := by
  cases h with
  | before hmem =>
    have hlt := List.idxOf_lt_length_of_mem hmem
    rw [names, List.length_map] at hlt
    exact hlt.trans_le (Nat.le_add_right _ _)
  | inserted =>
    rw [List.length_append, List.length_cons]
    omega

theorem concat (h : InsertedAt s name edits i) {e : Edit} (hkept : e ≠ .remove name) :
    InsertedAt s name (edits ++ [e]) i := by
  cases h with
  | before hmem hedits =>
    exact .before hmem (by simp [hedits, hkept.symm])
  | inserted hname habsent hlater =>
    rw [List.append_assoc, List.cons_append]
    exact .inserted hname habsent (by simp [hlater, hkept.symm])

theorem nil_iff : InsertedAt s name [] i ↔ name ∈ s.names ∧ i = s.names.idxOf name := by
  refine ⟨fun h => ?_, fun ⟨hmem, hi⟩ => hi ▸ .before hmem List.not_mem_nil⟩
  generalize hedits : [] = edits at h
  cases h with
  | before hmem => exact ⟨hmem, rfl⟩
  | inserted =>
    exact absurd hedits.symm (List.append_ne_nil_of_right_ne_nil _ (List.cons_ne_nil _ _))

/-- An edit lets a name that is there keep its place, takes it away, or lets an absent one come. -/
theorem cases_concat {e : Edit} (h : InsertedAt s name (edits ++ [e]) i) :
    InsertedAt s name edits i ∧ e ≠ .remove name ∨
      ∃ p, e = .insert p ∧ p.name = name ∧ s.lastUnder edits name = none ∧
        i = s.size + edits.length := by
  generalize hall : edits ++ [e] = all at h
  cases h with
  | before hmem hkept =>
    rw [← hall, List.mem_append, List.mem_singleton, not_or] at hkept
    exact .inl ⟨.before hmem hkept.1, Ne.symm hkept.2⟩
  | @inserted earlier later p hname habsent hkept =>
    rcases List.eq_nil_or_concat later with rfl | ⟨rest, last, rfl⟩
    · obtain ⟨rfl, rfl⟩ := List.append_inj' hall rfl |>.imp_right List.singleton_inj.1
      exact .inr ⟨p, rfl, hname, habsent, rfl⟩
    · rw [List.concat_eq_append, ← List.cons_append, ← List.append_assoc] at hall
      obtain ⟨rfl, rfl⟩ := List.append_inj' hall rfl |>.imp_right List.singleton_inj.1
      rw [List.concat_eq_append, List.mem_append, List.mem_singleton, not_or] at hkept
      exact .inl ⟨.inserted hname habsent hkept.1, Ne.symm hkept.2⟩

end InsertedAt

/-! ## Sets as maps -/

/-- The state of a set after some edits, told by the edits. -/
structure Tracks (s : ParameterSet) (edits : List Edit) : Prop where
  nodup : (s.edited edits).names.Nodup
  get : ∀ name, (s.edited edits).get? name = s.lastUnder edits name
  insertedAt : ∀ name, name ∈ (s.edited edits).names ↔ ∃ i, InsertedAt s name edits i
  order : (s.edited edits).names.Pairwise fun name name' =>
    ∀ i j, InsertedAt s name edits i → InsertedAt s name' edits j → i < j

namespace Tracks

variable {edits : List Edit}

theorem nil (h : s.names.Nodup) : Tracks s [] where
  nodup := h
  get _ := rfl
  insertedAt name := by simp [InsertedAt.nil_iff, edited]
  order := by
    rw [List.pairwise_iff_getElem]
    intro k l hk hl hlt i j hi hj
    obtain ⟨-, rfl⟩ := InsertedAt.nil_iff.1 hi
    obtain ⟨-, rfl⟩ := InsertedAt.nil_iff.1 hj
    exact (h.idxOf_getElem k hk).trans_lt (hlt.trans_eq (h.idxOf_getElem l hl).symm)

/-- A name that was there before an edit has not come since. -/
theorem insertedAt_of_concat (h : Tracks s edits) {e : Edit} {i : Nat}
    (hmem : name ∈ (s.edited edits).names) (hinserted : InsertedAt s name (edits ++ [e]) i) :
    InsertedAt s name edits i := by
  rcases hinserted.cases_concat with ⟨hearlier, -⟩ | ⟨p, -, -, habsent, -⟩
  · exact hearlier
  · rw [mem_names_iff, h.get, habsent] at hmem
    cases hmem

theorem mem_names_concat (h : Tracks s edits) (e : Edit) (name : String) :
    name ∈ (s.edited (edits ++ [e])).names ↔ ∃ i, InsertedAt s name (edits ++ [e]) i := by
  rw [mem_names_iff, edited_concat, get?_edit h.nodup]
  constructor
  · intro hthere
    split_ifs at hthere with hname
    · -- The edit is an insertion, and what it replaces was there before it.
      cases e with
      | remove => cases hthere
      | insert p =>
        by_cases hmem : name ∈ (s.edited edits).names
        · obtain ⟨i, hinserted⟩ := (h.insertedAt name).1 hmem
          exact ⟨i, hinserted.concat Edit.noConfusion⟩
        · rw [mem_names_iff, h.get, Option.not_isSome_iff_eq_none] at hmem
          exact ⟨_, .inserted hname hmem List.not_mem_nil⟩
    · obtain ⟨i, hinserted⟩ := (h.insertedAt name).1 (mem_names_iff.2 hthere)
      exact ⟨i, hinserted.concat fun heq => hname (congrArg Edit.name heq)⟩
  · rintro ⟨i, hinserted⟩
    rcases hinserted.cases_concat with ⟨hearlier, hkept⟩ | ⟨p, rfl, hname, -⟩
    · split_ifs with hname
      · cases e with
        | insert p => rfl
        | remove name' => exact absurd (congrArg Edit.remove hname) hkept
      · exact mem_names_iff.1 ((h.insertedAt name).2 ⟨i, hearlier⟩)
    · rw [if_pos (show (Edit.insert p).name = name from hname)]
      rfl

theorem order_concat (h : Tracks s edits) (e : Edit) :
    (s.edited (edits ++ [e])).names.Pairwise fun name name' =>
      ∀ i j, InsertedAt s name (edits ++ [e]) i → InsertedAt s name' (edits ++ [e]) j → i < j := by
  have hearlier : (s.edited edits).names.Pairwise fun name name' =>
      ∀ i j, InsertedAt s name (edits ++ [e]) i → InsertedAt s name' (edits ++ [e]) j → i < j :=
    h.order.imp_of_mem fun hmem hmem' horder i j hi hj =>
      horder i j (h.insertedAt_of_concat hmem hi) (h.insertedAt_of_concat hmem' hj)
  rw [edited_concat]
  cases e with
  | remove name =>
    rw [show ((s.edited edits).edit (.remove name)).names = _ from names_erase _ name]
    exact hearlier.sublist List.erase_sublist
  | insert p =>
    rw [show ((s.edited edits).edit (.insert p)).names = _ from names_insert _ p]
    split_ifs with hmem
    · exact hearlier
    · -- The new name comes at the end, with the last edit.
      refine List.pairwise_append.2 ⟨hearlier, List.pairwise_singleton _ _, ?_⟩
      intro name hname name' hname' i j hi hj
      obtain rfl := List.mem_singleton.1 hname'
      rcases hj.cases_concat with ⟨hthere, -⟩ | ⟨-, -, -, -, rfl⟩
      · exact absurd ((h.insertedAt p.name).2 ⟨j, hthere⟩) hmem
      · exact (h.insertedAt_of_concat hname hi).lt

theorem concat (h : Tracks s edits) (e : Edit) : Tracks s (edits ++ [e]) where
  nodup := by
    rw [edited_concat]
    exact nodup_edit h.nodup e
  get name := by rw [edited_concat, get?_edit h.nodup, lastUnder_concat, h.get]
  insertedAt := h.mem_names_concat e
  order := h.order_concat e

end Tracks

theorem tracks (h : s.names.Nodup) (edits : List Edit) : Tracks s edits := by
  induction edits using List.reverseRecOn with
  | nil => exact .nil h
  | append_singleton edits e ih => exact ih.concat e

/-- What is to hold of a set after some edits if sets are maps, in the order in which their names
were inserted. -/
structure Maps (s : ParameterSet) (edits : List Edit) : Prop extends Tracks s edits where
  contains : ∀ name, (s.edited edits).contains name = (s.lastUnder edits name).isSome
  /-- Removing gives back what was there. -/
  removed : ∀ name, ((s.edited edits).remove name).1 = s.lastUnder edits name
  /-- The size is the number of names that are there. -/
  size : ∃ present : Finset String,
    (∀ name, name ∈ present ↔ (s.lastUnder edits name).isSome = true) ∧
      (s.edited edits).size = present.card
  /-- Every place holds what its name stands for. -/
  values : (s.edited edits).toList.map some = (s.edited edits).names.map (s.lastUnder edits)
  /-- An edit lets the parameters of other names be. -/
  others : ∀ e name, e.name ≠ name →
    ((s.edited edits).edit e).get? name = (s.edited edits).get? name

theorem Tracks.maps {edits : List Edit} (h : Tracks s edits) : Maps s edits where
  toTracks := h
  contains name := congrArg Option.isSome (h.get name)
  removed := h.get
  size := by
    refine ⟨⟨(s.edited edits).names, h.nodup⟩, fun name => ?_, ?_⟩
    · rw [← h.get, ← mem_names_iff]
      rfl
    · exact (List.length_map _).symm
  values := by
    rw [names, List.map_map]
    refine List.map_congr_left fun p hp => ?_
    rw [Function.comp_apply, ← h.get, get?_of_mem h.nodup hp]
  others e name hname := by rw [get?_edit h.nodup, if_neg hname]

end ParameterSet

/-! ## Events -/

/-- One event's parameters are, but for those of one name, another one's, in order. No name is
there twice. -/
structure Event.KeepsOthers (e changed : Event) (name : String) : Prop where
  nodup : changed.params.names.Nodup
  others : changed.params.others name = e.params.others name

namespace ParameterSet

/-- A set in which no name is there twice is a map in the order in which its names were inserted,
whatever is inserted and removed. So an event that gets such a set has one again when it gets a
parameter or loses one, and its other parameters stay as they were. -/
theorem maps_edits (h : s.names.Nodup) (edits : List Edit) :
    Maps s edits ∧ ∀ e : Event, e.params = s.edited edits → ∀ fresh,
      (∀ p, e.KeepsOthers (e.withParameter p fresh) p.name) ∧
        ∀ name, e.KeepsOthers (e.withoutParameter name fresh) name := by
  have htracks := tracks h edits
  refine ⟨htracks.maps, fun e hparams fresh => ?_⟩
  have hnodup : e.params.names.Nodup := hparams ▸ htracks.nodup
  exact ⟨fun p => ⟨nodup_insert hnodup p, others_insert e.params p⟩,
    fun name => ⟨nodup_erase hnodup name, others_erase e.params name⟩⟩

/-- Two coordinates of a position. -/
def coordinates : ParameterSet :=
  ⟨[⟨"ra", [.int 1]⟩, ⟨"dec", [.int 2]⟩]⟩

/-- The first coordinate is taken out and put back, with a new name and a new value of the second
one in between. -/
def rearrangement : List Edit :=
  [.remove "ra", .insert ⟨"epoch", []⟩, .insert ⟨"dec", [.int 3]⟩, .insert ⟨"ra", [.int 4]⟩]

/-- The second coordinate has kept its place before the new name, and the first one has not. -/
theorem maps_edits_coordinates :
    coordinates.names.Nodup ∧ Maps coordinates rearrangement ∧
      (coordinates.edited rearrangement).names = ["dec", "epoch", "ra"] ∧
      ((coordinates.edited rearrangement).remove "dec").1 = some ⟨"dec", [.int 3]⟩ ∧
      ∀ e : Event, e.params = coordinates.edited rearrangement → ∀ fresh,
        (e.withoutParameter "epoch" fresh).params.others "epoch" = e.params.others "epoch" := by
  have hnodup : coordinates.names.Nodup := by decide
  obtain ⟨hmaps, hevent⟩ := maps_edits hnodup rearrangement
  exact ⟨hnodup, hmaps, by decide, hmaps.removed "dec",
    fun e hparams fresh => ((hevent e hparams fresh).2 "epoch").others⟩

end ParameterSet

end Observatory
