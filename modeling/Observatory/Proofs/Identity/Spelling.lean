import Observatory.Proofs.Identity.Key

/-!
# Spellings of keys

A text is read as a key just if its parts are a subsystem's name in any case of its letters, a
component name that keeps the rules, and an event name. The parts end at the first two separators,
whatever the event name holds. Reading forgets nothing but the case of the subsystem's letters, so
the written form of the key is the text with the subsystem's own name in front.
-/

namespace Observatory

namespace Text

variable {cs : List Char}

theorem length_trimStart_le (cs : List Char) : (trimStart cs).length ≤ cs.length :=
  (List.dropWhile_suffix _).length_le

theorem length_trimEnd_le (cs : List Char) : (trimEnd cs).length ≤ cs.length := by
  simpa [trimEnd] using length_trimStart_le cs.reverse

theorem trimStart_eq_self_iff : trimStart cs = cs ↔ ∀ c ∈ cs.head?, isBlank c = false := by
  rw [trimStart, List.dropWhile_eq_self_iff]
  cases cs <;> simp

theorem trimEnd_eq_self_iff : trimEnd cs = cs ↔ ∀ c ∈ cs.getLast?, isBlank c = false := by
  rw [trimEnd, List.reverse_eq_iff, trimStart_eq_self_iff, List.head?_reverse]

/-- A text loses nothing when it is trimmed just if neither end is blank. -/
theorem trim_eq_self_iff : trim cs = cs ↔
    (∀ c ∈ cs.head?, isBlank c = false) ∧ ∀ c ∈ cs.getLast?, isBlank c = false := by
  rw [← trimStart_eq_self_iff, ← trimEnd_eq_self_iff]
  constructor
  · intro h
    -- Neither half of the trimming can have shortened the text.
    have hlength : (trim cs).length ≤ (trimStart cs).length := length_trimEnd_le _
    rw [h] at hlength
    have hstart : trimStart cs = cs :=
      (List.dropWhile_suffix _).eq_of_length (le_antisymm (length_trimStart_le cs) hlength)
    rw [trim, hstart] at h
    exact ⟨hstart, h⟩
  · rintro ⟨hstart, hend⟩
    rw [trim, hstart, hend]

end Text

theorem cutAtSeparator_eq_some_iff {cs front rest : List Char} :
    cutAtSeparator cs = some (front, rest) ↔
      cs = front ++ keySeparator :: rest ∧ keySeparator ∉ front := by
  constructor
  · intro h
    have hwhole := List.takeWhile_append_dropWhile (p := (· != keySeparator)) (l := cs)
    have hhead := List.head?_dropWhile_not (· != keySeparator) cs
    unfold cutAtSeparator at h
    split at h
    next => cases h
    next c rest' hdrop =>
      cases h
      rw [hdrop] at hwhole hhead
      have hc : c = keySeparator := by simpa using hhead
      subst hc
      refine ⟨hwhole.symm, fun hmem => ?_⟩
      simpa using List.mem_takeWhile_imp hmem
  · rintro ⟨rfl, hfront⟩
    exact cutAtSeparator_append hfront rest

namespace Subsystem

/-- No two names differ in the case of their letters only. -/
theorem eq_of_sameIgnoringCase {a b : Subsystem}
    (h : Text.sameIgnoringCase a.name b.name = true) : a = b := by
  have hall : ∀ a ∈ all, ∀ b ∈ all, Text.sameIgnoringCase a.name b.name = true → a = b := by
    decide +kernel
  exact hall a (mem_all a) b (mem_all b) h

theorem parse_eq_ok_iff {text : String} {s : Subsystem} :
    parse text = .ok s ↔ Text.sameIgnoringCase s.name text = true := by
  have hfind : ofName? text = some s ↔ Text.sameIgnoringCase s.name text = true := by
    constructor
    · intro h
      exact List.find?_some (p := fun s : Subsystem => Text.sameIgnoringCase s.name text) h
    · intro hs
      cases hfound : ofName? text with
      | none => exact absurd hs (by simpa using List.find?_eq_none.1 hfound s (mem_all s))
      | some s' =>
        -- The first name that fits is the only one.
        have hs' : Text.sameIgnoringCase s'.name text = true :=
          List.find?_some (p := fun s : Subsystem => Text.sameIgnoringCase s.name text) hfound
        simp only [Text.sameIgnoringCase, beq_iff_eq] at hs hs'
        rw [eq_of_sameIgnoringCase (a := s') (b := s) (by simp [Text.sameIgnoringCase, hs, hs'])]
  rw [← hfind, parse]
  cases ofName? text <;> simp

end Subsystem

/-- The component name keeps the rules: it has a character, none of them a separator, and is not
blank at either end. -/
structure Source.Keeps (component : String) : Prop where
  ne_empty : component ≠ ""
  first : ∀ c ∈ component.toList.head?, Text.isBlank c = false
  last : ∀ c ∈ component.toList.getLast?, Text.isBlank c = false
  plain : keySeparator ∉ component.toList

theorem Source.create_eq_ok_iff {subsystem : Subsystem} {component : String} {s : Source} :
    create subsystem component = .ok s ↔ Keeps component ∧ s = ⟨subsystem, component⟩ := by
  have hfault : fault? component = none ↔ Keeps component := by
    have htrim : Text.trim component.toList = component.toList ↔
        (∀ c ∈ component.toList.head?, Text.isBlank c = false) ∧
          ∀ c ∈ component.toList.getLast?, Text.isBlank c = false := Text.trim_eq_self_iff
    unfold fault?
    constructor
    · intro h
      simp only at h
      split_ifs at h with hempty hpadded hseparator
      obtain ⟨hfirst, hlast⟩ := htrim.1 (by simpa using hpadded)
      exact ⟨by simpa using hempty, hfirst, hlast, by simpa using hseparator⟩
    · intro h
      simp [h.ne_empty, htrim.2 ⟨h.first, h.last⟩, h.plain]
  rw [← hfault, create]
  cases fault? component <;> simp [eq_comm]

theorem EventName.create_eq_ok_iff {text : String} {n : EventName} :
    create text = .ok n ↔ text ≠ "" ∧ n = ⟨text⟩ := by
  unfold create
  by_cases h : text = ""
  · simp [h]
  · simp [h, eq_comm (a := n)]

namespace EventKey

/-- The text falls into these parts at its first two separators. -/
structure Falls (text subsystem component name : String) : Prop where
  eq : text = subsystem ++ keySeparator.toString ++ component ++ keySeparator.toString ++ name
  subsystem_plain : keySeparator ∉ subsystem.toList
  component_plain : keySeparator ∉ component.toList

variable {text subsystem component name : String} {k : EventKey}

theorem Falls.toList (h : Falls text subsystem component name) : text.toList =
    subsystem.toList ++ keySeparator :: (component.toList ++ keySeparator :: name.toList) := by
  simp [h.eq, Char.toString]

/-- Reading takes the three parts one by one. -/
theorem parse_of_falls (h : Falls text subsystem component name) : parse text = (do
    let s ← Subsystem.parse subsystem
    let source ← Source.create s component
    return ⟨source, ← EventName.create name⟩) := by
  unfold parse
  rw [h.toList, cutAtSeparator_append h.subsystem_plain]
  dsimp only
  rw [cutAtSeparator_append h.component_plain]
  simp only [String.ofList_toList]

theorem exists_falls (h : parse text = .ok k) :
    ∃ subsystem component name, Falls text subsystem component name := by
  unfold parse at h
  split at h
  next => cases h
  next subsystem rest hfirst =>
    split at h
    next => cases h
    next component name hsecond =>
      obtain ⟨hfirst, hsubsystem⟩ := cutAtSeparator_eq_some_iff.1 hfirst
      obtain ⟨rfl, hcomponent⟩ := cutAtSeparator_eq_some_iff.1 hsecond
      refine ⟨String.ofList subsystem, String.ofList component, String.ofList name, ?_, ?_, ?_⟩
      · apply String.toList_injective
        simp [hfirst, Char.toString]
      · simpa using hsubsystem
      · simpa using hcomponent

/-- What the parts have to be, and what they are in the key. -/
structure Spells (subsystem component name : String) (k : EventKey) : Prop where
  subsystem : Text.sameIgnoringCase k.source.subsystem.name subsystem = true
  keeps : Source.Keeps component
  ne_empty : name ≠ ""
  component : k.source.component = component
  name : k.name.text = name

theorem parse_eq_ok_iff (h : Falls text subsystem component name) :
    parse text = .ok k ↔ Spells subsystem component name k := by
  rw [parse_of_falls h]
  constructor
  · intro hparse
    cases hs : Subsystem.parse subsystem with
    | error e => simp [hs, bind, Except.bind] at hparse
    | ok s =>
      cases hsource : Source.create s component with
      | error e => simp [hs, hsource, bind, Except.bind] at hparse
      | ok source =>
        cases hname : EventName.create name with
        | error e => simp [hs, hsource, hname, bind, Except.bind] at hparse
        | ok n =>
          simp only [hs, hsource, hname, bind, Except.bind, pure, Except.pure,
            Except.ok.injEq] at hparse
          subst hparse
          obtain ⟨hkeeps, rfl⟩ := Source.create_eq_ok_iff.1 hsource
          obtain ⟨hne, rfl⟩ := EventName.create_eq_ok_iff.1 hname
          exact ⟨Subsystem.parse_eq_ok_iff.1 hs, hkeeps, hne, rfl, rfl⟩
  · intro hspells
    obtain ⟨⟨s, component⟩, ⟨name⟩⟩ := k
    obtain ⟨hs, hkeeps, hne, rfl, rfl⟩ := hspells
    rw [Subsystem.parse_eq_ok_iff.2 hs]
    simp [bind, Except.bind, pure, Except.pure, Source.create_eq_ok_iff.2 ⟨hkeeps, rfl⟩,
      EventName.create_eq_ok_iff.2 ⟨hne, rfl⟩]

theorem Spells.isValid (h : Spells subsystem component name k) :
    k.source.IsValid ∧ k.name.IsValid := by
  obtain ⟨hkeeps, hne⟩ := And.intro h.keeps h.ne_empty
  rw [← h.component] at hkeeps
  rw [← h.name] at hne
  exact ⟨Source.create_eq_ok_iff.2 ⟨hkeeps, rfl⟩, EventName.create_eq_ok_iff.2 ⟨hne, rfl⟩⟩

theorem parse_source (h : Falls text subsystem component name) (hparse : parse text = .ok k) :
    Source.parse (subsystem ++ keySeparator.toString ++ component) = .ok k.source := by
  have hspells := (parse_eq_ok_iff h).1 hparse
  have htext : (subsystem ++ keySeparator.toString ++ component).toList =
      subsystem.toList ++ keySeparator :: component.toList := by
    simp [Char.toString]
  rw [Source.parse, htext, cutAtSeparator_append h.subsystem_plain]
  simp only [String.ofList_toList, Subsystem.parse_eq_ok_iff.2 hspells.subsystem]
  apply Source.create_eq_ok_iff.2
  rw [← hspells.component]
  exact ⟨hspells.component ▸ hspells.keeps, rfl⟩

/-- How a text is read as a key. -/
structure Legible (text : String) : Prop where
  /-- A text is read just if its parts at the first two separators can be parts of a key. -/
  succeeds_iff : (∃ k, parse text = .ok k) ↔ ∃ subsystem component name,
    Falls text subsystem component name ∧
      (∃ s : Subsystem, Text.sameIgnoringCase s.name subsystem = true) ∧
      Source.Keeps component ∧ name ≠ ""
  /-- The key is written as the text with the one subsystem's name that is meant in front. -/
  canonical : ∀ k subsystem component name, parse text = .ok k →
    Falls text subsystem component name →
      (∀ s : Subsystem,
        Text.sameIgnoringCase s.name subsystem = true ↔ s = k.source.subsystem) ∧
      k.canonical = k.source.subsystem.name ++ keySeparator.toString ++ component ++
        keySeparator.toString ++ name
  again : ∀ k, parse text = .ok k → parse k.canonical = .ok k
  source : ∀ k subsystem component name, parse text = .ok k →
    Falls text subsystem component name →
      Source.parse (subsystem ++ keySeparator.toString ++ component) = .ok k.source

/-- The key was put together from a source and a name that were checked. -/
def IsMade (k : EventKey) : Prop :=
  ∃ subsystem component name, Source.create subsystem component = .ok k.source ∧
    EventName.create name = .ok k.name

theorem IsMade.isValid (h : k.IsMade) : k.source.IsValid ∧ k.name.IsValid := by
  obtain ⟨subsystem, component, name, hsource, hname⟩ := h
  exact ⟨Source.isValid_of_create hsource, EventName.isValid_of_create hname⟩

/-- A text is read as a key just if it is spelled like one, and the written form of what was read is
the text in the subsystem's own letters. A key that was made of checked parts is read back from its
written form, which therefore tells it apart. -/
theorem legible (text : String) : Legible text ∧
    ∀ a : EventKey, a.IsMade → parse a.canonical = .ok a ∧
      ∀ b : EventKey, b.IsMade → (a = b ↔ a.canonical = b.canonical) := by
  refine ⟨⟨?succeeds, ?canonical, ?again, ?source⟩, fun a ha => ⟨?back, fun b hb => ?apart⟩⟩
  case succeeds =>
    constructor
    · rintro ⟨k, hparse⟩
      obtain ⟨subsystem, component, name, hfalls⟩ := exists_falls hparse
      have hspells := (parse_eq_ok_iff hfalls).1 hparse
      exact ⟨subsystem, component, name, hfalls, ⟨_, hspells.subsystem⟩, hspells.keeps,
        hspells.ne_empty⟩
    · rintro ⟨subsystem, component, name, hfalls, ⟨s, hs⟩, hkeeps, hne⟩
      exact ⟨⟨⟨s, component⟩, ⟨name⟩⟩, (parse_eq_ok_iff hfalls).2 ⟨hs, hkeeps, hne, rfl, rfl⟩⟩
  case canonical =>
    intro k subsystem component name hparse hfalls
    have hspells := (parse_eq_ok_iff hfalls).1 hparse
    constructor
    · intro s
      -- Reading the name of the subsystem has one answer.
      rw [← Subsystem.parse_eq_ok_iff, Subsystem.parse_eq_ok_iff.2 hspells.subsystem]
      simp [eq_comm]
    · rw [canonical, Source.text, hspells.component, hspells.name]
  case again =>
    intro k hparse
    obtain ⟨subsystem, component, name, hfalls⟩ := exists_falls hparse
    obtain ⟨hsource, hname⟩ := ((parse_eq_ok_iff hfalls).1 hparse).isValid
    exact parse_canonical hsource hname
  case source =>
    intro k subsystem component name hparse hfalls
    exact parse_source hfalls hparse
  case back => exact parse_canonical ha.isValid.1 ha.isValid.2
  case apart =>
    constructor
    · intro h
      rw [h]
    · exact eq_of_canonical ha.isValid.1 ha.isValid.2 hb.isValid.1 hb.isValid.2

example : (parse "tcs.mount axis.position.x").map canonical =
    .ok "TCS.mount axis.position.x" := by
  decide +kernel

end EventKey

end Observatory
