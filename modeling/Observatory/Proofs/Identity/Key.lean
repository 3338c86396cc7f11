import Mathlib
import Observatory.Identity.Key

/-!
# Reading back keys

A key whose component name and event name keep the rules is read back from its written form, so
such keys are told apart by their written forms: the separators that end the subsystem and the
component are the first two of the text.
-/

namespace Observatory

theorem cutAtSeparator_append {front : List Char} (h : keySeparator ∉ front) (rest : List Char) :
    cutAtSeparator (front ++ keySeparator :: rest) = some (front, rest) := by
  have hfront : ∀ c ∈ front, (c != keySeparator) = true := fun c hc =>
    bne_iff_ne.2 fun heq => h (heq ▸ hc)
  unfold cutAtSeparator
  rw [List.dropWhile_append_of_pos hfront, List.takeWhile_append_of_pos hfront]
  simp

namespace Subsystem

theorem ofName?_name (s : Subsystem) : ofName? s.name = some s := by
  cases s <;> rfl

theorem keySeparator_not_mem_name (s : Subsystem) : keySeparator ∉ s.name.toList := by
  cases s <;> decide

theorem parse_name (s : Subsystem) : parse s.name = .ok s := by
  unfold parse
  rw [ofName?_name]

end Subsystem

namespace Source

/-- Whether the component name keeps the rules. -/
def IsValid (s : Source) : Prop :=
  create s.subsystem s.component = .ok s

instance (s : Source) : Decidable s.IsValid :=
  inferInstanceAs (Decidable (_ = _))

theorem isValid_iff {s : Source} : s.IsValid ↔ fault? s.component = none := by
  unfold IsValid create
  cases fault? s.component with
  | none => exact ⟨fun _ => rfl, fun _ => rfl⟩
  | some fault => exact ⟨(nomatch ·), (nomatch ·)⟩

theorem isValid_of_create {subsystem : Subsystem} {component : String} {s : Source}
    (h : create subsystem component = .ok s) : s.IsValid := by
  unfold create at h
  cases hfault : fault? component with
  | none =>
    rw [hfault] at h
    cases h
    exact isValid_iff.2 hfault
  | some fault =>
    rw [hfault] at h
    cases h

theorem keySeparator_not_mem_component {s : Source} (h : s.IsValid) :
    keySeparator ∉ s.component.toList := by
  have hfault := isValid_iff.1 h
  unfold fault? at hfault
  dsimp only at hfault
  split_ifs at hfault with hempty hpadded hseparator
  simpa using hseparator

end Source

namespace EventName

/-- Whether the name is not empty. -/
def IsValid (n : EventName) : Prop :=
  create n.text = .ok n

instance (n : EventName) : Decidable n.IsValid :=
  inferInstanceAs (Decidable (_ = _))

theorem isValid_of_create {text : String} {n : EventName} (h : create text = .ok n) :
    n.IsValid := by
  unfold create at h
  split_ifs at h with hempty
  cases h
  exact if_neg hempty

end EventName

namespace EventKey

theorem toList_canonical (k : EventKey) : k.canonical.toList = k.source.subsystem.name.toList ++
    keySeparator :: (k.source.component.toList ++ keySeparator :: k.name.text.toList) := by
  simp [canonical, Source.text, Char.toString]

theorem parse_canonical {k : EventKey} (hsource : k.source.IsValid) (hname : k.name.IsValid) :
    parse k.canonical = .ok k := by
  -- No part before the name holds a separator, so each cut is where one part ends.
  have hsubsystem := cutAtSeparator_append k.source.subsystem.keySeparator_not_mem_name
    (k.source.component.toList ++ keySeparator :: k.name.text.toList)
  have hcomponent := cutAtSeparator_append (Source.keySeparator_not_mem_component hsource)
    k.name.text.toList
  unfold parse
  rw [toList_canonical, hsubsystem]
  dsimp only
  rw [hcomponent]
  simp only [String.ofList_toList]
  have hcreate : Source.create k.source.subsystem k.source.component = .ok k.source := hsource
  have hnamed : EventName.create k.name.text = .ok k.name := hname
  rw [Subsystem.parse_name]
  change (Source.create k.source.subsystem k.source.component >>= _) = _
  rw [hcreate]
  change (EventName.create k.name.text >>= _) = _
  rw [hnamed]
  rfl

theorem eq_of_canonical {a b : EventKey} (hsource : a.source.IsValid) (hname : a.name.IsValid)
    (hsource' : b.source.IsValid) (hname' : b.name.IsValid) (h : a.canonical = b.canonical) :
    a = b := by
  have hparse := parse_canonical hsource hname
  rw [h, parse_canonical hsource' hname'] at hparse
  exact (Except.ok.inj hparse).symm

end EventKey

end Observatory
