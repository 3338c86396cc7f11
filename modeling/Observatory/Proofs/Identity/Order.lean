import Mathlib
import Observatory.Identity.Key

/-!
# The order of keys

Keys are in a total order, and keys that compare as equal are the same. Sorting keys keeps each of
them, and keeps it once.
-/

namespace Observatory

open Std

namespace Subsystem

theorem eq_of_rank {a b : Subsystem} (h : a.rank = b.rank) : a = b := by
  have hrank := ofRank?_rank a
  rw [h, ofRank?_rank] at hrank
  exact (Option.some.inj hrank).symm

instance : TransOrd Subsystem :=
  inferInstanceAs (TransCmp (compareOn Subsystem.rank))

instance : LawfulEqOrd Subsystem where
  eq_of_compare h := eq_of_rank (LawfulEqOrd.eq_of_compare h)

end Subsystem

instance : TransOrd Source :=
  inferInstanceAs (TransCmp (compareLex (compareOn Source.subsystem) (compareOn Source.component)))

instance : LawfulEqOrd Source where
  eq_of_compare {a b} h := by
    obtain ⟨hsubsystem, hcomponent⟩ := Ordering.then_eq_eq.1 h
    obtain ⟨subsystem, component⟩ := a
    obtain rfl := LawfulEqOrd.eq_of_compare hsubsystem
    obtain rfl := LawfulEqOrd.eq_of_compare hcomponent
    rfl

instance : TransOrd EventName :=
  inferInstanceAs (TransCmp (compareOn EventName.text))

instance : LawfulEqOrd EventName where
  eq_of_compare {a b} h := by
    have htext : compare a.text b.text = .eq := h
    obtain ⟨text⟩ := a
    obtain rfl := LawfulEqOrd.eq_of_compare htext
    rfl

namespace EventKey

instance : TransOrd EventKey :=
  inferInstanceAs (TransCmp (compareLex (compareOn EventKey.source) (compareOn EventKey.name)))

instance : LawfulEqOrd EventKey where
  eq_of_compare {a b} h := by
    obtain ⟨hsource, hname⟩ := Ordering.then_eq_eq.1 h
    obtain ⟨source, name⟩ := a
    obtain rfl := LawfulEqOrd.eq_of_compare hsource
    obtain rfl := LawfulEqOrd.eq_of_compare hname
    rfl

theorem mem_insertSorted {k k' : EventKey} {keys : List EventKey} :
    k' ∈ insertSorted k keys ↔ k' = k ∨ k' ∈ keys := by
  induction keys with
  | nil => exact List.mem_cons
  | cons x keys ih =>
    unfold insertSorted
    split
    next => exact List.mem_cons
    next heq =>
      obtain rfl := LawfulEqOrd.eq_of_compare heq
      rw [List.mem_cons]
      exact (or_self_left).symm
    next =>
      rw [List.mem_cons, List.mem_cons, ih]
      exact or_left_comm

theorem mem_sortDistinct {key : EventKey} {keys : List EventKey} :
    key ∈ sortDistinct keys ↔ key ∈ keys := by
  induction keys with
  | nil => exact Iff.rfl
  | cons k keys ih =>
    change key ∈ insertSorted k (sortDistinct keys) ↔ key ∈ k :: keys
    rw [mem_insertSorted, ih, List.mem_cons]

theorem ascending_insertSorted {k : EventKey} {keys : List EventKey}
    (h : keys.Pairwise fun a b => compare a b = .lt) :
    (insertSorted k keys).Pairwise fun a b => compare a b = .lt := by
  induction keys with
  | nil => exact List.pairwise_singleton _ _
  | cons x keys ih =>
    obtain ⟨hx, hkeys⟩ := List.pairwise_cons.1 h
    unfold insertSorted
    split
    next hlt =>
      refine List.pairwise_cons.2 ⟨fun y hy => ?_, h⟩
      rcases List.mem_cons.1 hy with rfl | hy
      · exact hlt
      · exact TransCmp.lt_trans hlt (hx y hy)
    next => exact h
    next hgt =>
      refine List.pairwise_cons.2 ⟨fun y hy => ?_, ih hkeys⟩
      rcases mem_insertSorted.1 hy with rfl | hy
      · exact OrientedCmp.lt_of_gt hgt
      · exact hx y hy

theorem ascending_sortDistinct (keys : List EventKey) :
    (sortDistinct keys).Pairwise fun a b => compare a b = .lt := by
  induction keys with
  | nil => exact List.Pairwise.nil
  | cons k keys ih => exact ascending_insertSorted ih

theorem nodup_sortDistinct (keys : List EventKey) : (sortDistinct keys).Nodup := by
  refine (ascending_sortDistinct keys).imp ?_
  rintro a b hlt rfl
  have hself : compare a a = .eq := ReflCmp.compare_self
  rw [hself] at hlt
  cases hlt

end EventKey

end Observatory
