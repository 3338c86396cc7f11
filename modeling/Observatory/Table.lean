/-!
# Tables

Finite maps as lists of entries. An entry keeps its place when its value is replaced, and a new
entry goes to the end.
-/

namespace Observatory

structure Table (κ α : Type) where
  entries : List (κ × α)
  deriving Repr, Inhabited, DecidableEq

namespace Table

variable {κ α : Type} [DecidableEq κ]

def empty : Table κ α := ⟨[]⟩

def size (t : Table κ α) : Nat :=
  t.entries.length

def isEmpty (t : Table κ α) : Bool :=
  t.entries.isEmpty

def keys (t : Table κ α) : List κ :=
  t.entries.map Prod.fst

def values (t : Table κ α) : List α :=
  t.entries.map Prod.snd

def find (k : κ) : List (κ × α) → Option α
  | [] => none
  | (k', a) :: rest => if k' = k then some a else find k rest

def get? (t : Table κ α) (k : κ) : Option α :=
  find k t.entries

def contains (t : Table κ α) (k : κ) : Bool :=
  (t.get? k).isSome

/-- Puts `a` in the place of the value under `k`, or at the end. -/
def put (k : κ) (a : α) : List (κ × α) → List (κ × α)
  | [] => [(k, a)]
  | (k', a') :: rest => if k' = k then (k, a) :: rest else (k', a') :: put k a rest

def insert (t : Table κ α) (k : κ) (a : α) : Table κ α :=
  ⟨put k a t.entries⟩

def erase (t : Table κ α) (k : κ) : Table κ α :=
  ⟨t.entries.filter fun entry => entry.1 ≠ k⟩

/-- The table with the value under `k`, if there is one, changed by `f`. -/
def modify (t : Table κ α) (k : κ) (f : α → α) : Table κ α :=
  match t.get? k with
  | some a => t.insert k (f a)
  | none => t

def map {β : Type} (t : Table κ α) (f : α → β) : Table κ β :=
  ⟨t.entries.map fun entry => (entry.1, f entry.2)⟩

@[simp]
theorem get?_empty (k : κ) : (empty : Table κ α).get? k = none := rfl

@[simp]
theorem get?_insert_self (t : Table κ α) (k : κ) (a : α) : (t.insert k a).get? k = some a := by
  obtain ⟨entries⟩ := t
  simp only [insert, get?]
  induction entries with
  | nil => simp [put, find]
  | cons entry rest ih =>
    by_cases h : entry.1 = k <;> simp [put, find, h, ih]

@[simp]
theorem get?_insert_of_ne (t : Table κ α) {k k' : κ} (a : α) (h : k' ≠ k) :
    (t.insert k a).get? k' = t.get? k' := by
  obtain ⟨entries⟩ := t
  simp only [insert, get?]
  induction entries with
  | nil => simp [put, find, Ne.symm h]
  | cons entry rest ih =>
    by_cases hk : entry.1 = k
    · have : entry.1 ≠ k' := fun e => h (e ▸ hk)
      simp [put, find, hk, Ne.symm h]
    · by_cases hk' : entry.1 = k'
      · subst hk'
        simp [put, find, h]
      · simp [put, find, hk, hk', ih]

@[simp]
theorem get?_erase_self (t : Table κ α) (k : κ) : (t.erase k).get? k = none := by
  obtain ⟨entries⟩ := t
  simp only [erase, get?]
  induction entries with
  | nil => rfl
  | cons entry rest ih =>
    by_cases h : entry.1 = k <;> simp_all [find]

@[simp]
theorem get?_erase_of_ne (t : Table κ α) {k k' : κ} (h : k' ≠ k) :
    (t.erase k).get? k' = t.get? k' := by
  obtain ⟨entries⟩ := t
  simp only [erase, get?]
  induction entries with
  | nil => rfl
  | cons entry rest ih =>
    by_cases hk : entry.1 = k
    · have : entry.1 ≠ k' := fun e => h (e ▸ hk)
      simp_all [find]
    · by_cases hk' : entry.1 = k' <;> simp_all [find]

theorem get?_modify_self (t : Table κ α) (k : κ) (f : α → α) :
    (t.modify k f).get? k = (t.get? k).map f := by
  unfold modify
  split <;> simp_all

theorem get?_modify_of_ne (t : Table κ α) {k k' : κ} (f : α → α) (h : k' ≠ k) :
    (t.modify k f).get? k' = t.get? k' := by
  unfold modify
  split <;> simp [h]

@[simp]
theorem get?_map {β : Type} (t : Table κ α) (f : α → β) (k : κ) :
    (t.map f).get? k = (t.get? k).map f := by
  obtain ⟨entries⟩ := t
  simp only [map, get?]
  induction entries with
  | nil => rfl
  | cons entry rest ih =>
    by_cases h : entry.1 = k <;> simp [find, h, ih]

end Table

end Observatory
