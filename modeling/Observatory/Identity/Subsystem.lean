import Observatory.Text.Ascii

/-!
# Subsystems

The closed set of telescope subsystems that may own components. Names are read without regard to
the case of ASCII letters and always written in one spelling.
-/

namespace Observatory

inductive Subsystem where
  | aoesw | aps | cis | cln | cryo | csw | dms | dps | enc | esen | esw | hndl | hq | iris | lgsf
  | m1coat | m1cs | m1s | m2coat | m2s | m3s | modhis | nfiraos | oss | refr | scms | ser | soss
  | str | sum | tcs | tins | wfos | container
  deriving DecidableEq, Repr, Inhabited

namespace Subsystem

def all : List Subsystem :=
  [aoesw, aps, cis, cln, cryo, csw, dms, dps, enc, esen, esw, hndl, hq, iris, lgsf, m1coat, m1cs,
   m1s, m2coat, m2s, m3s, modhis, nfiraos, oss, refr, scms, ser, soss, str, sum, tcs, tins, wfos,
   container]

def name : Subsystem → String
  | aoesw => "AOESW" | aps => "APS" | cis => "CIS" | cln => "CLN" | cryo => "CRYO" | csw => "CSW"
  | dms => "DMS" | dps => "DPS" | enc => "ENC" | esen => "ESEN" | esw => "ESW" | hndl => "HNDL"
  | hq => "HQ" | iris => "IRIS" | lgsf => "LGSF" | m1coat => "M1COAT" | m1cs => "M1CS"
  | m1s => "M1S" | m2coat => "M2COAT" | m2s => "M2S" | m3s => "M3S" | modhis => "MODHIS"
  | nfiraos => "NFIRAOS" | oss => "OSS" | refr => "REFR" | scms => "SCMS" | ser => "SER"
  | soss => "SOSS" | str => "STR" | sum => "SUM" | tcs => "TCS" | tins => "TINS"
  | wfos => "WFOS" | container => "Container"

def rank (s : Subsystem) : Nat :=
  s.ctorIdx

def ofRank? (n : Nat) : Option Subsystem :=
  all[n]?

/-- The tag in data formats: the name with all letters but the first made small. -/
def tag (s : Subsystem) : String :=
  match s.name.toList with
  | [] => ""
  | c :: rest => String.ofList (c :: rest.map Char.toLower)

/-- Reads a name, in any case of its letters. -/
def ofName? (text : String) : Option Subsystem :=
  all.find? fun s => Text.sameIgnoringCase s.name text

def ofTag? (text : String) : Option Subsystem :=
  all.find? fun s => s.tag == text

instance : Ord Subsystem where
  compare a b := compare a.rank b.rank

theorem ofRank?_rank (s : Subsystem) : ofRank? s.rank = some s := by
  cases s <;> rfl

theorem rank_getElem_all : ∀ n : Fin all.length, all[n].rank = n := by
  decide

theorem rank_of_ofRank? {n : Nat} {s : Subsystem} (h : ofRank? n = some s) : s.rank = n := by
  obtain ⟨hlt, rfl⟩ := List.getElem?_eq_some_iff.1 h
  exact rank_getElem_all ⟨n, hlt⟩

theorem mem_all (s : Subsystem) : s ∈ all :=
  List.mem_of_getElem? (ofRank?_rank s)

theorem rank_lt (s : Subsystem) : s.rank < all.length := by
  cases s <;> decide

end Subsystem

end Observatory
