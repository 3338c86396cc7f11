import Observatory.Glob.Match
import Observatory.Glob.Reader
import Observatory.Identity.Key

/-!
# Key patterns

A key pattern is a glob over the written forms of keys. One with a subsystem matches keys of that
subsystem only, and its glob is read behind the subsystem's name and a separator.
-/

namespace Observatory

structure PatternError where
  glob : String
  fault : Glob.GlobError
  deriving DecidableEq, Repr

def PatternError.message (error : PatternError) : String :=
  s!"Invalid pattern '{error.glob}': {error.fault.message}"

structure KeyPattern where
  /-- The subsystem, unless the pattern is for all. -/
  subsystem : Option Subsystem
  glob : String
  /-- The tokens of the glob, behind those of the subsystem's name. -/
  tokens : List Glob.Token
  deriving DecidableEq, Repr

namespace KeyPattern

/-- The text in front of the glob when it is read. -/
def scope : Option Subsystem → List Char
  | none => []
  | some subsystem => subsystem.name.toList ++ [keySeparator]

def create (subsystem : Option Subsystem) (glob : String) : Except PatternError KeyPattern :=
  if glob.isEmpty then .error ⟨glob, .empty⟩
  else
    match Glob.compile (scope subsystem ++ glob.toList) with
    | .ok tokens => .ok ⟨subsystem, glob, tokens⟩
    | .error fault => .error ⟨glob, fault⟩

def everything : KeyPattern :=
  ⟨none, "*", [.anyRun]⟩

def accepts (p : KeyPattern) (key : EventKey) : Bool :=
  p.subsystem.all (· == key.source.subsystem) && Glob.matchAll p.tokens key.canonical.toList

def text (p : KeyPattern) : String :=
  String.ofList (scope p.subsystem) ++ p.glob

/-- The pattern of every key is what the glob `*` gives. -/
theorem create_star : create none "*" = .ok everything := by
  have hstar : Glob.tokenize ['*'] = .ok [.anyRun] := by
    rw [Glob.tokenize, if_pos rfl, Glob.tokenize]
    rfl
  have hglob : Glob.compile (scope none ++ "*".toList) = .ok [.anyRun] := by
    change (Glob.tokenize ['*']).map Glob.squeeze = .ok [.anyRun]
    rw [hstar]
    rfl
  rw [create, if_neg (by decide), hglob]
  rfl

end KeyPattern

end Observatory
