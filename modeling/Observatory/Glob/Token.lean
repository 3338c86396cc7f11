/-!
# Glob tokens

A glob is a list of tokens. `*` stands for any run of characters, every other token for exactly one
character.
-/

namespace Observatory.Glob

inductive Token where
  | literal (c : Char)
  | anyChar
  | anyRun
  /-- One character that lies in one of the ranges, or in none of them if `negated`. -/
  | charClass (negated : Bool) (ranges : List (Char × Char))
  deriving DecidableEq, Repr, Inhabited

namespace Token

/-- Whether a token for one character stands for `c`. The run stands for none. -/
def accepts (c : Char) : Token → Bool
  | .literal expected => expected == c
  | .anyChar => true
  | .anyRun => false
  | .charClass negated ranges => (ranges.any fun (lo, hi) => lo ≤ c && c ≤ hi) != negated

def isRun : Token → Bool
  | .anyRun => true
  | _ => false

end Token

end Observatory.Glob
