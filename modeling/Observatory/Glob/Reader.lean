import Observatory.Glob.Token

/-!
# Reading globs

`*` and `?` stand for a run and for one character, `\` takes the next character as it is, and `[`
opens a class. A class is negated by `^` or `!` in first place and closed by `]`, except that its
first member may be `]` itself. A member is one character or a range of two joined by `-`; a `-`
before the closing bracket is a member. The bounds of a range may come in either order. Stars in a
row are one star.
-/

namespace Observatory.Glob

inductive GlobError where
  | empty
  /-- It ends in an escape of nothing. -/
  | trailingEscape
  | unclosedClass
  deriving DecidableEq, Repr

def GlobError.message : GlobError → String
  | .empty => "pattern must not be empty"
  | .trailingEscape => "trailing escape"
  | .unclosedClass => "unclosed character class"

def readBound : List Char → Option (Char × List Char)
  | [] => none
  | ['\\'] => none
  | '\\' :: c :: rest => some (c, rest)
  | c :: rest => some (c, rest)

/-- Reads one member of a class as a range, its lower bound first. -/
def readMember (cs : List Char) : Option ((Char × Char) × List Char) := do
  let (lo, rest) ← readBound cs
  match rest with
  | ['-'] => return ((lo, lo), rest)
  -- A hyphen in front of the closing bracket is a member of its own.
  | '-' :: ']' :: _ => return ((lo, lo), rest)
  | '-' :: bound =>
    let (hi, rest) ← readBound bound
    return (if lo ≤ hi then (lo, hi) else (hi, lo), rest)
  | _ => return ((lo, lo), rest)

theorem length_lt_of_readBound {cs rest : List Char} {c : Char}
    (h : readBound cs = some (c, rest)) : rest.length < cs.length := by
  unfold readBound at h
  split at h
  · cases h
  · cases h
  · cases h
    simp only [List.length_cons]
    omega
  · cases h
    simp

theorem length_lt_of_readMember {cs rest : List Char} {range : Char × Char}
    (h : readMember cs = some (range, rest)) : rest.length < cs.length := by
  unfold readMember at h
  cases hlo : readBound cs with
  | none => simp [hlo] at h
  | some first =>
    obtain ⟨lo, after⟩ := first
    have hlt := length_lt_of_readBound hlo
    simp only [hlo, Option.bind_eq_bind, Option.bind_some] at h
    split at h
    next =>
      cases h
      exact hlt
    next =>
      cases h
      exact hlt
    next bound _ _ =>
      cases hhi : readBound bound with
      | none => simp [hhi] at h
      | some second =>
        obtain ⟨hi, last⟩ := second
        have := length_lt_of_readBound hhi
        simp only [hhi, Option.bind_some, Option.pure_def, Option.some.injEq,
          Prod.mk.injEq] at h
        obtain ⟨-, rfl⟩ := h
        simp only [List.length_cons] at hlt
        omega
    next =>
      cases h
      exact hlt

/-- Reads the members of a class up to its closing bracket, which is taken too. -/
def readMembers (cs : List Char) : Option (List (Char × Char) × List Char) :=
  if cs.head? = some ']' then some ([], cs.tail)
  else
    match _h : readMember cs with
    | none => none
    | some (range, rest) =>
      (readMembers rest).map fun (ranges, rest) => (range :: ranges, rest)
termination_by cs.length
decreasing_by exact length_lt_of_readMember _h

def readClass (cs : List Char) : Option (Token × List Char) := do
  let (negated, body) := match cs with
    | '^' :: body => (true, body)
    | '!' :: body => (true, body)
    | body => (false, body)
  -- The first member is read before a closing bracket counts, so it may be that bracket.
  let (first, rest) ← readMember body
  let (ranges, rest) ← readMembers rest
  return (.charClass negated (first :: ranges), rest)

theorem length_le_of_readMembers {cs rest : List Char} {ranges : List (Char × Char)}
    (h : readMembers cs = some (ranges, rest)) : rest.length ≤ cs.length := by
  fun_induction readMembers cs generalizing ranges rest with
  | case1 cs =>
    cases h
    simp
  | case2 => cases h
  | case3 cs _ range after hread ih =>
    obtain ⟨⟨ranges', rest'⟩, hrest, heq⟩ := Option.map_eq_some_iff.1 h
    cases heq
    have := ih hrest
    have := length_lt_of_readMember hread
    omega

theorem length_lt_of_readClass {cs rest : List Char} {token : Token}
    (h : readClass cs = some (token, rest)) : rest.length < cs.length := by
  have key : ∀ (negated : Bool) (body : List Char), body.length ≤ cs.length →
      (do
        let (first, rest) ← readMember body
        let (ranges, rest) ← readMembers rest
        return (Token.charClass negated (first :: ranges), rest)) = some (token, rest) →
      rest.length < cs.length := by
    intro negated body hle h
    cases hfirst : readMember body with
    | none => simp [hfirst] at h
    | some first =>
      obtain ⟨range, after⟩ := first
      simp only [hfirst, Option.bind_eq_bind, Option.bind_some] at h
      cases hmore : readMembers after with
      | none => simp [hmore] at h
      | some more =>
        obtain ⟨ranges, last⟩ := more
        simp only [hmore, Option.bind_some, Option.pure_def, Option.some.injEq,
          Prod.mk.injEq] at h
        obtain ⟨-, rfl⟩ := h
        have := length_lt_of_readMember hfirst
        have := length_le_of_readMembers hmore
        omega
  unfold readClass at h
  split at h
  next negated body hbody =>
    refine key negated body ?_ h
    split at hbody <;> cases hbody <;> simp

def tokenize (cs : List Char) : Except GlobError (List Token) :=
  match cs with
  | [] => .ok []
  | c :: rest =>
    if c = '*' then (tokenize rest).map (.anyRun :: ·)
    else if c = '?' then (tokenize rest).map (.anyChar :: ·)
    else if c = '\\' then
      match rest with
      | [] => .error .trailingEscape
      | escaped :: rest => (tokenize rest).map (.literal escaped :: ·)
    else if c = '[' then
      match _h : readClass rest with
      | none => .error .unclosedClass
      | some (token, rest) => (tokenize rest).map (token :: ·)
    else (tokenize rest).map (.literal c :: ·)
termination_by cs.length
decreasing_by
  all_goals simp only [List.length_cons]
  · omega
  · omega
  · omega
  · have := length_lt_of_readClass _h
    omega
  · omega

/-- The tokens with every run of stars made one. -/
def squeeze : List Token → List Token
  | [] => []
  | token :: rest =>
    if token.isRun && (rest.head?.map Token.isRun).getD false then squeeze rest
    else token :: squeeze rest

def compile (cs : List Char) : Except GlobError (List Token) :=
  (tokenize cs).map squeeze

end Observatory.Glob
