import Observatory.Glob.Token

/-!
# Matching globs

Tokens and text are compared from the left up to the next run. A run is first taken to be empty
and then, character by character, as long as it has to be; once the tokens after it have led to the
next run, it is settled for good.
-/

namespace Observatory.Glob

/-- Where the comparison of tokens and text from the left stops. -/
inductive Advance where
  | finished (tokens : List Token)
  /-- A run begins: the tokens after it, and the text that is left to it and to them. -/
  | run (tokens : List Token) (text : List Char)
  | mismatch
  deriving DecidableEq, Repr

def advance : List Token → List Char → Advance
  | tokens, [] => .finished tokens
  | [], _ :: _ => .mismatch
  | token :: tokens, c :: text =>
    if token.isRun then .run tokens (c :: text)
    else if token.accepts c then advance tokens text
    else .mismatch

theorem length_lt_of_advance {tokens tokens' : List Token} {text text' : List Char}
    (h : advance tokens text = .run tokens' text') : tokens'.length < tokens.length := by
  fun_induction advance tokens text with
  | case1 => cases h
  | case2 => cases h
  | case3 token tokens c text hrun =>
    cases h
    simp
  | case4 token tokens c text hrun haccepts ih =>
    have := ih h
    simp only [List.length_cons]
    omega
  | case5 => cases h

def matchRun (tokens : List Token) (text : List Char) : Bool :=
  match _h : advance tokens text with
  | .finished rest => rest.all Token.isRun
  | .run tokens' text' => matchRun tokens' text'
  | .mismatch =>
    match text with
    | [] => false
    -- The run takes one character more.
    | _ :: text => matchRun tokens text
termination_by (tokens.length, text.length)
decreasing_by
  · exact Prod.Lex.left _ _ (length_lt_of_advance _h)
  · exact Prod.Lex.right _ (by simp)

def matchAll (tokens : List Token) (text : List Char) : Bool :=
  match advance tokens text with
  | .finished rest => rest.all Token.isRun
  | .run tokens text => matchRun tokens text
  | .mismatch => false

end Observatory.Glob
