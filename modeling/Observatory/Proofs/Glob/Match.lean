import Mathlib
import Observatory.Glob.Match

/-!
# What globs match

A text matches tokens just if it can be cut into pieces, one for each token: any piece for a run,
and a character that fits for every other token. The matcher goes back to the latest run only.
Nothing is lost by that, since what an earlier run could leave to the tokens after it ends like the
text that is left to the latest one.

The matcher is also seen as a scan that goes by places in the two lists. It never looks beyond their
ends, and it comes to an end with the same answer.
-/

namespace Observatory.Glob

variable {α : Type} {R : α → List Char → Prop} {a : α} {as : List α} {token : Token}
  {tokens tokens' rest : List Token} {c : Char} {text text' : List Char}

/-! ## Pieces -/

/-- The text can be cut into pieces, one for each element of the list, that go with them. -/
def Pieced (R : α → List Char → Prop) (as : List α) (text : List Char) : Prop :=
  ∃ pieces, List.Forall₂ R as pieces ∧ pieces.flatten = text

@[simp]
theorem pieced_nil : Pieced R [] text ↔ text = [] := by
  constructor
  · rintro ⟨pieces, hpieces, rfl⟩
    cases hpieces
    rfl
  · rintro rfl
    exact ⟨[], .nil, rfl⟩

theorem pieced_cons : Pieced R (a :: as) text ↔
    ∃ piece rest, R a piece ∧ Pieced R as rest ∧ piece ++ rest = text := by
  constructor
  · rintro ⟨pieces, hpieces, rfl⟩
    cases hpieces with
    | @cons _ piece _ pieces hpiece hpieces =>
      exact ⟨piece, pieces.flatten, hpiece, ⟨pieces, hpieces, rfl⟩, rfl⟩
  · rintro ⟨piece, rest, hpiece, ⟨pieces, hpieces, rfl⟩, rfl⟩
    exact ⟨piece :: pieces, .cons hpiece hpieces, rfl⟩

/-- The piece is one that the token stands for. -/
inductive Token.Covers : Token → List Char → Prop where
  | run (piece : List Char) : Covers .anyRun piece
  | one {token : Token} {c : Char} (h : token.accepts c = true) : Covers token [c]

/-- The text can be cut into pieces that the tokens stand for. -/
def Cuts : List Token → List Char → Prop :=
  Pieced Token.Covers

/-- The text can be cut so behind some of its characters. -/
def CutsEnd (tokens : List Token) (text : List Char) : Prop :=
  ∃ rest, rest <:+ text ∧ Cuts tokens rest

theorem Cuts.toEnd (h : Cuts tokens text) : CutsEnd tokens text :=
  ⟨text, List.suffix_rfl, h⟩

theorem CutsEnd.mono (h : CutsEnd tokens text) (hsuffix : text <:+ text') :
    CutsEnd tokens text' := by
  obtain ⟨rest, hrest, hcuts⟩ := h
  exact ⟨rest, hrest.trans hsuffix, hcuts⟩

theorem eq_anyRun (h : token.isRun = true) : token = .anyRun := by
  cases token with
  | anyRun => rfl
  | literal => cases h
  | anyChar => cases h
  | charClass => cases h

theorem cuts_run (h : token.isRun = true) : Cuts (token :: tokens) text ↔ CutsEnd tokens text := by
  obtain rfl := eq_anyRun h
  rw [Cuts, pieced_cons]
  constructor
  · rintro ⟨piece, rest, -, hcuts, rfl⟩
    exact ⟨rest, List.suffix_append piece rest, hcuts⟩
  · rintro ⟨rest, ⟨piece, rfl⟩, hcuts⟩
    exact ⟨piece, rest, .run piece, hcuts, rfl⟩

theorem cuts_one (h : token.isRun = false) : Cuts (token :: tokens) text ↔
    ∃ c rest, token.accepts c = true ∧ Cuts tokens rest ∧ c :: rest = text := by
  rw [Cuts, pieced_cons]
  constructor
  · rintro ⟨piece, rest, hpiece, hcuts, rfl⟩
    cases hpiece with
    | run => cases h
    | @one _ c haccepts => exact ⟨c, rest, haccepts, hcuts, rfl⟩
  · rintro ⟨c, rest, haccepts, hcuts, rfl⟩
    exact ⟨[c], rest, .one haccepts, hcuts, rfl⟩

theorem cuts_cons_iff (hone : token.isRun = false) (haccepts : token.accepts c = true) :
    Cuts (token :: tokens) (c :: text) ↔ Cuts tokens text := by
  rw [cuts_one hone]
  constructor
  · rintro ⟨d, rest, -, hcuts, heq⟩
    cases heq
    exact hcuts
  · exact fun hcuts => ⟨c, text, haccepts, hcuts, rfl⟩

/-- Only runs stand for nothing. -/
theorem cuts_nil : Cuts tokens [] ↔ tokens.all Token.isRun = true := by
  induction tokens with
  | nil => simp [Cuts]
  | cons token tokens ih =>
    rw [List.all_cons, Bool.and_eq_true, ← ih]
    cases h : token.isRun with
    | true => simp [cuts_run h, CutsEnd]
    | false => simp [cuts_one h]

/-- A token for one character takes the first one that the tokens after it do not have. -/
theorem CutsEnd.tail (h : CutsEnd (token :: tokens) (c :: text)) (hone : token.isRun = false) :
    CutsEnd tokens text := by
  obtain ⟨whole, hwhole, hcuts⟩ := h
  obtain ⟨d, rest, -, hrest, rfl⟩ := (cuts_one hone).1 hcuts
  refine ⟨rest, ?_, hrest⟩
  rcases List.suffix_cons_iff.1 hwhole with heq | hsuffix
  · obtain ⟨-, rfl⟩ := List.cons.inj heq
    exact List.suffix_rfl
  · exact (List.suffix_cons d rest).trans hsuffix

/-! ## Comparing up to the next run -/

theorem cuts_of_advance_finished (h : advance tokens text = .finished rest) :
    Cuts tokens text ↔ rest.all Token.isRun = true := by
  fun_induction advance tokens text with
  | case1 =>
    cases h
    exact cuts_nil
  | case2 => cases h
  | case3 => cases h
  | case4 token tokens c text hrun haccepts ih =>
    rw [cuts_cons_iff (by simpa using hrun) haccepts]
    exact ih h
  | case5 => cases h

theorem cuts_of_advance_run (h : advance tokens text = .run tokens' text') :
    Cuts tokens text ↔ CutsEnd tokens' text' := by
  fun_induction advance tokens text with
  | case1 => cases h
  | case2 => cases h
  | case3 token tokens c text hrun =>
    cases h
    exact cuts_run hrun
  | case4 token tokens c text hrun haccepts ih =>
    rw [cuts_cons_iff (by simpa using hrun) haccepts]
    exact ih h
  | case5 => cases h

theorem not_cuts_of_advance_mismatch (h : advance tokens text = .mismatch) :
    ¬ Cuts tokens text := by
  fun_induction advance tokens text with
  | case1 => cases h
  | case2 c text => simp [Cuts]
  | case3 => cases h
  | case4 token tokens c text hrun haccepts ih =>
    rw [cuts_cons_iff (by simpa using hrun) haccepts]
    exact ih h
  | case5 token tokens c text hrun haccepts =>
    rw [cuts_one (by simpa using hrun)]
    rintro ⟨d, rest, hd, -, heq⟩
    cases heq
    exact haccepts hd

/-- Tokens that have used up a text have no shorter end of it to go back to. -/
theorem all_of_cutsEnd (h : advance tokens text = .finished rest) (hend : CutsEnd tokens text) :
    rest.all Token.isRun = true := by
  fun_induction advance tokens text with
  | case1 =>
    cases h
    obtain ⟨rest, hrest, hcuts⟩ := hend
    rw [List.suffix_nil.1 hrest] at hcuts
    exact cuts_nil.1 hcuts
  | case2 => cases h
  | case3 => cases h
  | case4 token tokens c text hrun haccepts ih => exact ih h (hend.tail (by simpa using hrun))
  | case5 => cases h

/-- Whatever the run before `tokens` may take, the run that they lead to can leave the same to the
tokens after it. -/
theorem cutsEnd_of_cutsEnd (h : advance tokens text = .run tokens' text')
    (hend : CutsEnd tokens text) : CutsEnd tokens' text' := by
  fun_induction advance tokens text with
  | case1 => cases h
  | case2 => cases h
  | case3 token tokens c text hrun =>
    cases h
    obtain ⟨rest, hrest, hcuts⟩ := hend
    exact ((cuts_run hrun).1 hcuts).mono hrest
  | case4 token tokens c text hrun haccepts ih => exact ih h (hend.tail (by simpa using hrun))
  | case5 => cases h

/-! ## Matching -/

theorem matchRun_iff (tokens : List Token) (text : List Char) :
    matchRun tokens text = true ↔ CutsEnd tokens text := by
  fun_induction matchRun tokens text with
  | case1 tokens text rest hadvance =>
    exact ⟨fun hall => ((cuts_of_advance_finished hadvance).2 hall).toEnd,
      all_of_cutsEnd hadvance⟩
  | case2 tokens text tokens' text' hadvance ih =>
    rw [ih]
    exact ⟨fun hend => ((cuts_of_advance_run hadvance).2 hend).toEnd,
      cutsEnd_of_cutsEnd hadvance⟩
  | case3 tokens hadvance => simp [advance] at hadvance
  | case4 tokens c text hadvance ih =>
    rw [ih]
    refine ⟨fun hend => hend.mono (List.suffix_cons c text), ?_⟩
    rintro ⟨rest, hrest, hcuts⟩
    -- The run cannot be left as it is, so it takes the next character.
    rcases List.suffix_cons_iff.1 hrest with rfl | hsuffix
    · exact absurd hcuts (not_cuts_of_advance_mismatch hadvance)
    · exact ⟨rest, hsuffix, hcuts⟩

theorem matchAll_iff (tokens : List Token) (text : List Char) :
    matchAll tokens text = true ↔ Cuts tokens text := by
  unfold matchAll
  cases hadvance : advance tokens text with
  | finished rest => exact (cuts_of_advance_finished hadvance).symm
  | run tokens' text' =>
    dsimp only
    rw [cuts_of_advance_run hadvance]
    exact matchRun_iff tokens' text'
  | mismatch => simpa using not_cuts_of_advance_mismatch hadvance

end Observatory.Glob
