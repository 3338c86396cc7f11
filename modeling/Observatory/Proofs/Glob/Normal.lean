import Observatory.Pattern
import Observatory.Proofs.Glob.Grammar

/-!
# Normal token lists

The tokens of a pattern are a normal list: no runs stand side by side, and every class has ranges
with their bounds in order. Making runs in a row one run does not change what is matched. Every
normal list is that of some pattern, whose glob is found by writing the tokens down one after the
other with every character escaped.
-/

namespace Observatory.Glob

/-- A token list with no two runs in a row and no class that is empty or has a range upside down. -/
structure Normal (tokens : List Token) : Prop where
  apart : tokens.IsChain fun token next => ¬ (token.isRun = true ∧ next.isRun = true)
  classes : ∀ {negated ranges}, .charClass negated ranges ∈ tokens →
    ranges ≠ [] ∧ ∀ range ∈ ranges, range.1 ≤ range.2

variable {α : Type} {R S : α → List Char → Prop} {as : List α} {range : Char × Char}
  {ranges : List (Char × Char)} {first : Bool} {text piece : List Char} {token : Token}
  {tokens rest : List Token}

/-! ## Runs in a row -/

theorem exists_runs (h : (token.isRun && (rest.head?.map Token.isRun).getD false) = true) :
    token = .anyRun ∧ ∃ after, rest = .anyRun :: after := by
  obtain ⟨htoken, hrest⟩ := Bool.and_eq_true_iff.1 h
  cases rest with
  | nil => cases hrest
  | cons next after => exact ⟨eq_anyRun htoken, after, by rw [eq_anyRun hrest]⟩

theorem head?_squeeze (tokens : List Token) : (squeeze tokens).head? = tokens.head? := by
  fun_induction squeeze tokens with
  | case1 => rfl
  | case2 token rest hruns ih =>
    obtain ⟨rfl, after, rfl⟩ := exists_runs hruns
    exact ih
  | case3 => rfl

theorem isChain_squeeze (tokens : List Token) :
    (squeeze tokens).IsChain fun token next => ¬ (token.isRun = true ∧ next.isRun = true) := by
  fun_induction squeeze tokens with
  | case1 => exact .nil
  | case2 token rest hruns ih => exact ih
  | case3 token rest hruns ih =>
    refine List.isChain_cons.2 ⟨fun next hnext ⟨htoken, hrun⟩ => hruns ?_, ih⟩
    rw [head?_squeeze] at hnext
    rw [htoken, hnext]
    exact hrun

theorem mem_of_mem_squeeze (h : token ∈ squeeze tokens) : token ∈ tokens := by
  fun_induction squeeze tokens with
  | case1 => exact h
  | case2 first rest hruns ih => exact List.mem_cons_of_mem first (ih h)
  | case3 first rest hruns ih =>
    cases h with
    | head => exact List.mem_cons_self
    | tail _ h => exact List.mem_cons_of_mem first (ih h)

theorem squeeze_of_normal (h : Normal tokens) : squeeze tokens = tokens := by
  replace h := h.apart
  fun_induction squeeze tokens with
  | case1 => rfl
  | case2 token rest hruns ih =>
    obtain ⟨rfl, after, rfl⟩ := exists_runs hruns
    exact absurd ⟨rfl, rfl⟩ ((List.isChain_cons.1 h).1 .anyRun rfl)
  | case3 token rest hruns ih => rw [ih (List.isChain_cons.1 h).2]

/-- Two runs in a row cover what one of them does. -/
theorem cuts_anyRun_anyRun :
    Cuts (.anyRun :: .anyRun :: tokens) text ↔ Cuts (.anyRun :: tokens) text := by
  rw [cuts_run rfl]
  constructor
  · rintro ⟨rest, hrest, hcuts⟩
    exact (cuts_run rfl).2 (((cuts_run rfl).1 hcuts).mono hrest)
  · exact Cuts.toEnd

theorem cuts_squeeze : Cuts (squeeze tokens) text ↔ Cuts tokens text := by
  fun_induction squeeze tokens generalizing text with
  | case1 => exact Iff.rfl
  | case2 token rest hruns ih =>
    obtain ⟨rfl, after, rfl⟩ := exists_runs hruns
    rw [ih, cuts_anyRun_anyRun]
  | case3 token rest hruns ih =>
    simp only [Cuts, pieced_cons] at ih ⊢
    simp only [ih]

theorem matchAll_squeeze (tokens : List Token) (text : List Char) :
    matchAll (squeeze tokens) text = matchAll tokens text := by
  rw [Bool.eq_iff_iff, matchAll_iff, matchAll_iff]
  exact cuts_squeeze

/-! ## What is read is normal -/

theorem Member.ordered {rest : List Char} (h : Member range text rest) : range.1 ≤ range.2 := by
  cases h with
  | single => exact le_rfl
  | range => exact min_le_max

theorem Members.ordered (h : Members first ranges text) :
    ∀ range ∈ ranges, range.1 ≤ range.2 := by
  induction h with
  | close => exact nofun
  | member h _ _ ih => exact List.forall_mem_cons.2 ⟨h.ordered, ih⟩

theorem Members.ranges_ne_nil (h : Members true ranges text) : ranges ≠ [] := by
  cases h with
  | member => exact List.cons_ne_nil _ _

theorem Pieced.exists_piece {a : α} (h : Pieced R as text) (ha : a ∈ as) : ∃ piece, R a piece := by
  induction as generalizing text with
  | nil => cases ha
  | cons b as ih =>
    obtain ⟨piece, rest, hpiece, hrest, -⟩ := pieced_cons.1 h
    cases ha with
    | head => exact ⟨piece, hpiece⟩
    | tail _ ha => exact ih hrest ha

theorem normal_of_spells (h : Spells tokens text) : Normal (squeeze tokens) := by
  refine ⟨isChain_squeeze tokens, fun hmem => ?_⟩
  obtain ⟨piece, hpiece⟩ := Pieced.exists_piece h (mem_of_mem_squeeze hmem)
  cases hpiece with
  | charClass h => exact ⟨h.ranges_ne_nil, h.ordered⟩

/-! ## Writing tokens down -/

/-- A range with its bounds escaped. One character may stand for itself. -/
inductive RangeWritten : Char × Char → List Char → Prop where
  | single (c : Char) : RangeWritten (c, c) ['\\', c]
  | range (lo hi : Char) : RangeWritten (lo, hi) ['\\', lo, '-', '\\', hi]

/-- A token with all its characters escaped. -/
inductive Token.Written : Token → List Char → Prop where
  | anyRun : Written .anyRun ['*']
  | anyChar : Written .anyChar ['?']
  | literal (c : Char) : Written (.literal c) ['\\', c]
  | among {ranges : List (Char × Char)} {text : List Char} (h : Pieced RangeWritten ranges text) :
      Written (.charClass false ranges) ('[' :: (text ++ [']']))
  | notAmong {mark : Char} {ranges : List (Char × Char)} {text : List Char}
      (hmark : isNegation mark = true) (h : Pieced RangeWritten ranges text) :
      Written (.charClass true ranges) ('[' :: mark :: (text ++ [']']))

/-- The text is made of the tokens, each with all its characters escaped. -/
def Renders : List Token → List Char → Prop :=
  Pieced Token.Written

theorem RangeWritten.head? (h : RangeWritten range piece) (rest : List Char) :
    (piece ++ rest).head? = some '\\' := by
  cases h with
  | single => rfl
  | range => rfl

theorem RangeWritten.member (h : RangeWritten range piece) (hordered : range.1 ≤ range.2)
    (hrest : text.head? ≠ some '-') : Member range piece text := by
  cases h with
  | single c => exact .single (.escaped c) (not_joins_of_head hrest)
  | range lo hi =>
    have hopen : ['\\', hi].head? ≠ some ']' := by
      rw [List.head?_cons]
      decide
    have hrange := Member.range text (.escaped lo) (.escaped hi) hopen
    rwa [min_eq_left hordered, max_eq_right hordered] at hrange

/-- What follows a written range begins with an escape or with the bracket. -/
theorem head?_ranges (h : Pieced RangeWritten ranges text) :
    (text ++ [']']).head? = if ranges = [] then some ']' else some '\\' := by
  cases ranges with
  | nil =>
    rw [pieced_nil.1 h]
    rfl
  | cons range ranges =>
    obtain ⟨piece, rest, hpiece, -, rfl⟩ := pieced_cons.1 h
    rw [List.append_assoc]
    exact hpiece.head? _

theorem members_of_written (h : Pieced RangeWritten ranges text)
    (hordered : ∀ range ∈ ranges, range.1 ≤ range.2) : Members false ranges (text ++ [']']) := by
  induction ranges generalizing text with
  | nil =>
    rw [pieced_nil.1 h]
    exact .close
  | cons range ranges ih =>
    obtain ⟨piece, rest, hpiece, hrest, rfl⟩ := pieced_cons.1 h
    obtain ⟨hrange, hranges⟩ := List.forall_mem_cons.1 hordered
    have hhyphen : (rest ++ [']']).head? ≠ some '-' := by
      rw [head?_ranges hrest]
      split
      · decide
      · decide
    have hbracket : piece.head? ≠ some ']' := by
      rw [← List.append_nil piece, hpiece.head?]
      decide
    rw [List.append_assoc]
    exact .member (hpiece.member hrange hhyphen) (.inr hbracket) (ih hrest hranges)

theorem Members.toFirst (h : Members false ranges text) (hranges : ranges ≠ []) :
    Members true ranges text := by
  cases h with
  | close => exact absurd rfl hranges
  | member h _ hrest => exact .member h (.inl rfl) hrest

theorem Token.Written.spelled (h : Token.Written token piece) (hclass : ∀ {negated ranges},
    token = .charClass negated ranges → ranges ≠ [] ∧ ∀ range ∈ ranges, range.1 ≤ range.2) :
    Token.Spelled token piece := by
  cases h with
  | anyRun => exact .anyRun
  | anyChar => exact .anyChar
  | literal c => exact .escaped c
  | @among ranges text h =>
    obtain ⟨hranges, hordered⟩ := hclass rfl
    have hhead := head?_ranges h
    rw [if_neg hranges] at hhead
    obtain ⟨rest, hrest⟩ := List.head?_eq_some_iff.1 hhead
    have hmembers := (members_of_written h hordered).toFirst hranges
    rw [hrest] at hmembers ⊢
    exact @Token.Spelled.charClass ranges ('\\' :: rest) hmembers
  | @notAmong mark ranges text hmark h =>
    obtain ⟨hranges, hordered⟩ := hclass rfl
    have hmembers := (members_of_written h hordered).toFirst hranges
    have hspelled := @Token.Spelled.charClass ranges (mark :: (text ++ [']']))
      (by rwa [unmarked, if_pos hmark])
    rwa [List.head?_cons, Option.any_some, hmark] at hspelled

theorem Pieced.imp (h : Pieced R as text) (himp : ∀ a ∈ as, ∀ piece, R a piece → S a piece) :
    Pieced S as text := by
  induction as generalizing text with
  | nil => exact pieced_nil.2 (pieced_nil.1 h)
  | cons a as ih =>
    obtain ⟨piece, rest, hpiece, hrest, rfl⟩ := pieced_cons.1 h
    obtain ⟨ha, has⟩ := List.forall_mem_cons.1 himp
    exact pieced_cons.2 ⟨piece, rest, ha piece hpiece, ih hrest has, rfl⟩

theorem spells_of_renders (h : Renders tokens text) (hnormal : Normal tokens) :
    Spells tokens text := by
  refine Pieced.imp h fun token hmem piece hpiece => hpiece.spelled ?_
  rintro negated ranges rfl
  exact hnormal.classes hmem

theorem exists_pieced (h : ∀ a, ∃ piece, R a piece) (as : List α) : ∃ text, Pieced R as text := by
  induction as with
  | nil => exact ⟨[], pieced_nil.2 rfl⟩
  | cons a as ih =>
    obtain ⟨piece, hpiece⟩ := h a
    obtain ⟨rest, hrest⟩ := ih
    exact ⟨piece ++ rest, pieced_cons.2 ⟨piece, rest, hpiece, hrest, rfl⟩⟩

theorem exists_renders (tokens : List Token) : ∃ text, Renders tokens text := by
  refine exists_pieced (fun token => ?_) tokens
  cases token with
  | literal c => exact ⟨_, .literal c⟩
  | anyChar => exact ⟨_, .anyChar⟩
  | anyRun => exact ⟨_, .anyRun⟩
  | charClass negated ranges =>
    have hwritten : ∀ range, ∃ piece, RangeWritten range piece :=
      fun (lo, hi) => ⟨_, .range lo hi⟩
    obtain ⟨text, htext⟩ := exists_pieced hwritten ranges
    cases negated with
    | false => exact ⟨_, .among htext⟩
    | true => exact ⟨_, @Token.Written.notAmong '^' ranges text rfl htext⟩

end Observatory.Glob

/-! ## Patterns -/

namespace Observatory.KeyPattern

open Glob

variable {glob : String} {error : PatternError} {p : KeyPattern} {tokens : List Token}

theorem create_of_tokenize (hglob : glob ≠ "") : create none glob =
    match tokenize glob.toList with
    | .ok tokens => .ok ⟨none, glob, squeeze tokens⟩
    | .error fault => .error ⟨glob, fault⟩ := by
  rw [create, if_neg (mt String.isEmpty_iff.1 hglob)]
  change (match (tokenize glob.toList).map squeeze with
    | .ok tokens => _
    | .error fault => _) = _
  cases tokenize glob.toList with
  | ok tokens => rfl
  | error fault => rfl

theorem create_eq_error_iff : create none glob = .error error ↔
    error.glob = glob ∧ Faulty error.fault glob.toList := by
  obtain ⟨glob', fault⟩ := error
  by_cases hglob : glob = ""
  · subst hglob
    constructor
    · intro h
      cases h
      exact ⟨rfl, .empty⟩
    · rintro ⟨rfl, hfaulty⟩
      by_cases hfault : fault = .empty
      · rw [hfault]
        rfl
      · exact absurd rfl (hfaulty.ne_nil hfault)
  · rw [create_of_tokenize hglob, ← tokenize_eq_error_iff (mt String.toList_eq_nil_iff.1 hglob)]
    cases tokenize glob.toList with
    | ok tokens => exact ⟨nofun, nofun⟩
    | error fault' =>
      constructor
      · intro h
        cases h
        exact ⟨rfl, rfl⟩
      · rintro ⟨rfl, h⟩
        cases h
        rfl

theorem create_eq_ok_iff : create none glob = .ok p ↔
    glob ≠ "" ∧ ∃ tokens, Spells tokens glob.toList ∧ p = ⟨none, glob, squeeze tokens⟩ := by
  by_cases hglob : glob = ""
  · subst hglob
    exact ⟨nofun, fun h => absurd rfl h.1⟩
  · simp only [create_of_tokenize hglob, ← tokenize_eq_ok_iff]
    cases tokenize glob.toList with
    | ok tokens =>
      constructor
      · intro h
        cases h
        exact ⟨hglob, tokens, rfl, rfl⟩
      · rintro ⟨-, tokens', h, rfl⟩
        cases h
        rfl
    | error fault =>
      refine ⟨nofun, ?_⟩
      rintro ⟨-, tokens', h, -⟩
      cases h

/-- What patterns for all keys are made of. A text is no glob just if one of the three faults is in
it. A glob gives the tokens that it spells, with runs in a row made one, and these are normal. Every
normal list is given by what it is written down as, and nothing that is matched is changed by making
runs in a row one. -/
theorem create_spells :
    (∀ glob error, create none glob = .error error ↔
      error.glob = glob ∧ Faulty error.fault glob.toList) ∧
    (∀ glob p, create none glob = .ok p ↔
      glob ≠ "" ∧ ∃ tokens, Spells tokens glob.toList ∧ p = ⟨none, glob, squeeze tokens⟩) ∧
    (∀ glob p, create none glob = .ok p → Normal p.tokens) ∧
    (∀ tokens text, tokens ≠ [] → Normal tokens → Renders tokens text →
      create none (String.ofList text) = .ok ⟨none, String.ofList text, tokens⟩) ∧
    (∀ tokens, ∃ text, Renders tokens text) ∧
    ∀ tokens text, matchAll (squeeze tokens) text = matchAll tokens text := by
  refine ⟨fun _ _ => create_eq_error_iff, fun _ _ => create_eq_ok_iff, ?_, ?_, exists_renders,
    matchAll_squeeze⟩
  · intro glob p h
    obtain ⟨-, tokens, hspells, rfl⟩ := create_eq_ok_iff.1 h
    exact normal_of_spells hspells
  · intro tokens text htokens hnormal hrenders
    have hspells := spells_of_renders hrenders hnormal
    refine create_eq_ok_iff.2 ⟨fun hempty => ?_, tokens, ?_, ?_⟩
    · -- Nothing is read from an empty text.
      rw [String.ofList_eq_empty_iff.1 hempty, ← tokenize_eq_ok_iff, tokenize] at hspells
      cases hspells
      exact htokens rfl
    · rwa [String.toList_ofList]
    · rw [squeeze_of_normal hnormal]

/-- A bracket and a star stand for themselves once they are escaped. -/
theorem create_spells_escaped :
    create none "*[!\\]\\a-\\z]\\*" = .ok ⟨none, "*[!\\]\\a-\\z]\\*",
      [.anyRun, .charClass true [(']', ']'), ('a', 'z')], .literal '*']⟩ := by
  have hranges : Pieced RangeWritten [(']', ']'), ('a', 'z')] "\\]\\a-\\z".toList :=
    ⟨[_, _], .cons (.single ']') (.cons (.range 'a' 'z') .nil), rfl⟩
  have hclass : Token.Written (.charClass true [(']', ']'), ('a', 'z')]) "[!\\]\\a-\\z]".toList :=
    @Token.Written.notAmong '!' _ _ rfl hranges
  refine create_spells.2.2.2.1 _ "*[!\\]\\a-\\z]\\*".toList (List.cons_ne_nil _ _) ⟨?_, ?_⟩
    ⟨[_, _, _], .cons .anyRun (.cons hclass (.cons (.literal '*') .nil)), rfl⟩
  · decide
  · intro negated ranges hmem
    obtain ⟨rfl, rfl⟩ : negated = true ∧ ranges = [(']', ']'), ('a', 'z')] := by simpa using hmem
    decide

end Observatory.KeyPattern
