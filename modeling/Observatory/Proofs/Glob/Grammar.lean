import Observatory.Glob.Reader
import Observatory.Proofs.Glob.Match

/-!
# The grammar of globs

A grammar that says how tokens are written: every token has the forms that stand for it, and a glob
is the forms of its tokens in a row. The reader accepts just the texts that the grammar makes, and
of all others it says what is wrong with them. A class that is opened is closed by the first bracket
behind its first character that is not escaped, whatever ranges there are.
-/

namespace Observatory.Glob

/-! ## The forms of tokens -/

/-- The forms of a character in a class: the character, or an escape and the character. -/
inductive Bound : Char → List Char → Prop where
  | plain {c : Char} (h : c ≠ '\\') : Bound c [c]
  | escaped (c : Char) : Bound c ['\\', c]

/-- The text begins with a hyphen that joins: one that is followed by something else than a closing
bracket. -/
inductive Joins : List Char → Prop where
  | hyphen {c : Char} (rest : List Char) (h : c ≠ ']') : Joins ('-' :: c :: rest)

/-- The forms of a range in front of a text: a single character if no hyphen follows that joins, or
two bounds in any order and a hyphen between them. -/
inductive Member : Char × Char → List Char → List Char → Prop where
  | single {c : Char} {text rest : List Char} (h : Bound c text) (hrest : ¬ Joins rest) :
      Member (c, c) text rest
  | range {a b : Char} {text text' : List Char} (rest : List Char) (h : Bound a text)
      (h' : Bound b text') (hopen : text'.head? ≠ some ']') :
      Member (min a b, max a b) (text ++ '-' :: text') rest

/-- The forms of the ranges of a class with the bracket that closes it. The very first of them may
begin with a closing bracket. -/
inductive Members : (first : Bool) → List (Char × Char) → List Char → Prop where
  | close : Members false [] [']']
  | member {first : Bool} {range : Char × Char} {ranges : List (Char × Char)}
      {text rest : List Char} (h : Member range text rest)
      (hopen : first = true ∨ text.head? ≠ some ']') (hrest : Members false ranges rest) :
      Members first (range :: ranges) (text ++ rest)

/-- The characters that negate a class in first place. -/
def isNegation (c : Char) : Bool :=
  c = '^' || c = '!'

/-- What is behind the bracket that opens a class, without the mark that negates it. -/
def unmarked : List Char → List Char
  | [] => []
  | c :: rest => if isNegation c then rest else c :: rest

/-- The characters that do not stand for themselves. -/
def isSpecial (c : Char) : Bool :=
  c = '*' || c = '?' || c = '\\' || c = '['

/-- The forms of a token. -/
inductive Token.Spelled : Token → List Char → Prop where
  | anyRun : Spelled .anyRun ['*']
  | anyChar : Spelled .anyChar ['?']
  | plain {c : Char} (h : isSpecial c = false) : Spelled (.literal c) [c]
  | escaped (c : Char) : Spelled (.literal c) ['\\', c]
  | charClass {ranges : List (Char × Char)} {text : List Char}
      (h : Members true ranges (unmarked text)) :
      Spelled (.charClass (text.head?.any isNegation) ranges) ('[' :: text)

/-- The text is made of forms of the tokens. -/
def Spells : List Token → List Char → Prop :=
  Pieced Token.Spelled

/-! ## What is no glob -/

/-- There is a closing bracket that is not escaped. -/
inductive Closed : List Char → Prop where
  | bracket (rest : List Char) : Closed (']' :: rest)
  | plain {c : Char} {rest : List Char} (h : c ≠ '\\') (hrest : Closed rest) : Closed (c :: rest)
  | escaped (c : Char) {rest : List Char} (hrest : Closed rest) : Closed ('\\' :: c :: rest)

/-- A class that is opened in front of the text is closed: behind its first character there is a
bracket for that. -/
def ClosesClass (text : List Char) : Prop :=
  ∃ c front rest, Bound c front ∧ unmarked text = front ++ rest ∧ Closed rest

/-- What is wrong with a text that is no glob. -/
inductive Faulty : GlobError → List Char → Prop where
  | empty : Faulty .empty []
  | trailingEscape {tokens : List Token} {front : List Char} (h : Spells tokens front) :
      Faulty .trailingEscape (front ++ ['\\'])
  | unclosedClass {tokens : List Token} {front text : List Char} (h : Spells tokens front)
      (hopen : ¬ ClosesClass text) : Faulty .unclosedClass (front ++ '[' :: text)

variable {first : Bool} {c : Char} {range : Char × Char} {ranges : List (Char × Char)}
  {cs text rest more front : List Char} {token : Token} {tokens : List Token} {fault : GlobError}

/-! ## Characters and ranges -/

theorem readBound_plain (h : c ≠ '\\') (rest : List Char) :
    readBound (c :: rest) = some (c, rest) := by
  simp [readBound, h]

theorem readBound_of_bound (h : Bound c text) (rest : List Char) :
    readBound (text ++ rest) = some (c, rest) := by
  cases h with
  | plain h => exact readBound_plain h rest
  | escaped => rfl

/-- What a character of a class can be read from, and what it cannot be read from. -/
theorem readBound_cases (cs : List Char) : (∃ c text rest, Bound c text ∧ cs = text ++ rest) ∨
    cs = [] ∨ cs = ['\\'] := by
  cases cs with
  | nil => exact .inr (.inl rfl)
  | cons c rest =>
    by_cases h : c = '\\'
    · subst h
      cases rest with
      | nil => exact .inr (.inr rfl)
      | cons d rest => exact .inl ⟨d, ['\\', d], rest, .escaped d, rfl⟩
    · exact .inl ⟨c, [c], rest, .plain h, rfl⟩

theorem not_joins_of_head (h : cs.head? ≠ some '-') : ¬ Joins cs := by
  rintro ⟨rest, -⟩
  exact h rfl

@[simp]
theorem joins_cons_cons {d : Char} : Joins (c :: d :: rest) ↔ c = '-' ∧ d ≠ ']' := by
  constructor
  · rintro ⟨rest, h⟩
    exact ⟨rfl, h⟩
  · rintro ⟨rfl, h⟩
    exact .hyphen rest h

theorem Bound.ne_nil (h : Bound c text) : text ≠ [] := by
  cases h with
  | plain => exact List.cons_ne_nil _ _
  | escaped => exact List.cons_ne_nil _ _

theorem Member.ne_nil (h : Member range text rest) : text ≠ [] := by
  cases h with
  | single h => exact h.ne_nil
  | range _ h => exact List.append_ne_nil_of_left_ne_nil h.ne_nil _

theorem readMember_single (h : Bound c text) (hrest : ¬ Joins rest) :
    readMember (text ++ rest) = some ((c, c), rest) := by
  unfold readMember
  simp only [readBound_of_bound h, Option.bind_eq_bind, Option.bind_some]
  split
  next => rfl
  next => rfl
  next after hlone hclose =>
    -- This hyphen would join.
    cases after with
    | nil => exact absurd rfl hlone
    | cons d after =>
      refine absurd (joins_cons_cons.2 ⟨rfl, ?_⟩) hrest
      rintro rfl
      exact hclose after rfl
  next => rfl

theorem readMember_range {a : Char} (h : Bound a text) (hrest : Joins ('-' :: rest)) :
    readMember (text ++ '-' :: rest) =
      (readBound rest).map fun bound => ((min a bound.1, max a bound.1), bound.2) := by
  obtain ⟨after, hopen⟩ := hrest
  unfold readMember
  simp only [readBound_of_bound h, Option.bind_eq_bind, Option.bind_some]
  split
  next heq => cases heq
  next heq =>
    cases heq
    exact absurd rfl hopen
  next bound _ _ heq =>
    cases heq
    rw [Option.map_eq_bind]
    congr 1
    funext ⟨b, last⟩
    simp only [min_def, max_def, Function.comp_apply]
    split
    · rfl
    · rfl
  next hno => exact absurd rfl (hno _)

theorem readMember_of_member (h : Member range text rest) :
    readMember (text ++ rest) = some (range, rest) := by
  cases h with
  | single h hrest => exact readMember_single h hrest
  | @range a b text text' _ h h' hopen =>
    have hjoins : Joins ('-' :: (text' ++ rest)) := by
      cases h' with
      | plain => exact .hyphen _ fun heq => hopen (congrArg some heq)
      | escaped => exact .hyphen _ (by decide)
    rw [List.append_assoc, List.cons_append, readMember_range h hjoins, readBound_of_bound h']
    rfl

/-- Nothing is read where the text ends in an escape of nothing. -/
theorem readMember_cases (cs : List Char) :
    (∃ range text rest, Member range text rest ∧ cs = text ++ rest) ∨
      cs = [] ∨ cs = ['\\'] ∨ ∃ c text, Bound c text ∧ cs = text ++ ['-', '\\'] := by
  rcases readBound_cases cs with ⟨c, text, rest, hbound, rfl⟩ | rfl | rfl
  · by_cases hjoins : Joins rest
    · obtain @⟨d, after, hopen⟩ := hjoins
      rcases readBound_cases (d :: after) with ⟨b, text', rest, hbound', heq⟩ | heq | heq
      · refine .inl ⟨_, text ++ '-' :: text', rest, .range rest hbound hbound' ?_, ?_⟩
        · rw [← List.head?_append_of_ne_nil _ hbound'.ne_nil, ← heq]
          exact fun hsome => hopen (Option.some.inj hsome)
        · rw [heq, List.append_assoc, List.cons_append]
      · cases heq
      · exact .inr (.inr (.inr ⟨c, text, hbound, by rw [heq]⟩))
    · exact .inl ⟨_, text, rest, .single hbound hjoins, rfl⟩
  · exact .inr (.inl rfl)
  · exact .inr (.inr (.inl rfl))

/-! ## Classes -/

theorem Bound.closed_iff (h : Bound c text) (hopen : text.head? ≠ some ']') :
    Closed (text ++ rest) ↔ Closed rest := by
  cases h with
  | plain h =>
    refine ⟨fun hclosed => ?_, .plain h⟩
    cases hclosed with
    | bracket => exact absurd rfl hopen
    | plain _ hrest => exact hrest
    | escaped => exact absurd rfl h
  | escaped =>
    refine ⟨fun hclosed => ?_, .escaped c⟩
    cases hclosed with
    | plain h => exact absurd rfl h
    | escaped _ hrest => exact hrest

theorem Bound.closed (h : Bound c text) (hrest : Closed rest) : Closed (text ++ rest) := by
  cases h with
  | plain h => exact .plain h hrest
  | escaped => exact .escaped c hrest

theorem Member.closed (h : Member range text rest) (hmore : Closed more) :
    Closed (text ++ more) := by
  cases h with
  | single h => exact h.closed hmore
  | range _ h h' =>
    rw [List.append_assoc]
    exact h.closed (.plain (by decide) (h'.closed hmore))

theorem Member.closed_rest (h : Member range text rest) (hopen : text.head? ≠ some ']')
    (hclosed : Closed (text ++ more)) : Closed more := by
  cases h with
  | single h => exact (h.closed_iff hopen).1 hclosed
  | range _ h h' hopen' =>
    rw [List.head?_append_of_ne_nil _ h.ne_nil] at hopen
    rw [List.append_assoc, h.closed_iff hopen] at hclosed
    have hhyphen : Bound '-' ['-'] := .plain (by decide)
    exact (h'.closed_iff hopen').1 ((hhyphen.closed_iff (by decide)).1 hclosed)

theorem Members.closed (h : Members false ranges text) (more : List Char) :
    Closed (text ++ more) := by
  generalize hfirst : false = first at h
  induction h with
  | close => exact .bracket more
  | member h _ _ ih =>
    rw [List.append_assoc]
    exact h.closed (ih rfl)

theorem Members.exists_bracket (h : Members first ranges text) :
    ∃ front, text = front ++ [']'] := by
  induction h with
  | close => exact ⟨[], rfl⟩
  | @member _ _ _ text _ _ _ _ ih =>
    obtain ⟨front, rfl⟩ := ih
    exact ⟨text ++ front, (List.append_assoc ..).symm⟩

/-- What follows a class does not change what its hyphens join. -/
theorem Member.append (h : Member range text rest) (hrest : Members false ranges rest)
    (more : List Char) : Member range text (rest ++ more) := by
  cases h with
  | range _ h h' hopen => exact .range _ h h' hopen
  | single h hjoins =>
    refine .single h fun hmore => hjoins ?_
    obtain ⟨front, rfl⟩ := hrest.exists_bracket
    match front with
    | [] => cases hmore
    | [c] => exact absurd rfl (joins_cons_cons.1 hmore).2
    | c :: d :: front => exact joins_cons_cons.2 (joins_cons_cons.1 hmore)

theorem Member.of_append (h : Member range text (rest ++ more)) : Member range text rest := by
  cases h with
  | range _ h h' hopen => exact .range _ h h' hopen
  | single h hjoins =>
    refine .single h fun hrest => hjoins ?_
    obtain ⟨rest, hopen⟩ := hrest
    exact .hyphen _ hopen

theorem readMembers_of_members (h : Members false ranges text) (more : List Char) :
    readMembers (text ++ more) = some (ranges, more) := by
  generalize hfirst : false = first at h
  induction h with
  | close =>
    rw [readMembers]
    rfl
  | @member _ range ranges text rest h hopen hrest ih =>
    subst hfirst
    have hhead : (text ++ rest ++ more).head? ≠ some ']' := by
      rw [List.append_assoc, List.head?_append_of_ne_nil _ h.ne_nil]
      exact hopen.resolve_left (by decide)
    rw [readMembers, if_neg hhead]
    split
    next hnone =>
      rw [List.append_assoc, readMember_of_member (h.append hrest more)] at hnone
      cases hnone
    next range' rest' hsome =>
      rw [List.append_assoc, readMember_of_member (h.append hrest more)] at hsome
      cases hsome
      rw [ih rfl]
      rfl

theorem not_closed_nil : ¬ Closed [] :=
  nofun

theorem not_closed_escape : ¬ Closed ['\\'] := by
  rintro (_ | ⟨h, -⟩)
  exact h rfl

/-- A text from which no range can be read holds nothing that closes a class. -/
theorem not_closed_of_readMember (h : readMember cs = none) (hopen : cs.head? ≠ some ']') :
    ¬ Closed cs := by
  rcases readMember_cases cs with ⟨range, text, rest, hmember, rfl⟩ | rfl | rfl |
    ⟨c, text, hbound, rfl⟩
  · rw [readMember_of_member hmember] at h
    cases h
  · exact not_closed_nil
  · exact not_closed_escape
  · rw [List.head?_append_of_ne_nil _ hbound.ne_nil] at hopen
    have hhyphen : Bound '-' ['-'] := .plain (by decide)
    exact fun hclosed => not_closed_escape
      ((hhyphen.closed_iff (by decide)).1 ((hbound.closed_iff hopen).1 hclosed))

theorem exists_member (h : readMember cs = some (range, rest)) :
    ∃ text, Member range text rest ∧ cs = text ++ rest := by
  rcases readMember_cases cs with ⟨range', text, rest', hmember, rfl⟩ | rfl | rfl |
    ⟨c, text, hbound, rfl⟩
  · rw [readMember_of_member hmember] at h
    cases h
    exact ⟨text, hmember, rfl⟩
  · cases h
  · cases h
  · rw [readMember_range hbound (.hyphen [] (by decide))] at h
    cases h

theorem readMembers_cases (cs : List Char) :
    (∃ ranges text rest, Members false ranges text ∧ cs = text ++ rest) ∨
      (¬ Closed cs ∧ readMembers cs = none) := by
  fun_induction readMembers cs with
  | case1 cs hhead =>
    obtain ⟨rest, rfl⟩ := List.head?_eq_some_iff.1 hhead
    exact .inl ⟨[], [']'], rest, .close, rfl⟩
  | case2 cs hhead hnone => exact .inr ⟨not_closed_of_readMember hnone hhead, rfl⟩
  | case3 cs hhead range rest hread ih =>
    obtain ⟨text, hmember, rfl⟩ := exists_member hread
    rw [List.head?_append_of_ne_nil _ hmember.ne_nil] at hhead
    rcases ih with ⟨ranges, more, after, hmembers, rfl⟩ | ⟨hopen, hnone⟩
    · exact .inl ⟨range :: ranges, text ++ more, after,
        .member hmember.of_append (.inr hhead) hmembers, (List.append_assoc ..).symm⟩
    · exact .inr ⟨fun hclosed => hopen (hmember.closed_rest hhead hclosed), by rw [hnone]; rfl⟩

/-- Whether a class is negated is said in first place. -/
theorem readClass_eq (cs : List Char) : readClass cs = (readMember (unmarked cs)).bind fun member =>
    (readMembers member.2).map fun members =>
      (.charClass (cs.head?.any isNegation) (member.1 :: members.1), members.2) := by
  unfold readClass
  split
  next negated body hbody =>
    obtain ⟨rfl, rfl⟩ : cs.head?.any isNegation = negated ∧ unmarked cs = body := by
      split at hbody
      next =>
        cases hbody
        exact ⟨rfl, rfl⟩
      next =>
        cases hbody
        exact ⟨rfl, rfl⟩
      next hcaret hbang =>
        cases hbody
        cases cs with
        | nil => exact ⟨rfl, rfl⟩
        | cons c cs =>
          have hmark : isNegation c = false := by
            rw [isNegation, Bool.or_eq_false_iff, decide_eq_false_iff_not, decide_eq_false_iff_not]
            exact ⟨fun h => hcaret cs (h ▸ rfl), fun h => hbang cs (h ▸ rfl)⟩
          exact ⟨hmark, by rw [unmarked, hmark]; rfl⟩
    cases readMember (unmarked cs) with
    | none => rfl
    | some member =>
      simp only [Option.bind_eq_bind, Option.bind_some]
      cases readMembers member.2 with
      | none => rfl
      | some members => rfl

theorem unmarked_append (h : unmarked text ≠ []) (more : List Char) :
    unmarked (text ++ more) = unmarked text ++ more ∧ (text ++ more).head? = text.head? := by
  cases text with
  | nil => exact absurd rfl h
  | cons c text =>
    refine ⟨?_, rfl⟩
    rw [List.cons_append, unmarked, unmarked]
    split
    · rfl
    · rfl

theorem exists_unmarked {body : List Char} (h : unmarked cs = body ++ rest) (hbody : body ≠ []) :
    ∃ text, unmarked text = body ∧ cs = text ++ rest := by
  cases cs with
  | nil => exact absurd (List.append_eq_nil_iff.1 h.symm).1 hbody
  | cons c cs =>
    rw [unmarked] at h
    split at h
    next hmark =>
      subst h
      exact ⟨c :: body, by rw [unmarked, if_pos hmark], rfl⟩
    next hmark =>
      cases body with
      | nil => exact absurd rfl hbody
      | cons d body =>
        cases h
        exact ⟨c :: body, by rw [unmarked, if_neg hmark], rfl⟩

theorem Members.ne_nil (h : Members first ranges text) : text ≠ [] := by
  obtain ⟨front, rfl⟩ := h.exists_bracket
  exact List.append_ne_nil_of_right_ne_nil _ (List.cons_ne_nil _ _)

theorem readClass_of_members (h : Members true ranges (unmarked text)) (more : List Char) :
    readClass (text ++ more) = some (.charClass (text.head?.any isNegation) ranges, more) := by
  obtain ⟨hbody, hhead⟩ := unmarked_append h.ne_nil more
  rw [readClass_eq, hbody, hhead]
  generalize unmarked text = body at h
  cases h with
  | member h _ hrest =>
    rw [List.append_assoc, readMember_of_member (h.append hrest more), Option.bind_some,
      readMembers_of_members hrest]
    rfl

theorem closesClass_iff : ClosesClass text ↔
    ∃ c rest, readBound (unmarked text) = some (c, rest) ∧ Closed rest := by
  constructor
  · rintro ⟨c, front, rest, hbound, htext, hclosed⟩
    exact ⟨c, rest, by rw [htext, readBound_of_bound hbound], hclosed⟩
  · rintro ⟨c, rest, hread, hclosed⟩
    rcases readBound_cases (unmarked text) with ⟨d, front, rest', hbound, htext⟩ | htext | htext
    · rw [htext, readBound_of_bound hbound] at hread
      cases hread
      exact ⟨c, front, rest, hbound, htext, hclosed⟩
    · rw [htext] at hread
      cases hread
    · rw [htext] at hread
      cases hread

theorem closesClass_of_members (h : Members true ranges (unmarked text)) (more : List Char) :
    ClosesClass (text ++ more) := by
  obtain ⟨hbody, -⟩ := unmarked_append h.ne_nil more
  rw [closesClass_iff, hbody]
  generalize unmarked text = body at h
  cases h with
  | member h _ hrest =>
    rw [List.append_assoc]
    have hclosed := hrest.closed more
    cases h with
    | single h => exact ⟨_, _, readBound_of_bound h _, hclosed⟩
    | range _ h h' =>
      rw [List.append_assoc]
      exact ⟨_, _, readBound_of_bound h _, .plain (by decide) (h'.closed hclosed)⟩

/-- What follows the first range of a class is closed if what follows its first character is. -/
theorem Member.closed_of_readBound (h : Member range text rest) {after : List Char}
    (hread : readBound (text ++ more) = some (c, after)) (hclosed : Closed after) :
    Closed more := by
  cases h with
  | single h =>
    rw [readBound_of_bound h] at hread
    cases hread
    exact hclosed
  | range _ h h' hopen =>
    rw [List.append_assoc, readBound_of_bound h] at hread
    cases hread
    have hhyphen : Bound '-' ['-'] := .plain (by decide)
    exact (h'.closed_iff hopen).1 ((hhyphen.closed_iff (by decide)).1 hclosed)

theorem readClass_cases (cs : List Char) :
    (∃ ranges text rest, Members true ranges (unmarked text) ∧ cs = text ++ rest) ∨
      (¬ ClosesClass cs ∧ readClass cs = none) := by
  rw [closesClass_iff, readClass_eq]
  rcases readMember_cases (unmarked cs) with ⟨range, text, rest, hmember, hbody⟩ | hbody | hbody |
    ⟨c, text, hbound, hbody⟩
  · rcases readMembers_cases rest with ⟨ranges, more, after, hmembers, rfl⟩ | ⟨hopen, hnone⟩
    · rw [← List.append_assoc] at hbody
      obtain ⟨whole, hwhole, rfl⟩ := exists_unmarked hbody
        (List.append_ne_nil_of_left_ne_nil hmember.ne_nil more)
      refine .inl ⟨range :: ranges, whole, after, ?_, rfl⟩
      rw [hwhole]
      exact .member hmember.of_append (.inl rfl) hmembers
    · refine .inr ⟨?_, ?_⟩
      · rintro ⟨c, after, hread, hclosed⟩
        rw [hbody] at hread
        exact hopen (hmember.closed_of_readBound hread hclosed)
      · rw [hbody, readMember_of_member hmember, Option.bind_some, hnone, Option.map_none]
  · rw [hbody]
    exact .inr ⟨nofun, rfl⟩
  · rw [hbody]
    exact .inr ⟨nofun, rfl⟩
  · rw [hbody, readBound_of_bound hbound, readMember_range hbound (.hyphen [] (by decide))]
    refine .inr ⟨?_, rfl⟩
    rintro ⟨d, after, hread, hclosed⟩
    cases hread
    have hhyphen : Bound '-' ['-'] := .plain (by decide)
    exact not_closed_escape ((hhyphen.closed_iff (by decide)).1 hclosed)

/-! ## Globs -/

theorem tokenize_of_spelled (h : Token.Spelled token text) (rest : List Char) :
    tokenize (text ++ rest) = (tokenize rest).map (token :: ·) := by
  cases h with
  | anyRun =>
    rw [tokenize.eq_def]
    rfl
  | anyChar =>
    rw [tokenize.eq_def]
    rfl
  | escaped =>
    rw [tokenize.eq_def]
    rfl
  | plain h =>
    simp only [isSpecial, Bool.or_eq_false_iff, decide_eq_false_iff_not] at h
    obtain ⟨⟨⟨hstar, hany⟩, hescape⟩, hclass⟩ := h
    rw [List.singleton_append, tokenize.eq_def]
    dsimp only
    rw [if_neg hstar, if_neg hany, if_neg hescape, if_neg hclass]
  | @charClass ranges text h =>
    rw [List.cons_append, tokenize.eq_def]
    dsimp only
    rw [if_neg (by decide), if_neg (by decide), if_neg (by decide), if_pos rfl]
    have hread := readClass_of_members h rest
    split
    next hnone =>
      rw [hread] at hnone
      cases hnone
    next hsome =>
      rw [hread] at hsome
      cases hsome
      rfl

theorem tokenize_of_spells (h : Spells tokens front) (rest : List Char) :
    tokenize (front ++ rest) = (tokenize rest).map (tokens ++ ·) := by
  induction tokens generalizing front with
  | nil =>
    rw [pieced_nil.1 h, List.nil_append]
    exact (id_map (tokenize rest)).symm
  | cons token tokens ih =>
    obtain ⟨piece, front, hpiece, hfront, rfl⟩ := pieced_cons.1 h
    rw [List.append_assoc, tokenize_of_spelled hpiece, ih hfront]
    exact (comp_map _ _ (tokenize rest)).symm

theorem tokenize_eq_of_spells (h : Spells tokens cs) : tokenize cs = .ok tokens := by
  have hwhole := tokenize_of_spells h []
  rw [List.append_nil, tokenize] at hwhole
  rw [hwhole]
  exact congrArg Except.ok (List.append_nil tokens)

theorem tokenize_of_faulty (h : Faulty fault cs) (hcs : cs ≠ []) :
    tokenize cs = .error fault := by
  cases h with
  | empty => exact absurd rfl hcs
  | trailingEscape h =>
    have hnothing : tokenize ['\\'] = .error .trailingEscape := by
      rw [tokenize.eq_def]
      rfl
    rw [tokenize_of_spells h, hnothing]
    rfl
  | @unclosedClass _ _ text h hopen =>
    have hnothing : tokenize ('[' :: text) = .error .unclosedClass := by
      rw [tokenize.eq_def]
      dsimp only
      rw [if_neg (by decide), if_neg (by decide), if_neg (by decide), if_pos rfl]
      rcases readClass_cases text with ⟨ranges, text, rest, hmembers, rfl⟩ | ⟨-, hnone⟩
      · exact absurd (closesClass_of_members hmembers rest) hopen
      · split
        next => rfl
        next hsome =>
          rw [hnone] at hsome
          cases hsome
    rw [tokenize_of_spells h, hnothing]
    rfl

/-- The text is spelled by tokens, or there is something wrong with it. -/
inductive Judged : List Char → Prop where
  | spelled {tokens : List Token} {cs : List Char} (h : Spells tokens cs) : Judged cs
  | faulty {fault : GlobError} {cs : List Char} (h : Faulty fault cs) (hfault : fault ≠ .empty) :
      Judged cs

theorem Judged.cons (h : Token.Spelled token text) (hrest : Judged rest) :
    Judged (text ++ rest) := by
  have hfront : ∀ {tokens : List Token} {front : List Char}, Spells tokens front →
      Spells (token :: tokens) (text ++ front) :=
    fun hfront => pieced_cons.2 ⟨text, _, h, hfront, rfl⟩
  cases hrest with
  | spelled hspells => exact .spelled (hfront hspells)
  | faulty hfaulty hfault =>
    cases hfaulty with
    | empty => exact absurd rfl hfault
    | trailingEscape hspells =>
      rw [← List.append_assoc]
      exact .faulty (.trailingEscape (hfront hspells)) hfault
    | unclosedClass hspells hopen =>
      rw [← List.append_assoc]
      exact .faulty (.unclosedClass (hfront hspells) hopen) hfault

theorem judged (cs : List Char) : Judged cs := by
  have hnothing : Spells [] [] := pieced_nil.2 rfl
  fun_induction tokenize cs with
  | case1 => exact .spelled hnothing
  | case2 rest ih => exact .cons .anyRun ih
  | case3 rest _ ih => exact .cons .anyChar ih
  | case4 => exact .faulty (.trailingEscape hnothing) (by decide)
  | case5 escaped rest _ _ ih => exact .cons (.escaped escaped) ih
  | case6 text hnone _ _ _ =>
    rcases readClass_cases text with ⟨ranges, text, rest, hmembers, rfl⟩ | ⟨hopen, -⟩
    · rw [readClass_of_members hmembers] at hnone
      cases hnone
    · exact .faulty (.unclosedClass hnothing hopen) (by decide)
  | case7 text token rest hread _ _ _ ih =>
    rcases readClass_cases text with ⟨ranges, text, rest', hmembers, rfl⟩ | ⟨-, hnone⟩
    · rw [readClass_of_members hmembers] at hread
      cases hread
      exact .cons (.charClass hmembers) ih
    · rw [hnone] at hread
      cases hread
  | case8 c rest hstar hany hescape hclass ih =>
    have hplain : isSpecial c = false := by simp [isSpecial, hstar, hany, hescape, hclass]
    exact .cons (.plain hplain) ih

theorem Faulty.ne_nil (h : Faulty fault cs) (hfault : fault ≠ .empty) : cs ≠ [] := by
  cases h with
  | empty => exact absurd rfl hfault
  | trailingEscape => exact List.append_ne_nil_of_right_ne_nil _ (List.cons_ne_nil _ _)
  | unclosedClass => exact List.append_ne_nil_of_right_ne_nil _ (List.cons_ne_nil _ _)

/-- The reader accepts what the grammar makes. -/
theorem tokenize_eq_ok_iff : tokenize cs = .ok tokens ↔ Spells tokens cs := by
  refine ⟨fun h => ?_, tokenize_eq_of_spells⟩
  cases judged cs with
  | spelled hspells =>
    rw [tokenize_eq_of_spells hspells] at h
    cases h
    exact hspells
  | faulty hfaulty hfault =>
    rw [tokenize_of_faulty hfaulty (hfaulty.ne_nil hfault)] at h
    cases h

theorem tokenize_eq_error_iff (hcs : cs ≠ []) :
    tokenize cs = .error fault ↔ Faulty fault cs := by
  refine ⟨fun h => ?_, fun h => tokenize_of_faulty h hcs⟩
  cases judged cs with
  | spelled hspells =>
    rw [tokenize_eq_of_spells hspells] at h
    cases h
  | faulty hfaulty =>
    rw [tokenize_of_faulty hfaulty hcs] at h
    cases h
    exact hfaulty

end Observatory.Glob
