import Observatory.Proofs.Glob.Match

/-!
# Scanning by places

A scan compares tokens and text at two places and keeps one pair of places to go back to: those of
the latest run. It goes back in both lists again and again, but never looks beyond their ends. Every
scan comes to an end, with the answer of the matcher: whether the text can be cut into pieces that
the tokens stand for.
-/

namespace Observatory.Glob

structure Scan where
  /-- The place of the next token. -/
  token : Nat
  /-- The place of the next character. -/
  char : Nat
  /-- The place of the latest run, and the one in the text where its piece ends. -/
  latest : Option (Nat × Nat)

namespace Scan

def start : Scan := ⟨0, 0, none⟩

inductive Turn where
  | onward (s : Scan)
  | answer (matching : Bool)
  /-- It has looked beyond the end of a list. -/
  | astray

/-- The latest run takes a character more, and the scan goes back to what is behind it. -/
def retreat : Option (Nat × Nat) → Turn
  | none => .answer false
  | some (token, char) => .onward ⟨token + 1, char + 1, some (token, char + 1)⟩

def turn (tokens : List Token) (text : List Char) (s : Scan) : Turn :=
  if s.char < text.length then
    match tokens[s.token]? with
    | none => retreat s.latest
    | some token =>
      if token.isRun then .onward ⟨s.token + 1, s.char, some (s.token, s.char)⟩
      else
        match text[s.char]? with
        | none => .astray
        | some c =>
          if token.accepts c then .onward ⟨s.token + 1, s.char + 1, s.latest⟩
          else retreat s.latest
  else if s.token ≤ tokens.length then .answer ((tokens.drop s.token).all Token.isRun)
  else .astray

/-- A scan that has not ended takes its next turn. -/
def next (tokens : List Token) (text : List Char) : Turn → Turn
  | .onward s => s.turn tokens text
  | .answer matching => .answer matching
  | .astray => .astray

/-- Some turns lead from `first` to `last`. -/
def Leads (tokens : List Token) (text : List Char) (first last : Turn) : Prop :=
  ∃ n, (next tokens text)^[n] first = last

section

variable {tokens tokens' rest : List Token} {text text' : List Char} {first mid last : Turn}
  {s : Scan} {t : Token} {c : Char} {token char : Nat} {latest : Option (Nat × Nat)}

theorem Leads.refl (first : Turn) : Leads tokens text first first :=
  ⟨0, rfl⟩

theorem Leads.trans (h : Leads tokens text first mid) (h' : Leads tokens text mid last) :
    Leads tokens text first last := by
  obtain ⟨n, rfl⟩ := h
  obtain ⟨m, rfl⟩ := h'
  exact ⟨m + n, Function.iterate_add_apply _ m n first⟩

theorem Leads.turn (h : s.turn tokens text = mid) (h' : Leads tokens text mid last) :
    Leads tokens text (.onward s) last :=
  Leads.trans ⟨1, h⟩ h'

/-- A scan that gives an answer does not go astray before or after. -/
theorem Leads.not_astray {matching : Bool} (h : Leads tokens text first (.answer matching))
    (n : Nat) : (next tokens text)^[n] first ≠ .astray := by
  intro hastray
  obtain ⟨m, hanswer⟩ := h
  have hboth := Function.Commute.iterate_iterate_self (next tokens text) m n first
  rw [hastray, hanswer, Function.iterate_fixed rfl, Function.iterate_fixed rfl] at hboth
  cases hboth

/-! ## What is behind the places -/

/-- From these places on there are these tokens and this text. -/
structure Behind (tokens : List Token) (text : List Char) (token char : Nat)
    (tokens' : List Token) (text' : List Char) : Prop where
  inside : token ≤ tokens.length
  drop_tokens : tokens.drop token = tokens'
  drop_text : text.drop char = text'

theorem behind_start : Behind tokens text 0 0 tokens text :=
  ⟨Nat.zero_le _, rfl, rfl⟩

theorem getElem?_of_drop {α : Type} {whole rest : List α} {a : α} {n : Nat}
    (h : whole.drop n = a :: rest) : n < whole.length ∧ whole[n]? = some a ∧
      whole.drop (n + 1) = rest := by
  have hlt : n < whole.length := by
    by_contra hle
    rw [List.drop_of_length_le (Nat.not_lt.1 hle)] at h
    cases h
  rw [List.drop_eq_getElem_cons hlt] at h
  obtain ⟨ha, hrest⟩ := List.cons.inj h
  exact ⟨hlt, by rw [List.getElem?_eq_getElem hlt, ha], hrest⟩

/-- The scan comes to what comparing up to the next run comes to. -/
inductive Compared (tokens : List Token) (text : List Char) (latest : Option (Nat × Nat))
    (first : Turn) : Advance → Prop where
  | finished {rest : List Token} (h : Leads tokens text first (.answer (rest.all Token.isRun))) :
      Compared tokens text latest first (.finished rest)
  | run {after : List Token} {left : List Char} {token char : Nat}
      (hbehind : Behind tokens text (token + 1) char after left)
      (h : Leads tokens text first (.onward ⟨token + 1, char, some (token, char)⟩)) :
      Compared tokens text latest first (.run after left)
  | mismatch (h : Leads tokens text first (retreat latest)) :
      Compared tokens text latest first .mismatch

theorem Compared.turn {a : Advance} (h : Compared tokens text latest mid a)
    (hturn : s.turn tokens text = mid) : Compared tokens text latest (.onward s) a := by
  cases h with
  | finished hleads => exact .finished (.turn hturn hleads)
  | run hbehind hleads => exact .run hbehind (.turn hturn hleads)
  | mismatch hleads => exact .mismatch (.turn hturn hleads)

namespace Behind

theorem next_token (h : Behind tokens text token char (t :: tokens') text') :
    Behind tokens text (token + 1) char tokens' text' := by
  obtain ⟨hlt, -, hrest⟩ := getElem?_of_drop h.drop_tokens
  exact ⟨hlt, hrest, h.drop_text⟩

theorem next_char (h : Behind tokens text token char tokens' (c :: text')) :
    Behind tokens text token (char + 1) tokens' text' :=
  ⟨h.inside, h.drop_tokens, (getElem?_of_drop h.drop_text).2.2⟩

theorem turn_end (h : Behind tokens text token char rest []) :
    turn tokens text ⟨token, char, latest⟩ = .answer (rest.all Token.isRun) := by
  have hend : ¬ char < text.length := Nat.not_lt.2 (List.drop_eq_nil_iff.1 h.drop_text)
  simp only [turn, if_neg hend, if_pos h.inside, h.drop_tokens]

theorem turn_used (h : Behind tokens text token char [] (c :: text')) :
    turn tokens text ⟨token, char, latest⟩ = retreat latest := by
  have hnone : tokens[token]? = none :=
    List.getElem?_eq_none (List.drop_eq_nil_iff.1 h.drop_tokens)
  simp only [turn, if_pos (getElem?_of_drop h.drop_text).1, hnone]

theorem turn_token (h : Behind tokens text token char (t :: tokens') (c :: text'))
    (latest : Option (Nat × Nat)) :
    turn tokens text ⟨token, char, latest⟩ =
      if t.isRun then .onward ⟨token + 1, char, some (token, char)⟩
      else if t.accepts c then .onward ⟨token + 1, char + 1, latest⟩
      else retreat latest := by
  obtain ⟨hlt, hc, -⟩ := getElem?_of_drop h.drop_text
  obtain ⟨-, ht, -⟩ := getElem?_of_drop h.drop_tokens
  simp only [turn, if_pos hlt, ht, hc]

theorem advance (h : Behind tokens text token char tokens' text')
    (latest : Option (Nat × Nat)) :
    Compared tokens text latest (.onward ⟨token, char, latest⟩) (advance tokens' text') := by
  fun_induction Glob.advance tokens' text' generalizing token char with
  | case1 rest => exact .finished (.turn h.turn_end (.refl _))
  | case2 c left => exact .mismatch (.turn h.turn_used (.refl _))
  | case3 t after c left hrun =>
    have hturn := h.turn_token latest
    rw [if_pos hrun] at hturn
    exact .run h.next_token (.turn hturn (.refl _))
  | case4 t after c left hrun haccepts ih =>
    have hturn := h.turn_token latest
    rw [if_neg hrun, if_pos haccepts] at hturn
    exact (ih h.next_token.next_char).turn hturn
  | case5 t after c left hrun haccepts =>
    have hturn := h.turn_token latest
    rw [if_neg hrun, if_neg haccepts] at hturn
    exact .mismatch (.turn hturn (.refl _))

/-- A scan that has met a run ends with the matcher's answer for what is behind it. -/
theorem matchRun (h : Behind tokens text (token + 1) char tokens' text') :
    Leads tokens text (.onward ⟨token + 1, char, some (token, char)⟩)
      (.answer (matchRun tokens' text')) := by
  have hcompared := h.advance (some (token, char))
  fun_induction Glob.matchRun tokens' text' generalizing token char with
  | case1 after left rest hadvance =>
    rw [hadvance] at hcompared
    cases hcompared with | finished hleads => exact hleads
  | case2 after left after' left' hadvance ih =>
    rw [hadvance] at hcompared
    cases hcompared with | run hbehind hleads => exact hleads.trans (ih hbehind (hbehind.advance _))
  | case3 after hadvance => simp [Glob.advance] at hadvance
  | case4 after c left hadvance ih =>
    rw [hadvance] at hcompared
    cases hcompared with
    | mismatch hleads => exact hleads.trans (ih h.next_char (h.next_char.advance _))

theorem matchAll (h : Behind tokens text token char tokens' text') :
    Leads tokens text (.onward ⟨token, char, none⟩) (.answer (matchAll tokens' text')) := by
  have hcompared := h.advance none
  unfold Glob.matchAll
  cases hadvance : Glob.advance tokens' text' with
  | finished rest =>
    rw [hadvance] at hcompared
    cases hcompared with | finished hleads => exact hleads
  | run after left =>
    rw [hadvance] at hcompared
    cases hcompared with | run hbehind hleads => exact hleads.trans hbehind.matchRun
  | mismatch =>
    rw [hadvance] at hcompared
    cases hcompared with | mismatch hleads => exact hleads

end Behind

end

/-- Every scan comes to an end without going astray, and its answer, which is the matcher's, is
whether the text can be cut into pieces that the tokens stand for. -/
theorem decides_cuts (tokens : List Token) (text : List Char) :
    (∃ n, (next tokens text)^[n] (.onward start) = .answer (matchAll tokens text)) ∧
      (∀ n, (next tokens text)^[n] (.onward start) ≠ .astray) ∧
      (matchAll tokens text = true ↔ Cuts tokens text) := by
  have hleads : Leads tokens text (.onward start) (.answer (matchAll tokens text)) :=
    behind_start.matchAll
  exact ⟨hleads, hleads.not_astray, matchAll_iff tokens text⟩

end Scan

end Observatory.Glob
