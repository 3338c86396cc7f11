import Observatory.Proofs.Glob.Normal
import Observatory.Proofs.Identity.Key

/-!
# Patterns of one subsystem

The glob of a pattern for one subsystem is read behind the subsystem's name and a separator. These
are plain characters: each becomes a literal, wherever the glob begins, and behind them the tokens
are those of the glob alone. No name of a subsystem holds a separator, so the text of a key begins
with these characters just if the key is one of the subsystem.
-/

namespace Observatory.Glob

variable {tokens : List Token} {cs front text : List Char}

/-! ## Plain text in front -/

/-- The tokens that stand for a text as it is. -/
def literals (cs : List Char) : List Token :=
  cs.map .literal

theorem spells_literals (hplain : ∀ c ∈ cs, isSpecial c = false) : Spells (literals cs) cs := by
  induction cs with
  | nil => exact pieced_nil.2 rfl
  | cons c cs ih =>
    obtain ⟨hc, hcs⟩ := List.forall_mem_cons.1 hplain
    exact pieced_cons.2 ⟨[c], cs, .plain hc, ih hcs, rfl⟩

/-- Stars are made one only where they stand side by side, and no literal is a star. -/
theorem squeeze_literals (cs : List Char) (tokens : List Token) :
    squeeze (literals cs ++ tokens) = literals cs ++ squeeze tokens := by
  induction cs with
  | nil => rfl
  | cons c cs ih =>
    show squeeze (.literal c :: (literals cs ++ tokens)) =
      .literal c :: (literals cs ++ squeeze tokens)
    rw [← ih]
    rfl

theorem compile_append (hplain : ∀ c ∈ front, isSpecial c = false) (cs : List Char) :
    compile (front ++ cs) = (compile cs).map (literals front ++ ·) := by
  rw [compile, compile, tokenize_of_spells (spells_literals hplain)]
  cases tokenize cs with
  | error fault => rfl
  | ok tokens => exact congrArg Except.ok (squeeze_literals front tokens)

/-- A literal takes the character that it stands for and nothing else. -/
theorem cuts_literals : Cuts (literals cs ++ tokens) text ↔
    ∃ rest, cs ++ rest = text ∧ Cuts tokens rest := by
  induction cs generalizing text with
  | nil => simp [literals]
  | cons c cs ih =>
    show Cuts (.literal c :: (literals cs ++ tokens)) text ↔ _
    rw [cuts_one rfl]
    constructor
    · rintro ⟨d, after, haccepts, hcuts, rfl⟩
      obtain ⟨rest, rfl, hrest⟩ := ih.1 hcuts
      obtain rfl : c = d := by simpa [Token.accepts] using haccepts
      exact ⟨rest, rfl, hrest⟩
    · rintro ⟨rest, rfl, hrest⟩
      exact ⟨c, cs ++ rest, by simp [Token.accepts], ih.2 ⟨rest, rfl, hrest⟩, rfl⟩

end Observatory.Glob

namespace Observatory

/-- The text of a key begins with the name of its own subsystem only. -/
theorem EventKey.scope_prefix_iff {key : EventKey} {s : Subsystem} {rest : List Char} :
    KeyPattern.scope (some s) ++ rest = key.canonical.toList ↔ key.source.subsystem = s ∧
      rest = key.source.component.toList ++ keySeparator :: key.name.text.toList := by
  rw [EventKey.toList_canonical, KeyPattern.scope, List.append_assoc, List.singleton_append]
  constructor
  · intro h
    -- Both texts are cut at their first separators.
    have hcut := congrArg cutAtSeparator h
    rw [cutAtSeparator_append s.keySeparator_not_mem_name,
      cutAtSeparator_append (Subsystem.keySeparator_not_mem_name _)] at hcut
    obtain ⟨hname, hrest⟩ := Prod.mk.inj (Option.some.inj hcut)
    have hread := Subsystem.ofName?_name s
    rw [String.toList_injective hname, Subsystem.ofName?_name] at hread
    exact ⟨Option.some.inj hread, hrest⟩
  · rintro ⟨rfl, rfl⟩
    rfl

end Observatory

namespace Observatory.KeyPattern

open Glob

variable {glob : String}

/-! ## Compiling -/

theorem scope_plain (s : Subsystem) : ∀ c ∈ scope (some s), isSpecial c = false := by
  have hplain : (scope (some s)).all (!isSpecial ·) = true := by cases s <;> rfl
  simpa using hplain

/-- The pattern with its glob read behind the name of a subsystem. -/
def within (s : Subsystem) (own : KeyPattern) : KeyPattern :=
  ⟨some s, own.glob, literals (scope (some s)) ++ own.tokens⟩

theorem create_some (s : Subsystem) (glob : String) :
    create (some s) glob = (create none glob).map (within s) := by
  unfold create
  split
  · rfl
  · rw [compile_append (scope_plain s), scope, List.nil_append]
    cases compile glob.toList with
    | ok tokens => rfl
    | error fault => rfl

theorem create_name {own : KeyPattern} (hown : create none glob = .ok own) (s : Subsystem) :
    create none (s.name ++ "." ++ glob) =
      .ok ⟨none, s.name ++ "." ++ glob, (within s own).tokens⟩ := by
  have htext : scope none ++ (s.name ++ "." ++ glob).toList = scope (some s) ++ glob.toList := by
    simp [scope, keySeparator]
  have hsome : (s.name ++ "." ++ glob).isEmpty = false := by
    simp
  rw [create, hsome, htext, compile_append (scope_plain s)]
  unfold create at hown
  split at hown
  · cases hown
  · rw [scope, List.nil_append] at hown
    cases hcompile : compile glob.toList with
    | error fault =>
      rw [hcompile] at hown
      cases hown
    | ok tokens =>
      rw [hcompile] at hown
      cases hown
      rfl

/-! ## Matching -/

/-- What is in front of the tokens asks for the subsystem, and they are left with the rest of the
key. -/
theorem matchAll_scope (s : Subsystem) (tokens : List Token) (key : EventKey) :
    matchAll (literals (scope (some s)) ++ tokens) key.canonical.toList = true ↔
      key.source.subsystem = s ∧ matchAll tokens
        (key.source.component ++ "." ++ key.name.text).toList = true := by
  have htext : (key.source.component ++ "." ++ key.name.text).toList =
      key.source.component.toList ++ keySeparator :: key.name.text.toList := by
    simp [keySeparator]
  rw [matchAll_iff, matchAll_iff, cuts_literals, htext]
  constructor
  · rintro ⟨rest, hrest, hcuts⟩
    obtain ⟨hkey, rfl⟩ := EventKey.scope_prefix_iff.1 hrest
    exact ⟨hkey, hcuts⟩
  · rintro ⟨hkey, hcuts⟩
    exact ⟨_, EventKey.scope_prefix_iff.2 ⟨hkey, rfl⟩, hcuts⟩

theorem accepts_within (s : Subsystem) (own : KeyPattern) (key : EventKey) :
    (within s own).accepts key = matchAll (within s own).tokens key.canonical.toList := by
  rw [accepts, Bool.and_eq_right_iff_imp]
  intro hmatch
  have hkey := ((matchAll_scope s own.tokens key).1 hmatch).1
  exact beq_iff_eq.2 hkey.symm

/-- A pattern for one subsystem is no pattern just if its glob alone is none, for the same reason.
It matches the keys of the subsystem whose component and name the glob alone matches. The pattern
for all subsystems whose glob begins with the name of this one matches the same keys, so that to
look at the subsystem first changes nothing. -/
theorem create_scoped (s : Subsystem) (glob : String) :
    (∀ error, create (some s) glob = .error error ↔ create none glob = .error error) ∧
    ∀ p, create (some s) glob = .ok p → ∃ own full,
      create none glob = .ok own ∧ create none (s.name ++ "." ++ glob) = .ok full ∧
      ∀ key, (p.accepts key = true ↔ key.source.subsystem = s ∧
          matchAll own.tokens (key.source.component ++ "." ++ key.name.text).toList = true) ∧
        p.accepts key = full.accepts key ∧
        p.accepts key = matchAll p.tokens key.canonical.toList := by
  rw [create_some]
  cases hown : create none glob with
  | error error => exact ⟨fun _ => Iff.rfl, nofun⟩
  | ok own =>
    refine ⟨fun _ => ⟨nofun, nofun⟩, fun p hp => ?_⟩
    obtain rfl : within s own = p := Except.ok.inj hp
    refine ⟨own, _, rfl, create_name hown s, fun key => ⟨?_, ?_, accepts_within s own key⟩⟩
    · rw [accepts_within]
      exact matchAll_scope s own.tokens key
    · rw [accepts_within]
      rfl

/-- A key whose component holds a dot and whose name is empty is matched. One of another subsystem
is not, though its component begins with the name of this one. -/
theorem create_scoped_dotted : ∃ p, create (some .csw) "*.[!b]*" = .ok p ∧
    p.accepts ⟨⟨.csw, "x.y"⟩, ⟨""⟩⟩ = true ∧ p.accepts ⟨⟨.tcs, "CSW.x"⟩, ⟨"y"⟩⟩ = false := by
  have halone : create none "*.[!b]*" = .ok ⟨none, "*.[!b]*",
      [.anyRun, .literal '.', .charClass true [('b', 'b')], .anyRun]⟩ := by
    decide +kernel
  have hp : create (some .csw) "*.[!b]*" = .ok (within .csw _) :=
    (create_some .csw _).trans (congrArg (Except.map (within .csw)) halone)
  obtain ⟨own, full, hown, -, hkeys⟩ := (create_scoped .csw "*.[!b]*").2 _ hp
  obtain rfl := Except.ok.inj (halone.symm.trans hown)
  have hcuts : Cuts [.anyRun, .literal '.', .charClass true [('b', 'b')], .anyRun]
      "x.y.".toList := by
    refine ⟨[['x'], ['.'], ['y'], ['.']], .cons (.run _) (.cons (.one rfl) ?_), rfl⟩
    exact .cons (.one rfl) (.cons (.run _) .nil)
  refine ⟨_, hp, (hkeys _).1.2 ⟨rfl, (matchAll_iff _ _).2 hcuts⟩, ?_⟩
  apply Bool.eq_false_iff.2
  intro haccepts
  cases ((hkeys _).1.1 haccepts).1

end Observatory.KeyPattern
