import Reckoner.Proofs.Reading

/-!
The language of the standard operators.

The standard table has numbers and no grammar. This module writes down the
grammar they stand for, one nonterminal for each level, and proves that recursion
reads exactly its language, with the trees that its productions build.

* `Derives` — the grammar: a token list, and the tree it stands for.
* `Derives.reads` — whatever a nonterminal derives is read at its thresholds, in
  front of any tokens that do not hold it tighter.
* `derives_of_reads` — whatever is read at a threshold is derived from the
  nonterminal for it.
* `parse_standard_eq_ok_iff` — so the engine succeeds with a tree if and only if
  the grammar derives it.
-/

namespace Reckoner.Grammar

open Climbing (Reads Stops)

/-! ### Nonterminals -/

/-- The nonterminals, the loosest first. -/
inductive Nonterminal where
  | bitOr
  | xor
  | bitAnd
  | shift
  | add
  | mul
  | unary
  | power
  | atom
deriving DecidableEq, Repr

namespace Nonterminal

/-- The operators that associate to the left at a level. -/
def symbols : Nonterminal → List String
  | bitOr => ["|"]
  | xor => ["^"]
  | bitAnd => ["&"]
  | shift => ["<<", ">>"]
  | add => ["+", "-"]
  | mul => ["*", "/", "%"]
  | unary | power | atom => []

def tighter : Nonterminal → Nonterminal
  | bitOr => xor
  | xor => bitAnd
  | bitAnd => shift
  | shift => add
  | add => mul
  | mul => unary
  | unary => power
  | power | atom => atom

end Nonterminal

/-! ### Productions -/

def Spells (token : Token) (symbol : String) : Prop :=
  token.kind = .operator ∧ token.text = symbol

/-- `Derives level tokens expr`: the nonterminal derives the tokens, and the tree they stand for
is `expr`. -/
inductive Derives : Nonterminal → List Token → Expr → Prop where
  /-- A level goes on to the left with its own operators. -/
  | chain {level symbol token left right a b} :
      symbol ∈ level.symbols → Spells token symbol →
      Derives level left a → Derives level.tighter right b →
      Derives level (left ++ token :: right) (.binary symbol a b)
  | prefixed {symbol token tokens operand} :
      symbol ∈ ["+", "-", "~"] → Spells token symbol → Derives .unary tokens operand →
      Derives .unary (token :: tokens) (.unary symbol operand)
  | power {token left right a b} :
      Spells token "**" → Derives .atom left a → Derives .unary right b →
      Derives .power (left ++ token :: right) (.binary "**" a b)
  | number {token value} :
      token.kind = .number → (Text.readInt? token.text).bind Arithmetic.narrow? = some value →
      Derives .atom [token] (.literal value)
  | group {opening tokens closing expr} :
      opening.kind = .openParen → Derives .bitOr tokens expr → closing.kind = .closeParen →
      Derives .atom (opening :: tokens ++ [closing]) expr
  /-- A level is also a single expression of the next. -/
  | tighter {level tokens expr} : Derives level.tighter tokens expr → Derives level tokens expr

/-! ### Levels and powers -/

namespace Nonterminal

/-- The number of looser levels. -/
def rank : Nonterminal → Nat
  | bitOr => 0
  | xor => 1
  | bitAnd => 2
  | shift => 3
  | add => 4
  | mul => 5
  | unary => 6
  | power => 7
  | atom => 8

/-- The left power of the operators of a level; an atom is held by every operator. -/
def left : Nonterminal → Power
  | bitOr => 1
  | xor => 3
  | bitAnd => 5
  | shift => 7
  | add => 9
  | mul => 11
  | unary | power | atom => 14

/-- The right power of the operators of a level, above that of every operator for an atom. -/
def right : Nonterminal → Power
  | bitOr => 2
  | xor => 4
  | bitAnd => 6
  | shift => 8
  | add => 10
  | mul => 12
  | unary | power => 13
  | atom => 15

theorem rank_injective {level other : Nonterminal} (h : level.rank = other.rank) :
    level = other := by
  cases level <;> cases other <;> revert h <;> decide

theorem rank_le_atom (level : Nonterminal) : level.rank ≤ atom.rank := by
  cases level <;> decide

theorem rank_tighter {level : Nonterminal} (h : level.rank < atom.rank) :
    level.tighter.rank = level.rank + 1 := by
  cases level <;> revert h <;> decide

theorem left_le_tighter (level : Nonterminal) : level.left ≤ level.tighter.left := by
  cases level <;> decide

theorem right_le_tighter (level : Nonterminal) : level.right ≤ level.tighter.right := by
  cases level <;> decide

/-- Whatever reaches the threshold is at this level or a tighter one. -/
def Covers (level : Nonterminal) (threshold : Power) : Prop :=
  ∀ other : Nonterminal, threshold ≤ other.left → level.rank ≤ other.rank

theorem covers_bitOr (threshold : Power) : Covers .bitOr threshold :=
  fun _ _ => Nat.zero_le _

theorem covers_unary : Covers .unary 13 := by
  intro other hle
  cases other <;> revert hle <;> decide

/-- The levels that associate to the left are those up to products. -/
theorem rank_le_mul {level : Nonterminal} {symbol : String} (h : symbol ∈ level.symbols) :
    level.rank ≤ mul.rank := by
  cases level <;> simp_all [symbols, rank]

/-- The right operand of a left-associative operator is of the next level. -/
theorem covers_tighter {level : Nonterminal} (h : level.rank ≤ mul.rank) :
    Covers level.tighter level.right := by
  intro other hle
  cases level <;> cases other <;> revert h hle <;> decide

theorem left_lt_right {level : Nonterminal} (h : level.rank ≤ mul.rank) :
    level.left < level.right := by
  cases level <;> revert h <;> decide

theorem right_le_left_tighter {level : Nonterminal} (h : level.rank ≤ mul.rank) :
    level.right ≤ level.tighter.left := by
  cases level <;> revert h <;> decide

theorem right_le_left_atom {level : Nonterminal} (h : level.rank ≤ mul.rank) :
    level.right ≤ atom.left := by
  cases level <;> revert h <;> decide

/-- An operator that does not hold tighter than a level is of that level or a looser one. -/
theorem rank_le_of_left_lt {level other : Nonterminal} (h : level.rank ≤ mul.rank)
    (hlt : level.left < other.right) : level.rank ≤ other.rank := by
  cases level <;> cases other <;> revert h hlt <;> decide

end Nonterminal

open Nonterminal

/-- An expression of one level is an expression of every looser one. -/
theorem Derives.loosen {level looser : Nonterminal} {tokens : List Token} {expr : Expr}
    (h : Derives level tokens expr) (hrank : looser.rank ≤ level.rank) :
    Derives looser tokens expr := by
  obtain ⟨steps, hsteps⟩ := Nat.le.dest hrank
  induction steps generalizing looser with
  | zero => exact rank_injective hsteps ▸ h
  | succ steps ih =>
    have hatom := rank_le_atom level
    have htighter : looser.tighter.rank = looser.rank + 1 := rank_tighter (by omega)
    exact .tighter (ih (by omega) (by omega))

/-! ### The standard operators, by level -/

/-- An operator of a level has the powers of the level. -/
theorem binary?_of_mem_symbols {level : Nonterminal} {symbol : String}
    (h : symbol ∈ level.symbols) :
    ∃ entry, Table.standard.binary? symbol = some entry ∧ entry.left = level.left ∧
      entry.right = level.right := by
  have hpowers : (Table.standard.binary? symbol).map (fun entry => (entry.left, entry.right)) =
      some (level.left, level.right) := by
    revert symbol
    cases level <;> decide
  obtain ⟨entry, hentry, hboth⟩ := Option.map_eq_some_iff.mp hpowers
  exact ⟨entry, hentry, congrArg Prod.fst hboth, congrArg Prod.snd hboth⟩

theorem binary?_power :
    ∃ entry, Table.standard.binary? "**" = some entry ∧ entry.left = 14 ∧ entry.right = 13 :=
  ⟨_, rfl, rfl, rfl⟩

theorem unary?_of_mem {symbol : String} (h : symbol ∈ ["+", "-", "~"]) :
    ∃ entry, Table.standard.unary? symbol = some entry ∧ entry.right = 13 := by
  have hpower : (Table.standard.unary? symbol).map (·.right) = some 13 := by
    revert symbol
    decide
  obtain ⟨entry, hentry, hright⟩ := Option.map_eq_some_iff.mp hpower
  exact ⟨entry, hentry, hright⟩

/-- Every operator between operands is of a level that associates to the left, or is `**`. -/
theorem level_of_mem_binary {entry : BinaryEntry} (h : entry ∈ Table.standard.binary) :
    (∃ level : Nonterminal, entry.symbol ∈ level.symbols ∧ entry.left = level.left ∧
        entry.right = level.right) ∨
      entry.symbol = "**" ∧ entry.left = 14 ∧ entry.right = 13 := by
  have hlevels : ∀ entry ∈ Table.standard.binary,
      (∃ level ∈ [bitOr, xor, bitAnd, shift, add, mul], entry.symbol ∈ level.symbols ∧
          entry.left = level.left ∧ entry.right = level.right) ∨
        entry.symbol = "**" ∧ entry.left = 14 ∧ entry.right = 13 := by
    decide
  rcases hlevels entry h with ⟨level, _, hlevel⟩ | hpower
  · exact .inl ⟨level, hlevel⟩
  · exact .inr hpower

theorem of_mem_unary {entry : UnaryEntry} (h : entry ∈ Table.standard.unary) :
    entry.symbol ∈ ["+", "-", "~"] ∧ entry.right = 13 := by
  revert entry
  decide

/-- No operator holds tighter than an atom does. -/
theorem stops_atom (tokens : List Token) : Stops .standard atom.right tokens := by
  have hleft : ∀ entry ∈ Table.standard.binary, entry.left < atom.right := by decide
  cases tokens with
  | nil => trivial
  | cons token tokens =>
    intro entry hentry
    exact hleft entry (Table.mem_of_binaryFor? hentry).2.1

/-! ### What is derived is read -/

/-- In front of an operator, a reading goes on from `left` with the right operand. -/
theorem reads_binary {threshold : Power} {token : Token} {symbol : String} {entry : BinaryEntry}
    (hspells : Spells token symbol) (hentry : Table.standard.binary? symbol = some entry)
    (hle : threshold ≤ entry.left) {left right expr : Expr} {tokens middle rest : List Token}
    (hright : Reads .standard entry.right none tokens right middle)
    (h : Reads .standard threshold (some (.binary symbol left right)) middle expr rest) :
    Reads .standard threshold (some left) (token :: tokens) expr rest := by
  obtain ⟨hkind, rfl⟩ := hspells
  have hbinary := Table.binaryFor?_eq_some_iff.mpr ⟨hkind, hentry⟩
  rw [← (Table.mem_of_binary? hentry).2] at h
  exact .binary hbinary hle hright h

/-- **Completeness.** Tokens that a level derives are read with every threshold that its operators
reach, in front of any tokens where climbing stops above the level. Whatever the reading makes of
the tree after that, it makes from the tokens. -/
theorem Derives.reads {level : Nonterminal} {tokens : List Token} {expr : Expr}
    (h : Derives level tokens expr) {threshold : Power} (hle : threshold ≤ level.left)
    {rest : List Token} (hstops : Stops .standard level.right rest) {result : Expr}
    {final : List Token} (hrest : Reads .standard threshold (some expr) rest result final) :
    Reads .standard threshold none (tokens ++ rest) result final := by
  induction h generalizing threshold rest result final with
  | @chain level symbol token left right a b hsymbol hspells _ _ ihLeft ihRight =>
    obtain ⟨entry, hentry, hleft, hright⟩ := binary?_of_mem_symbols hsymbol
    have hrank := rank_le_mul hsymbol
    have hoperand : Reads .standard entry.right none (right ++ rest) b rest := by
      rw [hright]
      exact ihRight (right_le_left_tighter hrank) (hstops.mono (right_le_tighter level))
        (.stop hstops)
    have hstart : Stops .standard level.right (token :: (right ++ rest)) := by
      intro other hother
      obtain ⟨_, rfl⟩ := hspells
      rw [(Table.binaryFor?_eq_some_iff.mp hother).2] at hentry
      cases hentry
      rw [hleft]
      exact left_lt_right hrank
    rw [List.append_assoc, List.cons_append]
    exact ihLeft hle hstart (reads_binary hspells hentry (hleft ▸ hle) hoperand hrest)
  | @prefixed symbol token tokens operand hsymbol hspells _ ih =>
    obtain ⟨hkind, rfl⟩ := hspells
    obtain ⟨entry, hentry, hright⟩ := unary?_of_mem hsymbol
    have hatom := Table.atom_eq_operator_iff.mpr ⟨hkind, hentry⟩
    have hoperand : Reads .standard entry.right none (tokens ++ rest) operand rest := by
      rw [hright]
      exact ih (by decide) hstops (.stop hstops)
    rw [← (Table.mem_of_unary? hentry).2] at hrest
    exact .operator hatom hoperand hrest
  | @power token left right a b hspells _ _ ihLeft ihRight =>
    obtain ⟨entry, hentry, hleft, hright⟩ := binary?_power
    have hoperand : Reads .standard entry.right none (right ++ rest) b rest := by
      rw [hright]
      exact ihRight (by decide) hstops (.stop hstops)
    rw [List.append_assoc, List.cons_append]
    exact ihLeft hle (stops_atom _) (reads_binary hspells hentry (hleft ▸ hle) hoperand hrest)
  | number hkind hvalue =>
    exact .operand (Table.atom_eq_operand_iff.mpr ⟨hkind, _, hvalue, rfl⟩) hrest
  | @group opening tokens closing expr hopen _ hclose ih =>
    have hclosing : ∀ threshold, Stops .standard threshold (closing :: rest) := by
      intro threshold
      exact .of_closeParen hclose threshold rest
    have hinner : Reads .standard .group none (tokens ++ closing :: rest) expr (closing :: rest) :=
      ih (by decide) (hclosing _) (.stop (hclosing _))
    rw [List.append_assoc, List.cons_append]
    exact .group (Table.atom_eq_group_iff.mpr ⟨hopen, rfl⟩) hinner hclose hrest
  | @tighter level tokens expr _ ih =>
    exact ih (Int.le_trans hle (left_le_tighter level)) (hstops.mono (right_le_tighter level)) hrest

/-! ### What is read is derived -/

/-- What a reading with the threshold may go on from: nothing, or a tree that the tokens before
derive from some level, which the threshold does not exceed and the next token does not hold
tighter. -/
inductive Begun (threshold : Power) (tokens : List Token) : Option Expr → List Token → Prop where
  | nothing : threshold ≤ atom.left → Begun threshold tokens none []
  | tree {level before left} :
      Derives level before left → threshold ≤ level.left → Stops .standard level.right tokens →
      Begun threshold tokens (some left) before

/-- **Soundness.** What was begun and what is read from there on together derive the tree from the
level that the threshold covers. -/
theorem derives_of_reads {threshold : Power} {operand : Option Expr} {tokens rest : List Token}
    {expr : Expr} (h : Reads .standard threshold operand tokens expr rest) {goal : Nonterminal}
    (hgoal : goal.Covers threshold) {before : List Token}
    (hbegun : Begun threshold tokens operand before) :
    ∃ consumed, tokens = consumed ++ rest ∧ Derives goal (before ++ consumed) expr := by
  induction h generalizing goal before with
  | @operand _ token _ _ _ _ hatom _ ih =>
    obtain ⟨hle⟩ := hbegun
    obtain ⟨hkind, value, hvalue, rfl⟩ := Table.atom_eq_operand_iff.mp hatom
    have hnumber := Derives.number hkind hvalue
    obtain ⟨consumed, rfl, hderives⟩ := ih hgoal (.tree hnumber hle (stops_atom _))
    exact ⟨token :: consumed, rfl, hderives⟩
  | @operator _ token _ entry _ _ _ _ hatom hoperand _ ih ih' =>
    obtain ⟨hle⟩ := hbegun
    obtain ⟨hkind, hmem, htext⟩ := Table.mem_of_atom_operator hatom
    obtain ⟨hsymbol, hright⟩ := of_mem_unary hmem
    have hstops := hoperand.stops
    rw [hright] at ih hstops
    obtain ⟨operand, rfl, hunary⟩ := ih covers_unary (.nothing (by decide))
    have hprefixed := Derives.prefixed hsymbol ⟨hkind, htext.symm⟩ hunary
    obtain ⟨consumed, rfl, hderives⟩ := ih' hgoal (.tree hprefixed hle hstops)
    exact ⟨token :: operand ++ consumed, by simp, by simpa using hderives⟩
  | @group _ token _ _ _ close _ _ _ hatom _ hclose _ ih ih' =>
    obtain ⟨hle⟩ := hbegun
    obtain ⟨hopen, _⟩ := Table.atom_eq_group_iff.mp hatom
    obtain ⟨inner, rfl, hinner⟩ := ih (covers_bitOr _) (.nothing (by decide))
    have hgroup := Derives.group hopen hinner hclose
    obtain ⟨consumed, rfl, hderives⟩ := ih' hgoal (.tree hgroup hle (stops_atom _))
    exact ⟨token :: inner ++ [close] ++ consumed, by simp, by simpa using hderives⟩
  | stop _ =>
    obtain _ | ⟨hbefore, hle, _⟩ := hbegun
    exact ⟨[], rfl, by simpa using hbefore.loosen (hgoal _ hle)⟩
  | @binary _ token _ entry _ _ _ _ _ hentry hreach hoperand _ ih ih' =>
    obtain _ | @⟨level, _, _, hbefore, hle, hstops⟩ := hbegun
    have hlt := hstops entry hentry
    have hstops' := hoperand.stops
    obtain ⟨hkind, hmem, htext⟩ := Table.mem_of_binaryFor? hentry
    rcases level_of_mem_binary hmem with ⟨own, hsymbol, hleft, hright⟩ | ⟨hsymbol, hleft, hright⟩
    · -- The tree so far is at least as tight as the operator, so it is a left operand of its level.
      rw [hleft] at hlt hreach
      rw [hright] at ih hstops'
      have hrank := rank_le_mul hsymbol
      obtain ⟨right, rfl, hright⟩ :=
        ih (covers_tighter hrank) (.nothing (right_le_left_atom hrank))
      have hchain := Derives.chain hsymbol ⟨hkind, htext.symm⟩
        (hbefore.loosen (rank_le_of_left_lt hrank hlt)) hright
      obtain ⟨consumed, rfl, hderives⟩ := ih' hgoal (.tree hchain hreach hstops')
      exact ⟨token :: right ++ consumed, by simp, by simpa using hderives⟩
    · -- Only an atom is not held tighter by `**`.
      rw [hleft] at hlt hreach
      rw [hright] at ih hstops'
      obtain rfl : level = atom := by cases level <;> revert hlt <;> decide
      obtain ⟨right, rfl, hright⟩ := ih covers_unary (.nothing (by decide))
      have hpower := Derives.power ⟨hkind, htext.symm.trans hsymbol⟩ hbefore hright
      rw [← hsymbol] at hpower
      obtain ⟨consumed, rfl, hderives⟩ := ih' hgoal (.tree hpower hreach hstops')
      exact ⟨token :: right ++ consumed, by simp, by simpa using hderives⟩

/-! ### The language -/

/-- **Recursion with the standard operators reads exactly the language of the grammar**: it gives a
tree for a list of tokens if and only if the grammar derives the tokens and that tree. -/
theorem parse_standard_eq_ok_iff (tokens : List Token) (expr : Expr) :
    Climbing.parse .standard tokens = .ok expr ↔ Derives .bitOr tokens expr := by
  rw [Climbing.parse_eq_ok_iff]
  constructor
  · intro h
    obtain ⟨consumed, rfl, hderives⟩ :=
      derives_of_reads h (covers_bitOr _) (.nothing (by decide))
    simpa using hderives
  · intro h
    have hend : Stops .standard bitOr.right [] := trivial
    have hread : Reads .standard .group none (tokens ++ []) expr [] :=
      h.reads (by decide) hend (.stop trivial)
    rwa [List.append_nil] at hread

end Reckoner.Grammar
