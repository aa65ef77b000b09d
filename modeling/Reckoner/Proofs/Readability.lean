import Mathlib.Data.Set.Operations
import Reckoner.Proofs.Registered
import Reckoner.Proofs.Symbols

/-!
Texts of trees read in one way only.

A printed tree is known from the first characters of a text, without knowing where
it ends: if two printed trees, each with anything but a digit after it, make the
same characters, then the trees are the same and so is what follows them
(`Expr.sexpr_append_inj`, `Expr.canonical_append_inj`). Literals may be negative and
operators may stand in either place, so a `-` can be a sign or an operator. What
decides is what comes after the first operand: a `)` if it is the only one, a space
if there is another.

Two kinds of pieces are known in the same way:

* `Text.showInt_append_inj` — a number, if no digit follows;
* `Token.symbol_append_inj` — a symbol, if no `*` follows.
-/

namespace Reckoner

/-! ### Symbols in front of a text -/

namespace Token

/-- A symbol is told from every other by its text, if no `*` follows to make it longer. -/
theorem symbol_append_inj {symbol other : String} (hsymbol : symbol ∈ Table.standard.symbols)
    (hother : other ∈ Table.standard.symbols) {rest rest' : List Char}
    (hrest : rest.head? ≠ some '*') (hrest' : rest'.head? ≠ some '*')
    (h : symbol.toList ++ rest = other.toList ++ rest') : symbol = other ∧ rest = rest' := by
  have hlength : symbol.toList.length = other.toList.length := by
    have hfound := operatorLength?_append hsymbol hrest
    rw [h, operatorLength?_append hother hrest'] at hfound
    exact (Option.some.inj hfound).symm
  obtain ⟨htexts, hrests⟩ := List.append_inj h hlength
  exact ⟨String.toList_inj.mp htexts, hrests⟩

/-- The same with a space after the symbol. -/
theorem symbol_space_inj {symbol other : String} (hsymbol : symbol ∈ Table.standard.symbols)
    (hother : other ∈ Table.standard.symbols) {rest rest' : List Char}
    (h : symbol.toList ++ ' ' :: rest = other.toList ++ ' ' :: rest') :
    symbol = other ∧ rest = rest' := by
  obtain ⟨hsymbols, hrests⟩ := symbol_append_inj hsymbol hother (by simp) (by simp) h
  exact ⟨hsymbols, (List.cons.inj hrests).2⟩

/-- A symbol starts with no digit and no `(`, and only the `-` starts with a `-`. -/
theorem exists_symbol_eq_cons {symbol : String} (h : symbol ∈ Table.standard.symbols) :
    ∃ c cs, symbol.toList = c :: cs ∧ c.isDigit = false ∧ c ≠ '(' ∧ (c = '-' → cs = []) := by
  have hmem : symbol.toList ∈ operatorTexts := List.mem_map_of_mem h
  rw [operatorTexts_eq] at hmem
  simp only [List.mem_cons, List.not_mem_nil, or_false] at hmem
  rcases hmem with h | h | h | h | h | h | h | h | h | h | h | h <;>
    exact ⟨_, _, h, by decide⟩

end Token

/-! ### Literals and other trees -/

/-- Any literals, and the symbols of the standard table in either place. -/
def Vocabulary.spelled : Vocabulary where
  literal _ := True
  unary operator := operator ∈ Table.standard.symbols
  binary operator := operator ∈ Table.standard.symbols

namespace Expr

open Text (EndsNumber endsNumber_nil endsNumber_space endsNumber_paren)

/-- The text begins as both texts of the tree do: a literal is its number, and any other tree has
parentheses around it. -/
def Begins (text : List Char) : Expr → Prop
  | literal value => text = (Text.showInt value.toInt).toList
  | unary _ _ | binary _ _ _ => ∃ cs, text = '(' :: cs

/-- A tree whose text starts with a number is a literal, and its text ends with the number. -/
theorem Begins.exists_literal {text : List Char} {expr : Expr} (hbegins : Begins text expr)
    {n : Int} {rest rest' : List Char} (hrest : EndsNumber rest) (hrest' : EndsNumber rest')
    (h : text ++ rest = (Text.showInt n).toList ++ rest') :
    ∃ value, expr = literal value ∧ value.toInt = n ∧ rest = rest' := by
  have hparen : ∀ cs, '(' :: cs ++ rest ≠ (Text.showInt n).toList ++ rest' := by
    intro cs
    exact Text.ne_showInt_append rfl (by decide) (cs ++ rest) n rest'
  cases expr with
  | literal value =>
    cases hbegins
    exact ⟨value, rfl, Text.showInt_append_inj hrest hrest' h⟩
  | unary operator operand =>
    obtain ⟨cs, rfl⟩ := hbegins
    exact absurd h (hparen cs)
  | binary operator left right =>
    obtain ⟨cs, rfl⟩ := hbegins
    exact absurd h (hparen cs)

/-! ### S-expressions -/

theorem sexpr_unary_append (operator : String) (operand : Expr) (rest : List Char) :
    (unary operator operand).sexpr.toList ++ rest =
      '(' :: (operator.toList ++ ' ' :: (operand.sexpr.toList ++ ')' :: rest)) := by
  simp [sexpr, interpret, prefixed]

theorem sexpr_binary_append (operator : String) (left right : Expr) (rest : List Char) :
    (binary operator left right).sexpr.toList ++ rest =
      '(' :: (operator.toList ++
        ' ' :: (left.sexpr.toList ++ ' ' :: (right.sexpr.toList ++ ')' :: rest))) := by
  simp [sexpr, interpret, prefixed]

theorem begins_sexpr (expr : Expr) : Begins expr.sexpr.toList expr := by
  rw [← List.append_nil expr.sexpr.toList]
  cases expr with
  | literal value => exact List.append_nil _
  | unary operator operand => exact ⟨_, sexpr_unary_append operator operand []⟩
  | binary operator left right => exact ⟨_, sexpr_binary_append operator left right []⟩

/-- An S-expression is known from its characters, if no digit follows it. -/
theorem sexpr_append_inj {a b : Expr} (ha : a.Over .spelled) (hb : b.Over .spelled)
    {rest rest' : List Char} (hrest : EndsNumber rest) (hrest' : EndsNumber rest')
    (h : a.sexpr.toList ++ rest = b.sexpr.toList ++ rest') : a = b ∧ rest = rest' := by
  induction a generalizing b rest rest' with
  | literal value =>
    obtain ⟨other, rfl, hvalue, hrests⟩ := b.begins_sexpr.exists_literal hrest' hrest h.symm
    exact ⟨congrArg literal (Int64.toInt_inj.mp hvalue.symm), hrests.symm⟩
  | unary operator operand ih =>
    obtain ⟨hoperator, hoperand⟩ := ha
    cases b with
    | literal other => exact absurd ((begins_sexpr _).exists_literal hrest hrest' h) nofun
    | unary operator' operand' =>
      obtain ⟨hoperator', hoperand'⟩ := hb
      rw [sexpr_unary_append, sexpr_unary_append] at h
      obtain ⟨rfl, hafter⟩ := Token.symbol_space_inj hoperator hoperator' (List.cons.inj h).2
      obtain ⟨rfl, hend⟩ :=
        ih hoperand hoperand' (endsNumber_paren rest) (endsNumber_paren rest') hafter
      exact ⟨rfl, (List.cons.inj hend).2⟩
    | binary operator' left' right' =>
      obtain ⟨hoperator', hleft', _⟩ := hb
      rw [sexpr_unary_append, sexpr_binary_append] at h
      obtain ⟨_, hafter⟩ := Token.symbol_space_inj hoperator hoperator' (List.cons.inj h).2
      -- The first operand is the same, but one text ends after it and the other goes on.
      obtain ⟨_, hend⟩ := ih hoperand hleft' (endsNumber_paren rest) (endsNumber_space _) hafter
      exact absurd (List.cons.inj hend).1 (by decide)
  | binary operator left right ihLeft ihRight =>
    obtain ⟨hoperator, hleft, hright⟩ := ha
    cases b with
    | literal other => exact absurd ((begins_sexpr _).exists_literal hrest hrest' h) nofun
    | unary operator' operand' =>
      obtain ⟨hoperator', hoperand'⟩ := hb
      rw [sexpr_binary_append, sexpr_unary_append] at h
      obtain ⟨_, hafter⟩ := Token.symbol_space_inj hoperator hoperator' (List.cons.inj h).2
      obtain ⟨_, hend⟩ :=
        ihLeft hleft hoperand' (endsNumber_space _) (endsNumber_paren rest') hafter
      exact absurd (List.cons.inj hend).1 (by decide)
    | binary operator' left' right' =>
      obtain ⟨hoperator', hleft', hright'⟩ := hb
      rw [sexpr_binary_append, sexpr_binary_append] at h
      obtain ⟨rfl, hafter⟩ := Token.symbol_space_inj hoperator hoperator' (List.cons.inj h).2
      obtain ⟨rfl, hnext⟩ :=
        ihLeft hleft hleft' (endsNumber_space _) (endsNumber_space _) hafter
      obtain ⟨rfl, hend⟩ :=
        ihRight hright hright' (endsNumber_paren rest) (endsNumber_paren rest')
          (List.cons.inj hnext).2
      exact ⟨rfl, (List.cons.inj hend).2⟩

/-! ### Canonical texts -/

theorem canonical_unary_append (operator : String) (operand : Expr) (rest : List Char) :
    (unary operator operand).canonical.toList ++ rest =
      '(' :: (operator.toList ++ (operand.canonical.toList ++ ')' :: rest)) := by
  simp [toList_canonical_unary]

theorem canonical_binary_append (operator : String) (left right : Expr) (rest : List Char) :
    (binary operator left right).canonical.toList ++ rest =
      '(' :: (left.canonical.toList ++
        ' ' :: (operator.toList ++ ' ' :: (right.canonical.toList ++ ')' :: rest))) := by
  simp [toList_canonical_binary]

theorem begins_canonical (expr : Expr) : Begins expr.canonical.toList expr := by
  rw [← List.append_nil expr.canonical.toList]
  cases expr with
  | literal value => exact List.append_nil _
  | unary operator operand => exact ⟨_, canonical_unary_append operator operand []⟩
  | binary operator left right => exact ⟨_, canonical_binary_append operator left right []⟩

/-- A node with one operand is not written like one with two. A `-` may begin both, as an operator
in front of digits or as the sign of a literal; but the digits after it end at a `)` in one text and
at a space in the other. -/
theorem canonical_unary_append_ne {operator operator' : String} {operand left right : Expr}
    (hoperator : operator ∈ Table.standard.symbols) (rest rest' : List Char) :
    (unary operator operand).canonical.toList ++ rest ≠
      (binary operator' left right).canonical.toList ++ rest' := by
  intro h
  obtain ⟨c, cs, hcons, hdigit, hopen, hminus⟩ := Token.exists_symbol_eq_cons hoperator
  rw [canonical_unary_append, canonical_binary_append, hcons] at h
  replace h := (List.cons.inj h).2
  cases left with
  | literal value =>
    rw [toList_canonical_literal] at h
    cases hvalue : value.toInt with
    | ofNat n => exact Text.ne_showNat_append hdigit _ n _ (hvalue ▸ h)
    | negSucc n =>
      rw [hvalue, Text.toList_showInt_negSucc] at h
      obtain ⟨hsign, hafter⟩ := List.cons.inj h
      rw [hminus hsign] at hafter
      obtain ⟨_, _, _, hend⟩ := operand.begins_canonical.exists_literal (n := (n + 1 : Nat))
        (endsNumber_paren rest) (endsNumber_space _) hafter
      exact absurd (List.cons.inj hend).1 (by decide)
  | unary _ _ =>
    rw [canonical_unary_append] at h
    exact hopen (List.cons.inj h).1
  | binary _ _ _ =>
    rw [canonical_binary_append] at h
    exact hopen (List.cons.inj h).1

/-- A canonical text is known from its characters, if no digit follows it. -/
theorem canonical_append_inj {a b : Expr} (ha : a.Over .spelled) (hb : b.Over .spelled)
    {rest rest' : List Char} (hrest : EndsNumber rest) (hrest' : EndsNumber rest')
    (h : a.canonical.toList ++ rest = b.canonical.toList ++ rest') : a = b ∧ rest = rest' := by
  induction a generalizing b rest rest' with
  | literal value =>
    obtain ⟨other, rfl, hvalue, hrests⟩ := b.begins_canonical.exists_literal hrest' hrest h.symm
    exact ⟨congrArg literal (Int64.toInt_inj.mp hvalue.symm), hrests.symm⟩
  | unary operator operand ih =>
    obtain ⟨hoperator, hoperand⟩ := ha
    cases b with
    | literal other => exact absurd ((begins_canonical _).exists_literal hrest hrest' h) nofun
    | unary operator' operand' =>
      obtain ⟨hoperator', hoperand'⟩ := hb
      rw [canonical_unary_append, canonical_unary_append] at h
      obtain ⟨rfl, hafter⟩ := Token.symbol_append_inj hoperator hoperator'
        (operand.head?_canonical_ne_star _) (operand'.head?_canonical_ne_star _) (List.cons.inj h).2
      obtain ⟨rfl, hend⟩ :=
        ih hoperand hoperand' (endsNumber_paren rest) (endsNumber_paren rest') hafter
      exact ⟨rfl, (List.cons.inj hend).2⟩
    | binary operator' left' right' =>
      exact absurd h (canonical_unary_append_ne hoperator rest rest')
  | binary operator left right ihLeft ihRight =>
    obtain ⟨hoperator, hleft, hright⟩ := ha
    cases b with
    | literal other => exact absurd ((begins_canonical _).exists_literal hrest hrest' h) nofun
    | unary operator' operand' =>
      exact absurd h.symm (canonical_unary_append_ne hb.1 rest' rest)
    | binary operator' left' right' =>
      obtain ⟨hoperator', hleft', hright'⟩ := hb
      rw [canonical_binary_append, canonical_binary_append] at h
      obtain ⟨rfl, hnext⟩ :=
        ihLeft hleft hleft' (endsNumber_space _) (endsNumber_space _) (List.cons.inj h).2
      obtain ⟨rfl, hafter⟩ :=
        Token.symbol_space_inj hoperator hoperator' (List.cons.inj hnext).2
      obtain ⟨rfl, hend⟩ :=
        ihRight hright hright' (endsNumber_paren rest) (endsNumber_paren rest') hafter
      exact ⟨rfl, (List.cons.inj hend).2⟩

/-! ### Whole texts -/

theorem sexpr_inj {a b : Expr} (ha : a.Over .spelled) (hb : b.Over .spelled)
    (h : a.sexpr = b.sexpr) : a = b :=
  (sexpr_append_inj ha hb endsNumber_nil endsNumber_nil (h ▸ rfl)).1

theorem canonical_inj {a b : Expr} (ha : a.Over .spelled) (hb : b.Over .spelled)
    (h : a.canonical = b.canonical) : a = b :=
  (canonical_append_inj ha hb endsNumber_nil endsNumber_nil (h ▸ rfl)).1

/-- Registered operators are spelled by their symbols. -/
theorem Over.spelled_of_ofTable {expr : Expr} (h : expr.Over (.ofTable .standard)) :
    expr.Over .spelled := by
  refine h.mono ?_ ?_ ?_
  · intro value _
    trivial
  · intro operator hentry
    exact Table.mem_symbols_iff.mpr (.inr (Option.isSome_iff_exists.mpr hentry))
  · intro operator hentry
    exact Table.mem_symbols_iff.mpr (.inl (Option.isSome_iff_exists.mpr hentry))

/-- **Different trees have different texts.** Among the trees with any literals and the standard
symbols in either place, both the S-expression and the canonical text are those of one tree only.
The engines make such trees of any tokens, so if what two of them have read is printed alike, it is
the same tree. -/
theorem texts_injective :
    Set.InjOn sexpr {expr | expr.Over .spelled} ∧
      Set.InjOn canonical {expr | expr.Over .spelled} ∧
      ∀ (engine other : Engine) (tokens others : List Token) (a b : Expr),
        engine.parse .standard tokens = .ok a → other.parse .standard others = .ok b →
        a.sexpr = b.sexpr ∨ a.canonical = b.canonical → a = b := by
  refine ⟨?_, ?_, ?_⟩
  · intro a ha b hb
    exact sexpr_inj ha hb
  · intro a ha b hb
    exact canonical_inj ha hb
  · intro engine other tokens others a b hparse hparse' htexts
    have ha := (Engine.over_of_parse hparse).spelled_of_ofTable
    have hb := (Engine.over_of_parse hparse').spelled_of_ofTable
    rcases htexts with hsexpr | hcanonical
    · exact sexpr_inj ha hb hsexpr
    · exact canonical_inj ha hb hcanonical

/-- The `-` of a literal and the operator `-` in front of one are told apart. What the shunting yard
makes of `(-(5))` is the tree that recursion makes of `-5`, since it is printed alike. -/
theorem texts_injective_minus :
    let negative := literal (-5)
    let negation := unary "-" (literal 5)
    (negative.Over .spelled ∧ negation.Over .spelled ∧ negative.sexpr ≠ negation.sexpr ∧
        negative.canonical ≠ negation.canonical) ∧
      Engine.climbing.parse .standard [⟨.operator, "-", ⟨0, 1⟩⟩, ⟨.number, "5", ⟨1, 2⟩⟩] =
        .ok negation ∧
      ∃ found, Engine.shuntingYard.parse .standard
          [⟨.openParen, "(", ⟨0, 1⟩⟩, ⟨.operator, "-", ⟨1, 2⟩⟩, ⟨.openParen, "(", ⟨2, 3⟩⟩,
            ⟨.number, "5", ⟨3, 4⟩⟩, ⟨.closeParen, ")", ⟨4, 5⟩⟩, ⟨.closeParen, ")", ⟨5, 6⟩⟩] =
          .ok found ∧ found.canonical = negation.canonical ∧ found = negation := by
  intro negative negation
  have hnegative : negative.Over .spelled := trivial
  have hminus : "-" ∈ Table.standard.symbols := by decide
  have hnegation : negation.Over .spelled := ⟨hminus, trivial⟩
  have hne : negative ≠ negation := nofun
  obtain ⟨hsexpr, hcanonical, hengines⟩ := texts_injective
  have hparse : Engine.climbing.parse .standard
      [⟨.operator, "-", ⟨0, 1⟩⟩, ⟨.number, "5", ⟨1, 2⟩⟩] = .ok negation :=
    Climbing.parse_eq_ok_iff.mpr (.operator rfl (.operand rfl (.stop trivial)) (.stop trivial))
  have hfound : Engine.shuntingYard.parse .standard
      [⟨.openParen, "(", ⟨0, 1⟩⟩, ⟨.operator, "-", ⟨1, 2⟩⟩, ⟨.openParen, "(", ⟨2, 3⟩⟩,
        ⟨.number, "5", ⟨3, 4⟩⟩, ⟨.closeParen, ")", ⟨4, 5⟩⟩, ⟨.closeParen, ")", ⟨5, 6⟩⟩] =
      .ok negation := by
    decide +kernel
  refine ⟨⟨hnegative, hnegation, ?_, ?_⟩, hparse, _, hfound, rfl, ?_⟩
  · exact fun htexts => hne (hsexpr hnegative hnegation htexts)
  · exact fun htexts => hne (hcanonical hnegative hnegation htexts)
  · exact hengines _ _ _ _ _ _ hfound hparse (.inr rfl)

/-- A sign, an operator in front of an operand, both, and a sign in front of a sum. -/
example :
    [literal (-5), unary "-" (literal 5), unary "-" (literal (-5)),
      binary "+" (literal (-5)) (literal 1)].map canonical =
      ["-5", "(-5)", "(--5)", "(-5 + 1)"] := by
  decide

end Expr

end Reckoner
