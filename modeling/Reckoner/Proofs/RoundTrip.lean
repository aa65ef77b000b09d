import Reckoner.Expr.Print
import Reckoner.Proofs.Lexemes
import Reckoner.Proofs.Numbers
import Reckoner.Proofs.Source
import Reckoner.Proofs.Trees

/-!
Reading the canonical text of a tree back.

`Written expr tokens` says which tokens the canonical text of a tree consists of,
whatever their places. The way back has two halves that know nothing of each
other but this relation:

* `written_scan_canonical` — the scanner cuts the canonical text into such tokens,
  if literals are not negative and operators are symbols of the scanner;
* `Written.parse_eq` — recursion makes the tree of such tokens, under any table
  that has its operators and takes none out of parentheses.

In the other direction, `over_of_parseSource` says that the trees of source texts
have no other literals and operators.
-/

namespace Reckoner

namespace Vocabulary

/-- What the scanner can cut off as one token: literals that are not negative, and operators that
are symbols of the standard table, in either place. -/
def scannable : Vocabulary where
  literal value := 0 ≤ value.toInt
  unary operator := operator ∈ Table.standard.symbols
  binary operator := operator ∈ Table.standard.symbols

/-- The operators of a table, each in its own place. -/
def ofTable (table : Table) : Vocabulary where
  literal _ := True
  unary operator := ∃ entry, table.unary? operator = some entry
  binary operator := ∃ entry, table.binary? operator = some entry

def unarySymbols : List String :=
  ["+", "-", "~"]

def binarySymbols : List String :=
  ["|", "^", "&", ">>", "<<", "+", "-", "*", "/", "%", "**"]

/-- What the calculator knows: literals that are not negative, and its operators, each in its own
place. -/
def standard : Vocabulary where
  literal value := 0 ≤ value.toInt
  unary operator := operator ∈ unarySymbols
  binary operator := operator ∈ binarySymbols

end Vocabulary

/-! ### Canonical texts -/

namespace Expr

theorem toList_canonical_literal (value : Int64) :
    (literal value).canonical.toList = (Text.showInt value.toInt).toList := rfl

theorem toList_canonical_unary (operator : String) (operand : Expr) :
    (unary operator operand).canonical.toList =
      ['('] ++ (operator.toList ++ (operand.canonical.toList ++ [')'])) := by
  simp [canonical, interpret, parenthesised]

theorem toList_canonical_binary (operator : String) (left right : Expr) :
    (binary operator left right).canonical.toList =
      ['('] ++ (left.canonical.toList ++
        ' ' :: (operator.toList ++ ' ' :: (right.canonical.toList ++ [')']))) := by
  simp [canonical, interpret, parenthesised]

/-- A canonical text starts with a number or a `(`, so it makes no operator in front of it longer. -/
theorem head?_canonical_ne_star (expr : Expr) (rest : List Char) :
    (expr.canonical.toList ++ rest).head? ≠ some '*' := by
  cases expr with
  | literal value =>
    intro hhead
    obtain ⟨cs, hcons⟩ := List.head?_eq_some_iff.mp hhead
    exact Text.ne_showInt_append rfl (by decide) cs _ rest hcons.symm
  | unary operator operand => simp [toList_canonical_unary]
  | binary operator left right => simp [toList_canonical_binary]

end Expr

/-! ### Tokens of canonical texts -/

/-- The tokens are those of the canonical text of the tree. -/
inductive Written : Expr → List Token → Prop where
  | literal {value : Int64} {token : Token} :
      token.kind = .number → token.text = Text.showInt value.toInt →
      Written (.literal value) [token]
  | unary {operator : String} {operand : Expr} {tokens : List Token}
      {opening sign closing : Token} :
      opening.kind = .openParen → sign.kind = .operator → sign.text = operator →
      Written operand tokens → closing.kind = .closeParen →
      Written (.unary operator operand) (opening :: sign :: tokens ++ [closing])
  | binary {operator : String} {left right : Expr} {lefts rights : List Token}
      {opening sign closing : Token} :
      opening.kind = .openParen → Written left lefts → sign.kind = .operator →
      sign.text = operator → Written right rights → closing.kind = .closeParen →
      Written (.binary operator left right) (opening :: lefts ++ sign :: rights ++ [closing])

/-- A canonical text has no unrecognised piece. -/
theorem Written.kind_ne_invalid {expr : Expr} {tokens : List Token} (h : Written expr tokens) :
    ∀ token ∈ tokens, token.kind ≠ .invalid := by
  induction h with
  | literal hkind _ => simp [hkind]
  | unary hopen hsign _ _ hclose ih =>
    simp only [List.cons_append, List.forall_mem_cons, List.forall_mem_append]
    exact ⟨by simp [hopen], by simp [hsign], ih, by simp [hclose]⟩
  | binary hopen _ hsign _ _ hclose ihLeft ihRight =>
    simp only [List.cons_append, List.forall_mem_cons, List.forall_mem_append]
    exact ⟨by simp [hopen], ⟨ihLeft, by simp [hsign], ihRight⟩, by simp [hclose]⟩

/-! ### From the text to tokens -/

namespace Token

open WordClass (isWord)

variable [WordClass]

/-- The token that is cut off, wherever it stands. -/
theorem exists_cut_of_lexes {kind : Kind} {text rest : List Char} (h : Lexes kind text rest)
    (offset : Nat) :
    ∃ token stop, token.kind = kind ∧ token.text = String.ofList text ∧
      cut offset (text ++ rest) = token :: cut stop rest :=
  ⟨_, _, rfl, rfl, cut_of_lexes h offset⟩

/-- A canonical text is cut into its tokens, in front of anything that cannot make its last token
longer. -/
theorem exists_cut_canonical {expr : Expr} (h : expr.Over .scannable) (offset : Nat)
    {rest : List Char} (hrest : ∀ c ∈ rest.head?, isWord c = false) :
    ∃ tokens stop, Written expr tokens ∧
      cut offset (expr.canonical.toList ++ rest) = tokens ++ cut stop rest := by
  induction expr generalizing offset rest with
  | literal value =>
    obtain ⟨hne, hdigits⟩ := Text.digits_showInt h
    obtain ⟨token, stop, hkind, htext, hcut⟩ :=
      exists_cut_of_lexes (lexes_number hne hdigits hrest) offset
    exact ⟨[token], stop, .literal hkind (htext.trans String.ofList_toList), hcut⟩
  | unary operator operand ih =>
    obtain ⟨hoperator, hoperand⟩ := h
    have hparen : ∀ c ∈ ([')'] ++ rest).head?, isWord c = false := by
      rintro c ⟨⟩
      exact WordClass.isWord_closeParen
    have hstar := operand.head?_canonical_ne_star ([')'] ++ rest)
    obtain ⟨opening, signAt, hopen, _, hcutOpen⟩ := exists_cut_of_lexes (lexes_leftParen _) offset
    obtain ⟨sign, operandAt, hsign, htext, hcutSign⟩ :=
      exists_cut_of_lexes (lexes_operator hoperator hstar) signAt
    obtain ⟨tokens, closingAt, hwritten, hcut⟩ := ih hoperand operandAt hparen
    obtain ⟨closing, stop, hclose, _, hcutClose⟩ :=
      exists_cut_of_lexes (lexes_rightParen rest) closingAt
    refine ⟨opening :: sign :: tokens ++ [closing], stop,
      .unary hopen hsign (htext.trans String.ofList_toList) hwritten hclose, ?_⟩
    simp only [Expr.toList_canonical_unary, List.append_assoc]
    rw [hcutOpen, hcutSign, hcut, hcutClose]
    simp
  | binary operator left right ihLeft ihRight =>
    obtain ⟨hoperator, hleft, hright⟩ := h
    have hparen : ∀ c ∈ ([')'] ++ rest).head?, isWord c = false := by
      rintro c ⟨⟩
      exact WordClass.isWord_closeParen
    have hspace : ∀ cs c, c ∈ (' ' :: cs).head? → isWord c = false := by
      rintro cs c ⟨⟩
      exact WordClass.isWord_blank ' ' (by decide)
    obtain ⟨opening, leftAt, hopen, _, hcutOpen⟩ := exists_cut_of_lexes (lexes_leftParen _) offset
    obtain ⟨lefts, blankAt, hwrittenLeft, hcutLeft⟩ := ihLeft hleft leftAt (hspace _)
    have hlexes : Lexes .operator operator.toList
        (' ' :: (right.canonical.toList ++ ([')'] ++ rest))) := lexes_operator hoperator (by simp)
    obtain ⟨sign, nextBlankAt, hsign, htext, hcutSign⟩ := exists_cut_of_lexes hlexes (blankAt + 1)
    obtain ⟨rights, closingAt, hwrittenRight, hcutRight⟩ := ihRight hright (nextBlankAt + 1) hparen
    obtain ⟨closing, stop, hclose, _, hcutClose⟩ :=
      exists_cut_of_lexes (lexes_rightParen rest) closingAt
    refine ⟨opening :: lefts ++ sign :: rights ++ [closing], stop,
      .binary hopen hwrittenLeft hsign (htext.trans String.ofList_toList) hwrittenRight hclose, ?_⟩
    simp only [Expr.toList_canonical_binary, List.append_assoc, List.cons_append (a := ' ')]
    rw [hcutOpen, hcutLeft, cut_of_none (lexeme?_space _), hcutSign, cut_of_none (lexeme?_space _),
      hcutRight, hcutClose]
    simp

end Token

theorem written_scan_canonical [WordClass] {expr : Expr} (h : expr.Over .scannable) :
    Written expr (Token.scan expr.canonical) := by
  have hrest : ∀ c ∈ ([] : List Char).head?, WordClass.isWord c = false := by simp
  obtain ⟨tokens, stop, hwritten, hcut⟩ := Token.exists_cut_canonical h 0 hrest
  simp only [List.append_nil, Token.cut_nil] at hcut
  rwa [Token.scan_eq_cut, hcut]

/-! ### From tokens to the tree -/

/-- Whoever goes on from a tree goes on in the same way from its tokens. Parentheses keep the
threshold out, so it does not matter which one it is. -/
theorem Written.reads {table : Table} (grouped : table.Grouped) {expr : Expr}
    {tokens : List Token} (h : Written expr tokens) (hover : expr.Over (.ofTable table))
    {threshold : Power} {rest : List Token} {whole : Expr} {final : List Token}
    (hread : Climbing.Reads table threshold (some expr) rest whole final) :
    Climbing.Reads table threshold none (tokens ++ rest) whole final := by
  induction h generalizing threshold rest whole final with
  | @literal value token hkind htext =>
    have hvalue : (Text.readInt? token.text).bind Arithmetic.narrow? = some value := by
      rw [htext, Text.readInt?_showInt]
      exact Arithmetic.narrow?_eq_some_iff.mpr rfl
    exact .operand (Table.atom_eq_operand_iff.mpr ⟨hkind, value, hvalue, rfl⟩) hread
  | @unary operator operand tokens opening sign closing hopen hsign htext _ hclose ih =>
    obtain ⟨⟨entry, hentry⟩, hoperand⟩ := hover
    obtain ⟨_, rfl⟩ := Table.mem_of_unary? hentry
    have hatom : table.atom sign = .ok (.operator entry) :=
      Table.atom_eq_operator_iff.mpr ⟨hsign, htext ▸ hentry⟩
    have hstops : ∀ threshold, Climbing.Stops table threshold (closing :: rest) := by
      intro threshold
      exact .of_closeParen hclose threshold rest
    have hinner : Climbing.Reads table .group none (sign :: (tokens ++ closing :: rest))
        (.unary entry.symbol operand) (closing :: rest) :=
      .operator hatom (ih hoperand (.stop (hstops _))) (.stop (hstops _))
    simp only [List.cons_append, List.append_assoc, List.nil_append]
    exact .group (Table.atom_eq_group_iff.mpr ⟨hopen, rfl⟩) hinner hclose hread
  | @binary operator left right lefts rights opening sign closing hopen _ hsign htext _ hclose
      ihLeft ihRight =>
    obtain ⟨⟨entry, hentry⟩, hleft, hright⟩ := hover
    obtain ⟨hmem, rfl⟩ := Table.mem_of_binary? hentry
    have hfor : table.binaryFor? sign = some entry :=
      Table.binaryFor?_eq_some_iff.mpr ⟨hsign, htext ▸ hentry⟩
    have hstops : ∀ threshold, Climbing.Stops table threshold (closing :: rest) := by
      intro threshold
      exact .of_closeParen hclose threshold rest
    have hinner : Climbing.Reads table .group none (lefts ++ sign :: (rights ++ closing :: rest))
        (.binary entry.symbol left right) (closing :: rest) :=
      ihLeft hleft (.binary hfor (grouped entry hmem) (ihRight hright (.stop (hstops _)))
        (.stop (hstops _)))
    simp only [List.cons_append, List.append_assoc, List.nil_append]
    exact .group (Table.atom_eq_group_iff.mpr ⟨hopen, rfl⟩) hinner hclose hread

theorem Written.parse_eq {table : Table} (grouped : table.Grouped) {expr : Expr}
    {tokens : List Token} (h : Written expr tokens) (hover : expr.Over (.ofTable table)) :
    Climbing.parse table tokens = .ok expr := by
  have hstop : Climbing.Reads table .group (some expr) [] expr [] := .stop trivial
  have hread := h.reads grouped hover hstop
  rw [List.append_nil] at hread
  exact Climbing.parse_eq_ok_iff.mpr hread

/-! ### The standard vocabulary -/

open Vocabulary (unarySymbols binarySymbols)

theorem Expr.Over.scannable_of_standard {expr : Expr} (h : expr.Over .standard) :
    expr.Over .scannable := by
  have hunary : ∀ operator ∈ unarySymbols, operator ∈ Table.standard.symbols := by decide
  have hbinary : ∀ operator ∈ binarySymbols, operator ∈ Table.standard.symbols := by decide
  refine h.mono ?_ hunary hbinary
  intro value hvalue
  exact hvalue

theorem Expr.Over.ofTable_of_standard {expr : Expr} (h : expr.Over .standard) :
    expr.Over (.ofTable .standard) := by
  have hunary : ∀ operator ∈ unarySymbols, (Table.standard.unary? operator).isSome := by decide
  have hbinary : ∀ operator ∈ binarySymbols, (Table.standard.binary? operator).isSome := by decide
  refine h.mono ?_ ?_ ?_
  · intro value _
    trivial
  · intro operator hmem
    exact Option.isSome_iff_exists.mp (hunary operator hmem)
  · intro operator hmem
    exact Option.isSome_iff_exists.mp (hbinary operator hmem)

namespace Engine

variable [WordClass]

/-- The canonical text of a tree over the standard vocabulary reads back. -/
theorem parseSource_canonical {expr : Expr} (h : expr.Over .standard) (engine : Engine) :
    engine.parseSource expr.canonical = .ok expr := by
  have hwritten := written_scan_canonical h.scannable_of_standard
  exact parseSource_eq_ok_iff.mpr
    ⟨hwritten.kind_ne_invalid, hwritten.parse_eq Table.grouped_standard h.ofTable_of_standard⟩

/-- The tree of a source text is over the standard vocabulary. Its literals are not negative since
the scanner leaves a sign out of a number. -/
theorem over_of_parseSource {engine : Engine} {source : String} {expr : Expr}
    (h : engine.parseSource source = .ok expr) : expr.Over .standard := by
  obtain ⟨_, hparse⟩ := parseSource_eq_ok_iff.mp h
  have hunary : ∀ entry ∈ Table.standard.unary, entry.symbol ∈ unarySymbols := by decide
  have hbinary : ∀ entry ∈ Table.standard.binary, entry.symbol ∈ binarySymbols := by decide
  refine (Climbing.parse_eq_ok_iff.mp hparse).over hunary hbinary ?_ (by simp)
  intro token hmem value hatom
  obtain ⟨hkind, found, hfound, hliteral⟩ := Table.atom_eq_operand_iff.mp hatom
  cases hliteral
  obtain ⟨n, hread, hnarrow⟩ := Option.bind_eq_some_iff.mp hfound
  have hvalue : value.toInt = n := Arithmetic.narrow?_eq_some_iff.mp hnarrow
  have hnonneg : 0 ≤ n := Text.nonneg_of_readInt? (Token.digits_of_mem_scan hmem hkind) hread
  exact Int.le_trans hnonneg (Int.le_of_eq hvalue.symm)

/-- **A canonical text reads back, by any engine, exactly if its tree is over the standard
vocabulary**, and the trees of source texts are. -/
theorem parseSource_canonical_iff_over_standard :
    (∀ (engine : Engine) (expr : Expr),
        engine.parseSource expr.canonical = .ok expr ↔ expr.Over .standard) ∧
      ∀ (engine : Engine) (source : String) (expr : Expr), engine.parseSource source = .ok expr →
        expr.Over .standard ∧ ∀ other : Engine, other.parseSource expr.canonical = .ok expr := by
  constructor
  · intro engine expr
    exact ⟨over_of_parseSource, fun h => parseSource_canonical h engine⟩
  · intro engine source expr h
    have hover := over_of_parseSource h
    exact ⟨hover, parseSource_canonical hover⟩

end Engine

end Reckoner
