import Reckoner.Proofs.Inorder
import Reckoner.Proofs.Registered
import Reckoner.Token.UnicodeWords

/-!
Canonical texts under any table.

In a canonical text every operator has its own parentheses, so binding powers have
nothing to decide. All that matters is that the scanner can spell the tree and that
the table has its operators, each in the place it stands in.

* `Written.parse_eq` says that this is enough, if no operator breaks out of its
  parentheses.
* `Expr.scannable_of_items`, `Climbing.over_of_parse` say that it is necessary: a
  tree that was read from a text shows the numbers and symbols of that text, and its
  operators are registered.
-/

namespace Reckoner

/-! ### What a text can show -/

/-- The item is in the vocabulary, an operator in either place. -/
def Item.Over (words : Vocabulary) : Item → Prop
  | number value => words.literal value
  | operator symbol => words.unary symbol ∧ words.binary symbol

/-- A tree whose items are all in a vocabulary is over it. -/
theorem Expr.over_of_inorder {words : Vocabulary} {expr : Expr}
    (h : ∀ item ∈ expr.inorder, item.Over words) : expr.Over words := by
  induction expr with
  | literal value => exact h _ List.mem_cons_self
  | unary operator operand ih =>
    obtain ⟨hoperator, hoperand⟩ := List.forall_mem_cons.mp h
    exact ⟨hoperator.1, ih hoperand⟩
  | binary operator left right ihLeft ihRight =>
    obtain ⟨hleft, h⟩ := List.forall_mem_append.mp h
    obtain ⟨hoperator, hright⟩ := List.forall_mem_cons.mp h
    exact ⟨hoperator.2, ihLeft hleft, ihRight hright⟩

section

variable [WordClass]

/-- The numbers of a text are not negative, and its operators are symbols of the scanner. -/
theorem Item.over_of_mem_scan {source : String} {token : Token} (hmem : token ∈ Token.scan source)
    {item : Item} (h : token.item? = some item) : item.Over .scannable := by
  unfold Token.item? at h
  split at h
  case h_1 hkind =>
    obtain ⟨value, hvalue, rfl⟩ := Option.map_eq_some_iff.mp h
    obtain ⟨n, hread, hnarrow⟩ := Option.bind_eq_some_iff.mp hvalue
    have htoInt : value.toInt = n := Arithmetic.narrow?_eq_some_iff.mp hnarrow
    have hnonneg := Text.nonneg_of_readInt? (Token.digits_of_mem_scan hmem hkind) hread
    exact Int.le_trans hnonneg (Int.le_of_eq htoInt.symm)
  case h_2 hkind =>
    cases h
    have hspelled := Token.spelled_of_mem_scan hmem
    rw [hkind] at hspelled
    exact ⟨hspelled, hspelled⟩
  all_goals cases h

/-- A tree that shows the items of a text is one that the scanner can spell. -/
theorem Expr.scannable_of_items {source : String} {expr : Expr}
    (h : Token.items (Token.scan source) = expr.inorder.map some) : expr.Over .scannable := by
  apply over_of_inorder
  intro item hmem
  have hitem : some item ∈ Token.items (Token.scan source) := h ▸ List.mem_map_of_mem hmem
  obtain ⟨token, htoken, hitem⟩ := List.mem_map.mp hitem
  exact Item.over_of_mem_scan (List.mem_filter.mp htoken).1 hitem

/-! ### Reading back -/

/-- **A canonical text reads back whatever the precedences are.** For every table whose groups keep
their operators, recursion and the explicit stack make a tree of the tokens of its canonical text
exactly if its literals are not negative, its operators are symbols of the scanner, and each of them
is registered for the place it stands in. -/
theorem parse_scan_canonical_iff {table : Table}
    (grouped : ∀ entry ∈ table.binary, Power.group ≤ entry.left) (expr : Expr) :
    (Climbing.parse table (Token.scan expr.canonical) = .ok expr ↔
        expr.Over .scannable ∧ expr.Over (.ofTable table)) ∧
      (Frames.parse table (Token.scan expr.canonical) = .ok expr ↔
        expr.Over .scannable ∧ expr.Over (.ofTable table)) := by
  rw [Frames.parse_eq_climbing grouped, and_self]
  constructor
  · intro h
    exact ⟨Expr.scannable_of_items (Climbing.items_of_parse h), Climbing.over_of_parse h⟩
  · rintro ⟨hscannable, hover⟩
    exact (written_scan_canonical hscannable).parse_eq grouped hover

end

/-- A table in which sums hold tightest, a `*` in front of an operand takes everything after it, and
a `~` stands between operands, as loose as a group. -/
def topsyTurvy : Table :=
  (((Table.empty.addBinary ⟨"+", 40, -7, Arithmetic.add⟩).addBinary
    ⟨"~", 0, 100, Arithmetic.bitXor⟩).addUnary ⟨"*", -9, -20, Arithmetic.identity⟩).addUnary
    ⟨"-", 0, 1000, Arithmetic.negate⟩

/-- The tree of `((*(1 + 2)) ~ (-(3 ~ 4)))`. -/
def topsyTurvyTree : Expr :=
  .binary "~" (.unary "*" (.binary "+" (.literal 1) (.literal 2)))
    (.unary "-" (.binary "~" (.literal 3) (.literal 4)))

/-- Even so, the text of a tree over such operators reads back. -/
theorem parse_canonical_topsyTurvy :
    topsyTurvy.Grouped ∧
      Climbing.parse topsyTurvy (Token.scan topsyTurvyTree.canonical) = .ok topsyTurvyTree ∧
      Frames.parse topsyTurvy (Token.scan topsyTurvyTree.canonical) = .ok topsyTurvyTree := by
  have grouped : topsyTurvy.Grouped := by decide
  have hscannable : topsyTurvyTree.Over .scannable := by
    simp only [topsyTurvyTree, Expr.Over, Vocabulary.scannable]
    decide
  have hover : topsyTurvyTree.Over (.ofTable topsyTurvy) :=
    ⟨⟨_, rfl⟩, ⟨⟨_, rfl⟩, ⟨_, rfl⟩, trivial, trivial⟩, ⟨_, rfl⟩, ⟨_, rfl⟩, trivial, trivial⟩
  obtain ⟨hclimbing, hframes⟩ := parse_scan_canonical_iff grouped topsyTurvyTree
  exact ⟨grouped, hclimbing.mpr ⟨hscannable, hover⟩, hframes.mpr ⟨hscannable, hover⟩⟩

end Reckoner
