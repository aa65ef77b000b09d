import Reckoner.Proofs.Reading

/-!
What binding powers mean.

A bracketing is a tree that keeps its tokens, parentheses included. Whether it is
the one that binding powers ask for is a condition on its spines alone
(`Respects`): an operator takes on its right only what is held at least as tightly
as its threshold, and on its left only what has let go. No engine takes part in it.

* `Fits` — the condition with a threshold on the left and tokens on the right,
  which is what passes from a tree to its operands.
* `Builds` — recursion, with brackets in place of plain trees.
* `builds_iff` — recursion builds exactly the bracketings that fit.
* `Builds.unique` — and never two from the same tokens.
-/

namespace Reckoner

open Climbing (Reads Stops)

/-! ### Bracketings -/

/-- A tree over the operators of a table that has not forgotten its tokens. -/
inductive Bracketing (table : Table) where
  | number (token : Token) (value : Int64) (isNumber : token.kind = .number)
      (isValue : (Text.readInt? token.text).bind Arithmetic.narrow? = some value)
  | group (opening : Token) (inner : Bracketing table) (closing : Token)
      (opens : opening.kind = .openParen) (closes : closing.kind = .closeParen)
  | unary (token : Token) (entry : UnaryEntry) (operand : Bracketing table)
      (isOperator : token.kind = .operator) (registered : table.unary? token.text = some entry)
  | binary (left : Bracketing table) (token : Token) (entry : BinaryEntry)
      (right : Bracketing table) (isOperator : token.kind = .operator)
      (registered : table.binary? token.text = some entry)

namespace Bracketing

variable {table : Table}

def tokens : Bracketing table → List Token
  | number token _ _ _ => [token]
  | group opening inner closing _ _ => opening :: (inner.tokens ++ [closing])
  | unary token _ operand _ _ => token :: operand.tokens
  | binary left token _ right _ _ => left.tokens ++ token :: right.tokens

/-- The tree without its parentheses. -/
def erase : Bracketing table → Expr
  | number _ value _ _ => .literal value
  | group _ inner _ _ _ => inner.erase
  | unary _ entry operand _ _ => .unary entry.symbol operand.erase
  | binary left _ entry right _ _ => .binary entry.symbol left.erase right.erase

/-- The operators between operands from the root to the left, up to a node of another shape. -/
def leftSpine : Bracketing table → List BinaryEntry
  | number _ _ _ _ | group _ _ _ _ _ | unary _ _ _ _ _ => []
  | binary left _ entry _ _ _ => entry :: left.leftSpine

/-- The right powers of the operators from the root to the right, up to a number or a group. -/
def rightSpine : Bracketing table → List Power
  | number _ _ _ _ | group _ _ _ _ _ => []
  | unary _ entry operand _ _ => entry.right :: operand.rightSpine
  | binary _ _ entry right _ _ => entry.right :: right.rightSpine

/-- Everywhere in the tree, the operators that are open to the left in a right operand reach the
right power before them, and those that are open to the right in a left operand do not let the
operator after them in. -/
def Respects : Bracketing table → Prop
  | number _ _ _ _ => True
  | group _ inner _ _ _ => inner.Respects
  | unary _ entry operand _ _ =>
    operand.Respects ∧ ∀ inner ∈ operand.leftSpine, entry.right ≤ inner.left
  | binary left _ entry right _ _ =>
    left.Respects ∧ right.Respects ∧ (∀ inner ∈ right.leftSpine, entry.right ≤ inner.left) ∧
      ∀ power ∈ left.rightSpine, entry.left < power

/-! ### Fitting -/

/-- A tree fits between a threshold and tokens if it respects binding powers, what it leaves open
to the left reaches the threshold, and nothing it leaves open to the right goes on with the
tokens. -/
structure Fits (tree : Bracketing table) (threshold : Power) (rest : List Token) : Prop where
  respects : tree.Respects
  left : ∀ entry ∈ tree.leftSpine, threshold ≤ entry.left
  right : ∀ power ∈ tree.rightSpine, Stops table power rest

section

variable {token opening closing : Token} {value : Int64} {rest : List Token}
  {threshold : Power} {left inner operand right : Bracketing table}

theorem fits_number (isNumber : token.kind = .number)
    (isValue : (Text.readInt? token.text).bind Arithmetic.narrow? = some value) :
    (number token value isNumber isValue : Bracketing table).Fits threshold rest :=
  ⟨trivial, by simp [leftSpine], by simp [rightSpine]⟩

/-- In front of an operator, its left power decides where climbing stops. -/
theorem stops_operator_iff {entry : BinaryEntry} (isOperator : token.kind = .operator)
    (registered : table.binary? token.text = some entry) {tokens : List Token} :
    Stops table threshold (token :: tokens) ↔ entry.left < threshold := by
  have hentry := Table.binaryFor?_eq_some_iff.mpr ⟨isOperator, registered⟩
  constructor
  · intro hstops
    exact hstops entry hentry
  · intro hlt other hother
    rw [hentry] at hother
    cases hother
    exact hlt

/-- Every operator on a left spine reaches the threshold of a group. -/
theorem group_le_of_mem_leftSpine (grouped : table.Grouped) (tree : Bracketing table) :
    ∀ entry ∈ tree.leftSpine, Power.group ≤ entry.left := by
  induction tree with
  | number _ _ _ _ => simp [leftSpine]
  | group _ _ _ _ _ _ => simp [leftSpine]
  | unary _ _ _ _ _ _ => simp [leftSpine]
  | binary left token entry right _ registered ih _ =>
    exact List.forall_mem_cons.mpr ⟨grouped entry (Table.mem_of_binary? registered).1, ih⟩

/-- Parentheses shield a tree from both sides. -/
theorem fits_group_iff (grouped : table.Grouped) (opens : opening.kind = .openParen)
    (closes : closing.kind = .closeParen) :
    (group opening inner closing opens closes).Fits threshold rest ↔
      inner.Fits .group (closing :: rest) := by
  constructor
  · intro h
    refine ⟨h.respects, group_le_of_mem_leftSpine grouped inner, ?_⟩
    intro power _
    exact .of_closeParen closes power rest
  · intro h
    exact ⟨h.respects, by simp [leftSpine], by simp [rightSpine]⟩

theorem fits_unary_iff {entry : UnaryEntry} (isOperator : token.kind = .operator)
    (registered : table.unary? token.text = some entry) :
    (unary token entry operand isOperator registered).Fits threshold rest ↔
      operand.Fits entry.right rest ∧ Stops table entry.right rest := by
  constructor
  · rintro ⟨⟨hrespects, hleft⟩, -, hright⟩
    obtain ⟨hstops, hright⟩ := List.forall_mem_cons.mp hright
    exact ⟨⟨hrespects, hleft, hright⟩, hstops⟩
  · rintro ⟨⟨hrespects, hleft, hright⟩, hstops⟩
    exact ⟨⟨hrespects, hleft⟩, by simp [leftSpine], List.forall_mem_cons.mpr ⟨hstops, hright⟩⟩

/-- The operator that follows a left operand is where the operand has to end. -/
theorem fits_binary_iff {entry : BinaryEntry} (isOperator : token.kind = .operator)
    (registered : table.binary? token.text = some entry) (tokens : List Token) :
    (binary left token entry right isOperator registered).Fits threshold rest ↔
      left.Fits threshold (token :: tokens) ∧ threshold ≤ entry.left ∧
        right.Fits entry.right rest ∧ Stops table entry.right rest := by
  constructor
  · rintro ⟨⟨hleft, hright, hinner, houter⟩, hspine, hends⟩
    obtain ⟨hreach, hspine⟩ := List.forall_mem_cons.mp hspine
    obtain ⟨hstops, hends⟩ := List.forall_mem_cons.mp hends
    have houter' : ∀ power ∈ left.rightSpine, Stops table power (token :: tokens) := by
      intro power hmem
      exact (stops_operator_iff isOperator registered).mpr (houter power hmem)
    exact ⟨⟨hleft, hspine, houter'⟩, hreach, ⟨hright, hinner, hends⟩, hstops⟩
  · rintro ⟨⟨hleft, hspine, houter⟩, hreach, ⟨hright, hinner, hends⟩, hstops⟩
    refine ⟨⟨hleft, hright, hinner, ?_⟩, List.forall_mem_cons.mpr ⟨hreach, hspine⟩,
      List.forall_mem_cons.mpr ⟨hstops, hends⟩⟩
    intro power hmem
    exact (stops_operator_iff isOperator registered).mp (houter power hmem)

end

/-! ### Building -/

/-- `Builds table threshold operand tokens tree rest`: with the threshold, and going on from the
operand if there is one, recursion makes `tree` of `tokens` and leaves `rest`. -/
inductive Builds (table : Table) :
    Power → Option (Bracketing table) → List Token → Bracketing table → List Token → Prop where
  | number {threshold token tokens value tree rest} (isNumber) (isValue) :
      Builds table threshold (some (number token value isNumber isValue)) tokens tree rest →
      Builds table threshold none (token :: tokens) tree rest
  | unary {threshold token tokens entry operand middle tree rest} (isOperator) (registered) :
      Builds table entry.right none tokens operand middle →
      Builds table threshold (some (unary token entry operand isOperator registered)) middle
        tree rest →
      Builds table threshold none (token :: tokens) tree rest
  | group {threshold opening tokens inner closing middle tree rest} (opens) (closes) :
      Builds table .group none tokens inner (closing :: middle) →
      Builds table threshold (some (group opening inner closing opens closes)) middle tree rest →
      Builds table threshold none (opening :: tokens) tree rest
  | stop {threshold tokens left} :
      Stops table threshold tokens →
      Builds table threshold (some left) tokens left tokens
  | binary {threshold token tokens entry left right middle tree rest} (isOperator) (registered) :
      threshold ≤ entry.left →
      Builds table entry.right none tokens right middle →
      Builds table threshold (some (binary left token entry right isOperator registered)) middle
        tree rest →
      Builds table threshold (some left) (token :: tokens) tree rest

namespace Builds

variable {threshold : Power} {operand : Option (Bracketing table)} {tokens rest : List Token}
  {tree : Bracketing table}

/-- Without the brackets, what is built is what is read. -/
theorem reads (h : Builds table threshold operand tokens tree rest) :
    Reads table threshold (operand.map erase) tokens tree.erase rest := by
  induction h with
  | number isNumber isValue _ ih =>
    exact .operand (Table.atom_eq_operand_iff.mpr ⟨isNumber, _, isValue, rfl⟩) ih
  | unary isOperator registered _ _ ih ih' =>
    exact .operator (Table.atom_eq_operator_iff.mpr ⟨isOperator, registered⟩) ih ih'
  | group opens closes _ _ ih ih' =>
    exact .group (Table.atom_eq_group_iff.mpr ⟨opens, rfl⟩) ih closes ih'
  | stop hstops => exact .stop hstops
  | binary isOperator registered hreach _ _ ih ih' =>
    exact .binary (Table.binaryFor?_eq_some_iff.mpr ⟨isOperator, registered⟩) hreach ih ih'

theorem stops (h : Builds table threshold operand tokens tree rest) : Stops table threshold rest :=
  h.reads.stops

/-- **Soundness.** If the operand fits in front of the tokens, then so does the tree in front of
what is left of them. -/
theorem fits (grouped : table.Grouped) (h : Builds table threshold operand tokens tree rest)
    (hoperand : ∀ left ∈ operand, left.Fits threshold tokens) :
    tree.Fits threshold rest := by
  induction h with
  | number isNumber isValue _ ih =>
    apply ih
    rintro _ ⟨⟩
    exact fits_number isNumber isValue
  | unary isOperator registered hbuilds _ ih ih' =>
    apply ih'
    rintro _ ⟨⟩
    exact (fits_unary_iff isOperator registered).mpr ⟨ih (by simp), hbuilds.stops⟩
  | group opens closes _ _ ih ih' =>
    apply ih'
    rintro _ ⟨⟩
    exact (fits_group_iff grouped opens closes).mpr (ih (by simp))
  | stop _ => exact hoperand _ rfl
  | binary isOperator registered hreach hbuilds _ ih ih' =>
    -- That the left operand stops in front of the operator is all that is asked of its right spine.
    apply ih'
    rintro _ ⟨⟩
    exact (fits_binary_iff isOperator registered _).mpr
      ⟨hoperand _ rfl, hreach, ih (by simp), hbuilds.stops⟩

/-- The tokens of the operand and those that are taken are the tokens of the tree. -/
theorem tokens_append (h : Builds table threshold operand tokens tree rest) :
    operand.elim [] Bracketing.tokens ++ tokens = tree.tokens ++ rest := by
  induction h with
  | number _ _ _ ih => exact ih
  | unary _ _ _ _ ih ih' =>
    rw [← ih']
    exact congrArg (List.cons _) ih
  | group _ _ _ _ ih ih' =>
    rw [← ih']
    simpa [Bracketing.tokens] using ih
  | stop _ => rfl
  | binary _ _ _ _ _ ih ih' =>
    rw [← ih']
    simpa [Bracketing.tokens] using ih

/-- **Nothing is built in two ways.** The next token leaves no choice. -/
theorem unique (h : Builds table threshold operand tokens tree rest) {tree' : Bracketing table}
    {rest' : List Token} (h' : Builds table threshold operand tokens tree' rest') :
    tree = tree' ∧ rest = rest' := by
  induction h generalizing tree' rest' with
  | number isNumber isValue _ ih =>
    cases h' with
    | number isNumber' isValue' h' =>
      rw [isValue] at isValue'
      cases isValue'
      exact ih h'
    | unary isOperator _ _ _ => simp [isNumber] at isOperator
    | group opens _ _ _ => simp [isNumber] at opens
  | unary isOperator registered _ _ ih ih' =>
    cases h' with
    | number isNumber _ _ => simp [isOperator] at isNumber
    | unary isOperator' registered' hoperand h' =>
      rw [registered] at registered'
      cases registered'
      obtain ⟨rfl, rfl⟩ := ih hoperand
      exact ih' h'
    | group opens _ _ _ => simp [isOperator] at opens
  | group opens closes _ _ ih ih' =>
    cases h' with
    | number isNumber _ _ => simp [opens] at isNumber
    | unary isOperator _ _ _ => simp [opens] at isOperator
    | group opens' closes' hinner h' =>
      obtain ⟨rfl, hmiddle⟩ := ih hinner
      cases hmiddle
      exact ih' h'
  | stop hstops =>
    cases h' with
    | stop _ => exact ⟨rfl, rfl⟩
    | binary isOperator registered hreach _ _ =>
      exact absurd ((stops_operator_iff isOperator registered).mp hstops) (Int.not_lt.mpr hreach)
  | binary isOperator registered hreach _ _ ih ih' =>
    cases h' with
    | stop hstops =>
      exact absurd ((stops_operator_iff isOperator registered).mp hstops) (Int.not_lt.mpr hreach)
    | binary isOperator' registered' _ hright h' =>
      rw [registered] at registered'
      cases registered'
      obtain ⟨rfl, rfl⟩ := ih hright
      exact ih' h'

end Builds

/-- Every reading keeps enough to build its brackets. -/
theorem exists_builds {threshold : Power} {operand : Option Expr} {tokens rest : List Token}
    {expr : Expr} (h : Reads table threshold operand tokens expr rest)
    (begun : Option (Bracketing table)) (hbegun : begun.map erase = operand) :
    ∃ tree, tree.erase = expr ∧ Builds table threshold begun tokens tree rest := by
  induction h generalizing begun with
  | operand hatom _ ih =>
    obtain rfl := Option.map_eq_none_iff.mp hbegun
    obtain ⟨isNumber, value, isValue, rfl⟩ := Table.atom_eq_operand_iff.mp hatom
    obtain ⟨tree, rfl, hbuilds⟩ := ih (some (number _ value isNumber isValue)) rfl
    exact ⟨tree, rfl, .number isNumber isValue hbuilds⟩
  | operator hatom _ _ ih ih' =>
    obtain rfl := Option.map_eq_none_iff.mp hbegun
    obtain ⟨isOperator, registered⟩ := Table.atom_eq_operator_iff.mp hatom
    obtain ⟨operand, rfl, hoperand⟩ := ih none rfl
    obtain ⟨tree, rfl, hbuilds⟩ :=
      ih' (some (unary _ _ operand isOperator registered)) rfl
    exact ⟨tree, rfl, .unary isOperator registered hoperand hbuilds⟩
  | group hatom _ closes _ ih ih' =>
    obtain rfl := Option.map_eq_none_iff.mp hbegun
    obtain ⟨opens, -⟩ := Table.atom_eq_group_iff.mp hatom
    obtain ⟨inner, rfl, hinner⟩ := ih none rfl
    obtain ⟨tree, rfl, hbuilds⟩ := ih' (some (group _ inner _ opens closes)) rfl
    exact ⟨tree, rfl, .group opens closes hinner hbuilds⟩
  | stop hstops =>
    obtain ⟨left, rfl, rfl⟩ := Option.map_eq_some_iff.mp hbegun
    exact ⟨left, rfl, .stop hstops⟩
  | binary hentry hreach _ _ ih ih' =>
    obtain ⟨left, rfl, rfl⟩ := Option.map_eq_some_iff.mp hbegun
    obtain ⟨isOperator, registered⟩ := Table.binaryFor?_eq_some_iff.mp hentry
    obtain ⟨right, rfl, hright⟩ := ih none rfl
    obtain ⟨tree, rfl, hbuilds⟩ :=
      ih' (some (binary left _ _ right isOperator registered)) rfl
    exact ⟨tree, rfl, .binary isOperator registered hreach hright hbuilds⟩

/-- **Completeness.** Recursion takes the tokens of a tree that fits and goes on from the tree.
What comes after the tree is arbitrary, since a left operand is followed by more of the same
climb. -/
theorem Fits.builds_append (grouped : table.Grouped) {tree : Bracketing table} {threshold : Power}
    {rest : List Token} (h : tree.Fits threshold rest) {whole : Bracketing table}
    {rest' : List Token} (hrest : Builds table threshold (some tree) rest whole rest') :
    Builds table threshold none (tree.tokens ++ rest) whole rest' := by
  induction tree generalizing threshold rest whole rest' with
  | number token value isNumber isValue => exact .number isNumber isValue hrest
  | group opening inner closing opens closes ih =>
    have hinner := ih ((fits_group_iff grouped opens closes).mp h)
      (.stop (.of_closeParen closes .group rest))
    simp only [Bracketing.tokens, List.cons_append, List.append_assoc, List.nil_append]
    exact .group opens closes hinner hrest
  | unary token entry operand isOperator registered ih =>
    obtain ⟨hfits, hstops⟩ := (fits_unary_iff isOperator registered).mp h
    exact .unary isOperator registered (ih hfits (.stop hstops)) hrest
  | binary left token entry right isOperator registered ihLeft ihRight =>
    -- The left operand comes first in the tokens, so what goes on from it is the rest of this node.
    obtain ⟨hleft, hreach, hright, hstops⟩ :=
      (fits_binary_iff isOperator registered (right.tokens ++ rest)).mp h
    have hbuilds := ihRight hright (.stop hstops)
    simp only [Bracketing.tokens, List.cons_append, List.append_assoc]
    exact ihLeft hleft (.binary isOperator registered hreach hbuilds hrest)

/-- **Recursion builds exactly the trees that fit** in front of tokens where it stops. -/
theorem builds_iff (grouped : table.Grouped) {threshold : Power} {tokens rest : List Token}
    {tree : Bracketing table} :
    Builds table threshold none tokens tree rest ↔
      tokens = tree.tokens ++ rest ∧ tree.Fits threshold rest ∧ Stops table threshold rest := by
  constructor
  · intro h
    exact ⟨h.tokens_append, h.fits grouped (by simp), h.stops⟩
  · rintro ⟨rfl, hfits, hstops⟩
    exact hfits.builds_append grouped (.stop hstops)

/-- A whole input leaves nothing to hold against either side of a tree. -/
theorem builds_nil_iff (grouped : table.Grouped) {tokens : List Token} {tree : Bracketing table} :
    Builds table .group none tokens tree [] ↔ tree.tokens = tokens ∧ tree.Respects := by
  rw [builds_iff grouped, List.append_nil]
  constructor
  · rintro ⟨rfl, hfits, -⟩
    exact ⟨rfl, hfits.respects⟩
  · rintro ⟨rfl, hrespects⟩
    refine ⟨rfl, ⟨hrespects, group_le_of_mem_leftSpine grouped tree, ?_⟩, trivial⟩
    intro power _
    trivial

/-- **What binding powers mean.** For every table whose groups keep their operators, recursion
gives a tree for a list of tokens if and only if the tokens can be bracketed so that binding powers
are respected and the tree is what is left without parentheses; and there is at most one such way
to bracket them. -/
theorem parse_eq_ok_iff_respects {table : Table}
    (grouped : ∀ entry ∈ table.binary, Power.group ≤ entry.left) (tokens : List Token) :
    (∀ expr, Climbing.parse table tokens = .ok expr ↔
      ∃ tree : Bracketing table, tree.tokens = tokens ∧ tree.erase = expr ∧ tree.Respects) ∧
      ∀ tree tree' : Bracketing table, tree.tokens = tokens → tree.Respects →
        tree'.tokens = tokens → tree'.Respects → tree = tree' := by
  constructor
  · intro expr
    rw [Climbing.parse_eq_ok_iff]
    constructor
    · intro h
      obtain ⟨tree, herase, hbuilds⟩ := exists_builds h none rfl
      obtain ⟨htokens, hrespects⟩ := (builds_nil_iff grouped).mp hbuilds
      exact ⟨tree, htokens, herase, hrespects⟩
    · rintro ⟨tree, htokens, rfl, hrespects⟩
      exact ((builds_nil_iff grouped).mpr ⟨htokens, hrespects⟩).reads
  · intro tree tree' htokens hrespects htokens' hrespects'
    have hbuilds := (builds_nil_iff grouped).mpr ⟨htokens, hrespects⟩
    have hbuilds' := (builds_nil_iff grouped).mpr ⟨htokens', hrespects'⟩
    exact (hbuilds.unique hbuilds').1

/-- A table whose sign takes more on its right than the operators around it let go. -/
def looseSign : Table :=
  ((Table.empty.addBinary ⟨"*", 11, 12, Arithmetic.multiply⟩).addBinary
    ⟨"+", 9, 10, Arithmetic.add⟩).addUnary ⟨"-", 14, 1, Arithmetic.negate⟩

/-- With a loose sign, `1 * - 1 + 1` is `1 * (- (1 + 1))`: the sum is no operand of `*` itself, so
its power does not matter there. -/
theorem parse_looseSign :
    looseSign.Grouped ∧
      Climbing.parse looseSign [.one, .sign "*", .sign "-", .one, .sign "+", .one] =
        .ok (.binary "*" (.literal 1) (.unary "-" (.binary "+" (.literal 1) (.literal 1)))) := by
  have grouped : looseSign.Grouped := by decide
  let one : Bracketing looseSign := number .one 1 rfl rfl
  let sum : Bracketing looseSign := binary one (.sign "+") _ one rfl rfl
  let product := binary one (.sign "*") _ (unary (.sign "-") _ sum rfl rfl) rfl rfl
  have hrespects : product.Respects := by
    simp [product, sum, one, Respects, leftSpine, rightSpine]
  exact ⟨grouped, ((parse_eq_ok_iff_respects grouped _).1 _).mpr ⟨product, rfl, rfl, hrespects⟩⟩

end Bracketing

end Reckoner
