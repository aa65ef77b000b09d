import Reckoner.Proofs.Bracketing
import Reckoner.Proofs.Reachable

/-!
Trees keep the order of their tokens.

From left to right, a tree shows its literals and operators; so do its tokens once
the parentheses are taken out. Binding powers decide how these items are grouped,
never which of them there are or in which order.

* `Bracketing.items_tokens` — a bracketing shows the items of its tokens. Recursion
  builds one for whatever it reads, whether or not powers are respected.
* `Frames.inorder_step`, `Frames.Reaches.items_eq` — the stack from bottom to top,
  and the operand after it, show the items of the tokens taken so far. Folding only
  moves the boundary between the two, so it does not matter which frames an operator
  folds, the root included.
* `inorder_eq_of_parse` — hence the tree of a whole input, by either engine, shows
  the items of the input.
-/

namespace Reckoner

variable {table : Table}

/-! ### Items -/

/-- What is shown of a tree from left to right: a number by its value, an operator by its symbol. -/
inductive Item where
  | number (value : Int64)
  | operator (symbol : String)
deriving DecidableEq, Repr

def Expr.inorder : Expr → List Item
  | .literal value => [.number value]
  | .unary operator operand => .operator operator :: operand.inorder
  | .binary operator left right => left.inorder ++ .operator operator :: right.inorder

namespace Token

def isParen (token : Token) : Bool :=
  token.isOneOf [.openParen, .closeParen]

/-- The item that a token stands for; a number has to be in range. -/
def item? (token : Token) : Option Item :=
  match token.kind with
  | .number => ((Text.readInt? token.text).bind Arithmetic.narrow?).map .number
  | .operator => some (.operator token.text)
  | .openParen | .closeParen | .invalid => none

/-- The items of all tokens but the parentheses. -/
def items (tokens : List Token) : List (Option Item) :=
  (tokens.filter fun token => !token.isParen).map item?

@[simp] theorem items_nil : items [] = [] := rfl

theorem items_append (first second : List Token) :
    items (first ++ second) = items first ++ items second := by
  simp [items]

variable {token : Token} {tokens : List Token}

theorem items_number {value : Int64} (hkind : token.kind = .number)
    (hvalue : (Text.readInt? token.text).bind Arithmetic.narrow? = some value) :
    items (token :: tokens) = some (.number value) :: items tokens := by
  simp [items, isParen, isOneOf, item?, hkind, hvalue]

theorem items_operator (hkind : token.kind = .operator) :
    items (token :: tokens) = some (.operator token.text) :: items tokens := by
  simp [items, isParen, isOneOf, item?, hkind]

theorem items_openParen (hkind : token.kind = .openParen) :
    items (token :: tokens) = items tokens := by
  simp [items, isParen, isOneOf, hkind]

theorem items_closeParen (hkind : token.kind = .closeParen) :
    items (token :: tokens) = items tokens := by
  simp [items, isParen, isOneOf, hkind]

end Token

open Token (items items_append items_number items_operator items_openParen items_closeParen)

/-! ### Recursion -/

/-- A bracketing shows the items of its tokens, and erasing its parentheses loses none. -/
theorem Bracketing.items_tokens (tree : Bracketing table) :
    items tree.tokens = tree.erase.inorder.map some := by
  induction tree with
  | number token value isNumber isValue => exact items_number isNumber isValue
  | group opening inner closing opens closes ih =>
    rw [tokens, items_openParen opens, items_append, items_closeParen closes, ih]
    simp [erase]
  | unary token entry operand isOperator registered ih =>
    obtain ⟨-, hsymbol⟩ := Table.mem_of_unary? registered
    rw [tokens, items_operator isOperator, ih, ← hsymbol]
    rfl
  | binary left token entry right isOperator registered ihLeft ihRight =>
    obtain ⟨-, hsymbol⟩ := Table.mem_of_binary? registered
    rw [tokens, items_append, items_operator isOperator, ihLeft, ihRight, ← hsymbol]
    simp [erase, Expr.inorder]

theorem Climbing.items_of_parse {tokens : List Token} {expr : Expr}
    (h : Climbing.parse table tokens = .ok expr) : items tokens = expr.inorder.map some := by
  obtain ⟨tree, rfl, hbuilds⟩ := Bracketing.exists_builds (parse_eq_ok_iff.mp h) none rfl
  have htokens : tokens = tree.tokens ++ [] := hbuilds.tokens_append
  rw [htokens, List.append_nil, tree.items_tokens]

/-! ### The explicit stack -/

namespace Frames

/-- What is shown of something pending, which is all but its operand. -/
def Pending.inorder : Pending → List Item
  | root | paren _ => []
  | unary operator => [.operator operator]
  | binary operator left => left.inorder ++ [.operator operator]

/-- What is shown of frames from the oldest to the newest. -/
def inorder : List Frame → List Item
  | [] => []
  | frame :: below => inorder below ++ frame.pending.inorder

def State.inorder (state : State) : List Item :=
  Frames.inorder state.stack ++ state.operand.elim [] Expr.inorder

theorem inorder_append (newer older : List Frame) :
    inorder (newer ++ older) = inorder older ++ inorder newer := by
  induction newer with
  | nil => simp [inorder]
  | cons frame newer ih => simp [inorder, ih]

/-- Frames on top of the stack and the frames below them. -/
theorem inorder_takeWhile_dropWhile (p : Frame → Bool) (stack : List Frame) :
    inorder stack = inorder (stack.dropWhile p) ++ inorder (stack.takeWhile p) := by
  rw [← inorder_append, List.takeWhile_append_dropWhile]

theorem inorder_of_fill {pending : Pending} {operand filled : Expr}
    (h : pending.fill operand = .ok filled) :
    filled.inorder = pending.inorder ++ operand.inorder := by
  cases pending <;> cases h <;> simp [Pending.inorder, Expr.inorder]

/-- Folding puts the frames in front of the operand. -/
theorem inorder_of_fold {frames : List Frame} {operand expr : Expr}
    (h : fold frames operand = .ok expr) : expr.inorder = inorder frames ++ operand.inorder := by
  induction frames generalizing operand with
  | nil =>
    cases h
    rfl
  | cons frame frames ih =>
    rw [fold_cons] at h
    cases hfill : frame.pending.fill operand with
    | error error => simp [hfill, Except.bind] at h
    | ok filled =>
      rw [hfill] at h
      rw [ih h, inorder_of_fill hfill, inorder, List.append_assoc]

/-- A step adds the item of its token at the end. -/
theorem inorder_step {state next : State} {token : Token}
    (h : state.step table token = .ok next) :
    next.inorder.map some = state.inorder.map some ++ items [token] := by
  cases State.Step.of_step h with
  | operand hatom =>
    obtain ⟨hkind, value, hvalue, rfl⟩ := Table.atom_eq_operand_iff.mp hatom
    rw [items_number hkind hvalue]
    simp [State.inorder, Expr.inorder]
  | group hatom =>
    rw [items_openParen (Table.atom_eq_group_iff.mp hatom).1]
    simp [State.inorder, inorder, Pending.inorder]
  | prefixed hatom =>
    obtain ⟨hkind, -, hsymbol⟩ := Table.mem_of_atom_operator hatom
    rw [items_operator hkind, ← hsymbol]
    simp [State.inorder, inorder, Pending.inorder]
  | @infixed stack operand entry left hentry hfold =>
    obtain ⟨hkind, -, hsymbol⟩ := Table.mem_of_binaryFor? hentry
    have hstack : inorder stack =
        inorder (notAbove entry.left stack) ++ inorder (above entry.left stack) :=
      inorder_takeWhile_dropWhile _ stack
    rw [items_operator hkind, ← hsymbol]
    simp [State.inorder, inorder, Pending.inorder, inorder_of_fold hfold, hstack]
  | @closing stack operand inner threshold start below _ hfold houtside hclose =>
    have hstack : inorder stack = inorder (outside stack) ++ inorder (Frames.group stack) :=
      inorder_takeWhile_dropWhile _ stack
    rw [houtside] at hstack
    rw [items_closeParen hclose]
    simp [State.inorder, inorder, Pending.inorder, inorder_of_fold hfold, hstack]

/-- Every state that is reached shows the items of the tokens that led to it. -/
theorem Reaches.items_eq {tokens : List Token} {state : State} (h : Reaches table tokens state) :
    items tokens = state.inorder.map some := by
  induction h with
  | initial => rfl
  | step _ hstep ih => rw [items_append, ih, inorder_step hstep]

theorem items_of_parse {tokens : List Token} {expr : Expr} (h : parse table tokens = .ok expr) :
    items tokens = expr.inorder.map some := by
  obtain ⟨⟨stack, operand⟩, hreaches, hfinish⟩ := Reaches.exists_of_parse h
  cases operand with
  | none => cases hfinish
  | some operand =>
    rw [hreaches.items_eq, inorder_of_fold hfinish]
    rfl

end Frames

/-! ### Both engines -/

/-- **A tree keeps the order of its tokens.** Let recursion or the explicit stack read a list of
tokens with any table, whatever its powers. Then the tokens other than parentheses all stand for
items, and these are the literals and operators of the tree from left to right: none is lost, none
is there twice, and none changes its place. -/
theorem inorder_eq_of_parse {table : Table} {tokens : List Token} {expr : Expr}
    (h : Climbing.parse table tokens = .ok expr ∨ Frames.parse table tokens = .ok expr) :
    (tokens.filter fun token => !token.isParen).map Token.item? = expr.inorder.map some := by
  rcases h with h | h
  · exact Climbing.items_of_parse h
  · exact Frames.items_of_parse h

/-- A table whose sum is looser than the bottom of a stack. -/
def sunkenSum : Table :=
  ((Table.empty.addBinary ⟨"+", -3, -5, Arithmetic.add⟩).addBinary
    ⟨"*", 11, 12, Arithmetic.multiply⟩).addUnary ⟨"-", 14, 13, Arithmetic.negate⟩

/-- The tokens of `1*2+(-3)`. -/
def productAndSum : List Token :=
  [.one, .sign "*", ⟨.number, "2", ⟨2, 3⟩⟩, .sign "+", .leftParen, .sign "-",
    ⟨.number, "3", ⟨6, 7⟩⟩, ⟨.closeParen, ")", ⟨7, 8⟩⟩]

/-- With a sunken sum, the explicit stack folds its own bottom on the way, and the order stays. -/
theorem inorder_eq_sunkenSum :
    Frames.parse sunkenSum productAndSum =
        .ok (.binary "+" (.binary "*" (.literal 1) (.literal 2)) (.unary "-" (.literal 3))) ∧
      (productAndSum.filter fun token => !token.isParen).map Token.item? =
        [some (.number 1), some (.operator "*"), some (.number 2), some (.operator "+"),
          some (.operator "-"), some (.number 3)] := by
  have hparse : Frames.parse sunkenSum productAndSum =
      .ok (.binary "+" (.binary "*" (.literal 1) (.literal 2)) (.unary "-" (.literal 3))) := by
    decide
  exact ⟨hparse, inorder_eq_of_parse (.inr hparse)⟩

end Reckoner
