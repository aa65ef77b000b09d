import Reckoner.Token.Role

/-!
Precedence climbing by recursion.

`expression` reads an operand and then goes on, in `climb`, with every operator
that holds it at least as tightly as a threshold; the operand on the right of such
an operator is again an expression, with the operator's own threshold. A `Reply`
says what was read, which tokens are left, and with which thresholds `expression`
was entered on the way. An error leaves the tokens after the one it blames.

Both functions never hand back more tokens than they were given
(`rest_expression_le`, `rest_climb_le`), and satisfy the equations
`expression_cons` and `climb_cons`, which do not mention this bound.
-/

namespace Reckoner.Climbing

/-! ### Replies -/

structure Reply where
  result : Except Error Expr
  /-- The tokens not yet consumed. -/
  rest : List Token
  /-- The thresholds of all activations, in the order of entry. -/
  thresholds : List Power

namespace Reply

/-- A reply that follows activations with the given thresholds. -/
def after (thresholds : List Power) (reply : Reply) : Reply :=
  { reply with thresholds := thresholds ++ reply.thresholds }

@[simp] theorem result_after (thresholds : List Power) (reply : Reply) :
    (reply.after thresholds).result = reply.result := rfl

@[simp] theorem rest_after (thresholds : List Power) (reply : Reply) :
    (reply.after thresholds).rest = reply.rest := rfl

@[simp] theorem thresholds_after (thresholds : List Power) (reply : Reply) :
    (reply.after thresholds).thresholds = thresholds ++ reply.thresholds := rfl

def andThen (reply : Reply) (next : Expr → List Token → Reply) : Reply :=
  match reply.result with
  | .ok expr => (next expr reply.rest).after reply.thresholds
  | .error _ => reply

end Reply

/-- A reply that leaves at most `n` tokens. -/
abbrev Bounded (n : Nat) := { reply : Reply // reply.rest.length ≤ n }

/-! ### The two functions, with the bound on the tokens left -/

mutual

def expressionBounded (table : Table) (threshold : Power) :
    (tokens : List Token) → Bounded tokens.length
  | [] => ⟨⟨.error .endOfInput, [], [threshold]⟩, Nat.le_refl 0⟩
  | token :: tokens =>
    match table.atom token with
    | .error error => ⟨⟨.error error, tokens, [threshold]⟩, Nat.le_succ _⟩
    | .ok (.operand expr) =>
      match climbBounded table threshold expr tokens with
      | ⟨reply, bound⟩ => ⟨reply.after [threshold], Nat.le_succ_of_le bound⟩
    | .ok (.operator entry) =>
      match expressionBounded table entry.right tokens with
      | ⟨⟨.error error, rest, entered⟩, bound⟩ =>
        ⟨⟨.error error, rest, threshold :: entered⟩, Nat.le_succ_of_le bound⟩
      | ⟨⟨.ok operand, rest, entered⟩, bound⟩ =>
        match climbBounded table threshold (.unary entry.symbol operand) rest with
        | ⟨reply, shorter⟩ =>
          ⟨reply.after (threshold :: entered), Nat.le_succ_of_le (Nat.le_trans shorter bound)⟩
    | .ok (.group start) =>
      match expressionBounded table .group tokens with
      | ⟨⟨.error error, rest, entered⟩, bound⟩ =>
        ⟨⟨.error error, rest, threshold :: entered⟩, Nat.le_succ_of_le bound⟩
      | ⟨⟨.ok _, [], entered⟩, _⟩ =>
        ⟨⟨.error (.unclosed start), [], threshold :: entered⟩, Nat.zero_le _⟩
      | ⟨⟨.ok inner, next :: rest, entered⟩, bound⟩ =>
        if next.kind = .closeParen then
          match climbBounded table threshold inner rest with
          | ⟨reply, shorter⟩ =>
            ⟨reply.after (threshold :: entered),
              Nat.le_succ_of_le (Nat.le_trans shorter (Nat.le_of_succ_le bound))⟩
        else
          ⟨⟨.error next.notInGroup, rest, threshold :: entered⟩,
            Nat.le_succ_of_le (Nat.le_of_succ_le bound)⟩
termination_by tokens => tokens.length
decreasing_by all_goals simp only [List.length_cons] at *; omega

def climbBounded (table : Table) (threshold : Power) (left : Expr) :
    (tokens : List Token) → Bounded tokens.length
  | [] => ⟨⟨.ok left, [], []⟩, Nat.le_refl 0⟩
  | token :: tokens =>
    match table.binaryFor? token with
    | none => ⟨⟨.ok left, token :: tokens, []⟩, Nat.le_refl _⟩
    | some entry =>
      if entry.left < threshold then ⟨⟨.ok left, token :: tokens, []⟩, Nat.le_refl _⟩
      else
        match expressionBounded table entry.right tokens with
        | ⟨⟨.error error, rest, entered⟩, bound⟩ =>
          ⟨⟨.error error, rest, entered⟩, Nat.le_succ_of_le bound⟩
        | ⟨⟨.ok right, rest, entered⟩, bound⟩ =>
          match climbBounded table threshold (.binary entry.symbol left right) rest with
          | ⟨reply, shorter⟩ =>
            ⟨reply.after entered, Nat.le_succ_of_le (Nat.le_trans shorter bound)⟩
termination_by tokens => tokens.length
decreasing_by all_goals simp only [List.length_cons] at *; omega

end

/-! ### Expressions -/

/-- Reads an operand and every operator after it that holds it at least as tightly as the
threshold. -/
def expression (table : Table) (threshold : Power) (tokens : List Token) : Reply :=
  (expressionBounded table threshold tokens).1

/-- Goes on from an expression with every operator that holds it at least as tightly as the
threshold. -/
def climb (table : Table) (threshold : Power) (left : Expr) (tokens : List Token) : Reply :=
  (climbBounded table threshold left tokens).1

/-- The whole input as one expression; a token left over is no operator. -/
def parse (table : Table) (tokens : List Token) : Except Error Expr :=
  let reply := expression table .group tokens
  match reply.result, reply.rest with
  | .error error, _ => .error error
  | .ok expr, [] => .ok expr
  | .ok _, token :: _ => .error token.notAnOperator

/-! ### What is left -/

/-- An expression takes tokens away and adds none. -/
theorem rest_expression_le (table : Table) (threshold : Power) (tokens : List Token) :
    (expression table threshold tokens).rest.length ≤ tokens.length :=
  (expressionBounded table threshold tokens).2

/-- Climbing takes tokens away and adds none. -/
theorem rest_climb_le (table : Table) (threshold : Power) (left : Expr) (tokens : List Token) :
    (climb table threshold left tokens).rest.length ≤ tokens.length :=
  (climbBounded table threshold left tokens).2

/-! ### Equations -/

@[simp] theorem expression_nil (table : Table) (threshold : Power) :
    expression table threshold [] = ⟨.error .endOfInput, [], [threshold]⟩ := by
  simp [expression, expressionBounded]

/-- An expression is its first token, read in its role, and what climbing makes of it. -/
theorem expression_cons (table : Table) (threshold : Power) (token : Token) (tokens : List Token) :
    expression table threshold (token :: tokens) =
      Reply.after [threshold] (match table.atom token with
        | .error error => ⟨.error error, tokens, []⟩
        | .ok (.operand expr) => climb table threshold expr tokens
        | .ok (.operator entry) =>
          (expression table entry.right tokens).andThen fun operand rest =>
            climb table threshold (.unary entry.symbol operand) rest
        | .ok (.group start) =>
          (expression table .group tokens).andThen fun inner rest =>
            match rest with
            | [] => ⟨.error (.unclosed start), [], []⟩
            | next :: rest =>
              if next.kind = .closeParen then climb table threshold inner rest
              else ⟨.error next.notInGroup, rest, []⟩) := by
  rw [expression, expressionBounded]
  cases table.atom token with
  | error error => rfl
  | ok atom =>
    cases atom with
    | operand expr => rfl
    | operator entry =>
      simp only [expression, climb]
      rcases expressionBounded table entry.right tokens with ⟨⟨_ | operand, rest, entered⟩, bound⟩
      · rfl
      · rfl
    | group start =>
      simp only [expression, climb]
      rcases expressionBounded table .group tokens with ⟨⟨_ | inner, rest, entered⟩, bound⟩
      · rfl
      · cases rest with
        | nil => simp [Reply.andThen, Reply.after]
        | cons next rest =>
          by_cases closes : next.kind = .closeParen <;>
            simp [Reply.andThen, Reply.after, closes]

@[simp] theorem climb_nil (table : Table) (threshold : Power) (left : Expr) :
    climb table threshold left [] = ⟨.ok left, [], []⟩ := by
  simp [climb, climbBounded]

/-- Climbing stops at a token that is no operator or holds too loosely, and else takes the operator
with the expression on its right. -/
theorem climb_cons (table : Table) (threshold : Power) (left : Expr) (token : Token)
    (tokens : List Token) :
    climb table threshold left (token :: tokens) =
      match table.binaryFor? token with
      | none => ⟨.ok left, token :: tokens, []⟩
      | some entry =>
        if entry.left < threshold then ⟨.ok left, token :: tokens, []⟩
        else
          (expression table entry.right tokens).andThen fun right rest =>
            climb table threshold (.binary entry.symbol left right) rest := by
  rw [climb, climbBounded]
  cases table.binaryFor? token with
  | none => rfl
  | some entry =>
    by_cases loose : entry.left < threshold
    · simp [loose]
    · simp only [loose, if_false, expression, climb]
      rcases expressionBounded table entry.right tokens with ⟨⟨_ | right, rest, entered⟩, bound⟩
      · rfl
      · rfl

end Reckoner.Climbing
