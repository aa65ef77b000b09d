import Reckoner.Token.Role

/-!
Precedence climbing on an explicit stack.

Where the recursive reader waits for an operand, this one pushes a frame: what is
pending, and the threshold an operator must reach to take the operand away from
it. An operator first folds every frame above its power into the operand, a `)`
every frame of its group, and the end of the input the whole stack. The stack is
a list with the newest frame first, so nesting is limited by memory alone.

A run is a fold of `State.step` over the tokens; `events` lists the pushes and pops
of the same run.
-/

namespace Reckoner.Frames

/-! ### Frames -/

/-- What waits for an operand. -/
inductive Pending where
  /-- The whole input, which takes the operand as it is. -/
  | root
  /-- A group opened at the given offset. -/
  | paren (start : Nat)
  | unary (operator : String)
  | binary (operator : String) (left : Expr)
deriving DecidableEq, Repr

namespace Pending

def describe : Pending → String
  | root => "root"
  | paren start => "paren opened at " ++ Text.showNat start
  | unary operator => "unary `" ++ operator ++ "`"
  | binary operator _ => "binary `" ++ operator ++ "`"

def isParen : Pending → Bool
  | paren _ => true
  | _ => false

/-- Whether this is an operator, which belongs to the group around it. -/
def isOperator : Pending → Bool
  | unary _ | binary _ _ => true
  | _ => false

/-- Completes what is pending with its operand; a group that is still open cannot be. -/
def fill (operand : Expr) : Pending → Except Error Expr
  | root => .ok operand
  | paren start => .error (.unclosed start)
  | unary operator => .ok (.unary operator operand)
  | binary operator left => .ok (.binary operator left operand)

end Pending

/-- Something pending and the threshold it sets. -/
structure Frame where
  threshold : Power
  pending : Pending
deriving DecidableEq, Repr

/-! ### Parts of the stack -/

/-- The frames that an operator with the given power folds. -/
def above (power : Power) (stack : List Frame) : List Frame :=
  stack.takeWhile fun frame => power < frame.threshold

def notAbove (power : Power) (stack : List Frame) : List Frame :=
  stack.dropWhile fun frame => power < frame.threshold

/-- The operators of the innermost group. -/
def group (stack : List Frame) : List Frame :=
  stack.takeWhile (·.pending.isOperator)

/-- The frames from the one that opened the innermost group on. -/
def outside (stack : List Frame) : List Frame :=
  stack.dropWhile (·.pending.isOperator)

/-- Completes frames one after the other, the newest first. -/
def fold (frames : List Frame) (operand : Expr) : Except Error Expr :=
  frames.foldlM (fun operand frame => frame.pending.fill operand) operand

/-! ### States -/

/-- The frames, newest first, and the operand that was read last; without one, an operand is
expected. -/
structure State where
  stack : List Frame
  operand : Option Expr
deriving DecidableEq, Repr

namespace State

/-- The state before the first token: the bottom frame alone. -/
def initial : State :=
  ⟨[⟨.base, .root⟩], none⟩

def depth (state : State) : Nat :=
  state.stack.length

def takeOperand (table : Table) (stack : List Frame) (token : Token) : Except Error State := do
  match ← table.atom token with
  | .operand expr => return ⟨stack, some expr⟩
  | .group start => return ⟨⟨.group, .paren start⟩ :: stack, none⟩
  | .operator entry => return ⟨⟨entry.right, .unary entry.symbol⟩ :: stack, none⟩

/-- Takes a token that is no operator after an operand: only a `)` with a group to close is right. -/
def takeClosing (stack : List Frame) (operand : Expr) (token : Token) : Except Error State := do
  let inner ← fold (group stack) operand
  match outside stack with
  | ⟨_, .paren _⟩ :: below =>
    if token.kind = .closeParen then return ⟨below, some inner⟩ else throw token.notInGroup
  | _ => throw token.notAnOperator

def takeOperator (table : Table) (stack : List Frame) (operand : Expr) (token : Token) :
    Except Error State :=
  match table.binaryFor? token with
  | some entry => do
    let left ← fold (above entry.left stack) operand
    return ⟨⟨entry.right, .binary entry.symbol left⟩ :: notAbove entry.left stack, none⟩
  | none => takeClosing stack operand token

def step (table : Table) (state : State) (token : Token) : Except Error State :=
  match state.operand with
  | none => takeOperand table state.stack token
  | some operand => takeOperator table state.stack operand token

def finish (state : State) : Except Error Expr :=
  match state.operand with
  | none => .error .endOfInput
  | some operand => fold state.stack operand

def run (table : Table) : State → List Token → Except Error Expr
  | state, [] => state.finish
  | state, token :: tokens =>
    match state.step table token with
    | .ok next => next.run table tokens
    | .error error => .error error

end State

def parse (table : Table) (tokens : List Token) : Except Error Expr :=
  State.initial.run table tokens

/-! ### Events -/

inductive Cause where
  /-- An operator with the given left power follows. -/
  | operator (power : Power)
  /-- The group ends. -/
  | groupEnd
  /-- The input ends. -/
  | inputEnd
deriving DecidableEq, Repr

/-- A push of a frame onto `depth` others, or a pop of one. -/
inductive Event where
  | push (frame : Frame) (depth : Nat)
  | pop (pending : Pending) (cause : Cause)
deriving DecidableEq, Repr

def Event.describe : Event → String
  | push frame depth =>
    "push " ++ frame.pending.describe ++ " at threshold " ++ Text.showInt frame.threshold ++
      " (depth " ++ Text.showNat depth ++ ")"
  | pop pending (.operator power) =>
    "pop " ++ pending.describe ++ " for binding power " ++ Text.showInt power
  | pop pending .groupEnd => "pop " ++ pending.describe ++ " while closing group"
  | pop pending .inputEnd => "pop " ++ pending.describe ++ " at end of input"

/-- The pops of folding frames, which ends with the first group that is still open. -/
def popsOfFold (cause : Cause) : List Frame → List Event
  | [] => []
  | frame :: frames =>
    .pop frame.pending cause :: if frame.pending.isParen then [] else popsOfFold cause frames

namespace State

/-- The push that the step to the next state ends with, if it adds a frame to `below`. -/
def pushOnto (below : List Frame) : Except Error State → List Event
  | .ok ⟨frame :: _, none⟩ => [.push frame below.length]
  | _ => []

def stepEvents (table : Table) (state : State) (token : Token) : List Event :=
  match state.operand with
  | none => pushOnto state.stack (state.step table token)
  | some _ =>
    match table.binaryFor? token with
    | some entry =>
      popsOfFold (.operator entry.left) (above entry.left state.stack) ++
        pushOnto (notAbove entry.left state.stack) (state.step table token)
    | none =>
      (group state.stack ++ (outside state.stack).take 1).map fun frame =>
        .pop frame.pending .groupEnd

def finishEvents (state : State) : List Event :=
  match state.operand with
  | none => []
  | some _ => popsOfFold .inputEnd state.stack

def runEvents (table : Table) : State → List Token → List Event
  | state, [] => state.finishEvents
  | state, token :: tokens =>
    state.stepEvents table token ++
      match state.step table token with
      | .ok next => next.runEvents table tokens
      | .error _ => []

end State

/-- The events of reading the whole input, up to the first error. -/
def events (table : Table) (tokens : List Token) : List Event :=
  State.initial.runEvents table tokens

end Reckoner.Frames
