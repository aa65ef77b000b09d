import Reckoner.Token.Role

/-!
The shunting yard.

Actions wait on one stack until a looser operator, a `)` or the end of the input
sends them on; performing an action takes its operands from a second stack, of
finished trees, and puts its result there. A literal is an action too, one that
waits with the power of a primary. Both stacks are lists with the newest first.

An operator in front of an operand sends on what waits above its left power before
it waits itself. With powers that do not fit together this can perform an action
before its operands are there, which is reported as an invalid state.
-/

namespace Reckoner.ShuntingYard

/-! ### Actions -/

/-- Something to be done with the finished trees. -/
inductive Action where
  /-- Adds a literal. -/
  | value (expr : Expr)
  | unary (operator : String)
  | binary (operator : String)
  /-- Marks a group opened at the given offset. -/
  | paren (start : Nat)
deriving DecidableEq, Repr

namespace Action

def describe : Action → String
  | value _ => "push value"
  | unary operator => "apply unary `" ++ operator ++ "`"
  | binary operator => "apply binary `" ++ operator ++ "`"
  | paren start => "paren opened at " ++ Text.showNat start

def isParen : Action → Bool
  | paren _ => true
  | _ => false

end Action

/-- An action and the threshold above which it is not sent on. -/
structure Waiting where
  threshold : Power
  action : Action
deriving DecidableEq, Repr

def underflow : Error :=
  .unpositioned (.invalidState "value stack underflow")

def leftOver (count : Nat) : Error :=
  .unpositioned (.invalidState (Text.showNat count ++ " values left over"))

def perform (values : List Expr) : Action → Except Error (List Expr)
  | .value expr => .ok (expr :: values)
  | .unary operator =>
    match values with
    | operand :: rest => .ok (.unary operator operand :: rest)
    | [] => .error underflow
  | .binary operator =>
    match values with
    | right :: left :: rest => .ok (.binary operator left right :: rest)
    | _ => .error underflow
  | .paren start => .error (.unclosed start)

def performAll (waiting : List Waiting) (values : List Expr) : Except Error (List Expr) :=
  waiting.foldlM (fun values pending => perform values pending.action) values

/-! ### Parts of the stack of actions -/

/-- The actions that are sent on by a power. -/
def above (power : Power) (waiting : List Waiting) : List Waiting :=
  waiting.takeWhile fun pending => power < pending.threshold

def notAbove (power : Power) (waiting : List Waiting) : List Waiting :=
  waiting.dropWhile fun pending => power < pending.threshold

/-- The actions of the innermost group. -/
def group (waiting : List Waiting) : List Waiting :=
  waiting.takeWhile fun pending => !pending.action.isParen

/-- The actions from the mark of the innermost group on. -/
def outside (waiting : List Waiting) : List Waiting :=
  waiting.dropWhile fun pending => !pending.action.isParen

/-! ### States -/

/-- The two stacks, and whether an operand is expected. -/
structure State where
  values : List Expr
  waiting : List Waiting
  expectsOperand : Bool
deriving DecidableEq, Repr

namespace State

def initial : State :=
  ⟨[], [], true⟩

/-- Sends on what waits above a power, then adds an action. -/
def await (state : State) (power : Power) (pending : Waiting) (expectsOperand : Bool) :
    Except Error State := do
  let values ← performAll (above power state.waiting) state.values
  return ⟨values, pending :: notAbove power state.waiting, expectsOperand⟩

def takeOperand (table : Table) (state : State) (token : Token) : Except Error State := do
  match ← table.atom token with
  | .operand expr => state.await .primary ⟨.primary, .value expr⟩ false
  | .group start => return ⟨state.values, ⟨.group, .paren start⟩ :: state.waiting, true⟩
  | .operator entry => state.await entry.left ⟨entry.right, .unary entry.symbol⟩ true

/-- Takes a token that is no operator after an operand: only a `)` with a group to close is right. -/
def takeClosing (state : State) (token : Token) : Except Error State := do
  let values ← performAll (group state.waiting) state.values
  match outside state.waiting with
  | [] => throw token.notAnOperator
  | _ :: below =>
    if token.kind = .closeParen then return ⟨values, below, false⟩ else throw token.notInGroup

def takeOperator (table : Table) (state : State) (token : Token) : Except Error State :=
  match table.binaryFor? token with
  | some entry => state.await entry.left ⟨entry.right, .binary entry.symbol⟩ true
  | none => state.takeClosing token

def step (table : Table) (state : State) (token : Token) : Except Error State :=
  if state.expectsOperand then state.takeOperand table token else state.takeOperator table token

/-- The tree at the end of the input: the only one left after all actions. -/
def finish (state : State) : Except Error Expr :=
  if state.expectsOperand then .error .endOfInput
  else do
    match ← performAll state.waiting state.values with
    | [] => throw underflow
    | [expr] => return expr
    | _ :: rest => throw (leftOver rest.length)

def run (table : Table) : State → List Token → Except Error Expr
  | state, [] => state.finish
  | state, token :: tokens =>
    match state.step table token with
    | .ok next => next.run table tokens
    | .error error => .error error

end State

def parse (table : Table) (tokens : List Token) : Except Error Expr :=
  State.initial.run table tokens

/-! ### Events -/

/-- An action that is performed while there are `values` finished trees. -/
structure Event where
  action : Action
  values : Nat
deriving DecidableEq, Repr

def Event.describe (event : Event) : String :=
  "perform " ++ event.action.describe ++ " (" ++ Text.showNat event.values ++ " values)"

/-- The events of performing several actions, up to the first that fails. -/
def performEvents : List Waiting → List Expr → List Event
  | [], _ => []
  | pending :: waiting, values =>
    ⟨pending.action, values.length⟩ ::
      match perform values pending.action with
      | .ok next => performEvents waiting next
      | .error _ => []

namespace State

/-- The actions that taking a token sends on. -/
def sentOn (table : Table) (state : State) (token : Token) : List Waiting :=
  if state.expectsOperand then
    match table.atom token with
    | .ok (.operand _) => above .primary state.waiting
    | .ok (.operator entry) => above entry.left state.waiting
    | .ok (.group _) | .error _ => []
  else
    match table.binaryFor? token with
    | some entry => above entry.left state.waiting
    | none => group state.waiting

def runEvents (table : Table) : State → List Token → List Event
  | state, [] => if state.expectsOperand then [] else performEvents state.waiting state.values
  | state, token :: tokens =>
    performEvents (state.sentOn table token) state.values ++
      match state.step table token with
      | .ok next => next.runEvents table tokens
      | .error _ => []

end State

def events (table : Table) (tokens : List Token) : List Event :=
  State.initial.runEvents table tokens

end Reckoner.ShuntingYard
