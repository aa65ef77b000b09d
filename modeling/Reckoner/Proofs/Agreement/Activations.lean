import Reckoner.Engine
import Reckoner.Proofs.Agreement.Frames

/-!
Activations and pushes.

The two engines agree on more than their results: wherever recursion is entered
again, the explicit stack gets a frame with the same threshold. The outlook of a
state already lists the activations that are still to come; what is left to see is
that each step pushes exactly the next of them.

* `State.pushed_stepEvents` — a step that succeeds pushes what the next state
  enters with, and one that fails pushes nothing.
* `State.thresholds_outlook` — so a run pushes every activation after the first.
* `thresholds_eq_pushed` — the records of recursion, in order, are the pushes.
-/

namespace Reckoner

/-! ### Records of an activation -/

namespace Climbing

/-- An expression enters with its own threshold, and what it enters after that depends on the
threshold only through the operators on either side of it. -/
theorem thresholds_expression {table : Table} {low high : Power}
    (h : ∀ entry ∈ table.binary, entry.left < low ↔ entry.left < high) (tokens : List Token) :
    ∃ entered, (expression table low tokens).thresholds = low :: entered ∧
      (expression table high tokens).thresholds = high :: entered := by
  have hclimb : climb table low = climb table high := by
    funext left rest
    exact climb_congr h left rest
  cases tokens with
  | nil => exact ⟨[], by simp, by simp⟩
  | cons token tokens =>
    rw [expression_cons, expression_cons, hclimb]
    exact ⟨_, rfl, rfl⟩

end Climbing

namespace Frames

open Climbing (Reply)

/-! ### Pushes -/

/-- The threshold of the frame that an event pushes. -/
def Event.pushed? : Event → Option Power
  | push frame _ => some frame.threshold
  | pop _ _ => none

/-- The thresholds of the frames that are pushed, in the order of the events. -/
def pushed (events : List Event) : List Power :=
  events.filterMap Event.pushed?

@[simp] theorem pushed_append (first second : List Event) :
    pushed (first ++ second) = pushed first ++ pushed second :=
  List.filterMap_append

@[simp] theorem pushed_pops (cause : Cause) (frames : List Frame) :
    pushed (frames.map fun frame => .pop frame.pending cause) = [] := by
  induction frames with
  | nil => rfl
  | cons frame frames ih => exact ih

@[simp] theorem pushed_popsOfFold (cause : Cause) (frames : List Frame) :
    pushed (popsOfFold cause frames) = [] := by
  induction frames with
  | nil => rfl
  | cons frame frames ih =>
    unfold popsOfFold
    by_cases hparen : frame.pending.isParen = true
    · rw [if_pos hparen]
      rfl
    · rw [if_neg hparen]
      exact ih

namespace State

variable {table : Table}

/-- **A step pushes the next activation**: the one that the state after it enters with, if any. -/
theorem pushed_stepEvents {state next : State} {token : Token}
    (h : state.step table token = .ok next) :
    pushed (state.stepEvents table token) = next.entered := by
  cases Step.of_step h with
  | @operand stack _ _ =>
    rw [stepEvents, h]
    cases stack with
    | nil => rfl
    | cons frame below => rfl
  | group _ =>
    rw [stepEvents, h]
    rfl
  | prefixed _ =>
    rw [stepEvents, h]
    rfl
  | infixed hentry _ =>
    simp only [stepEvents, hentry, h, pushed_append, pushed_popsOfFold]
    rfl
  | closing hentry _ _ _ =>
    simp only [stepEvents, hentry, pushed_pops]
    rfl

theorem pushed_stepEvents_of_error {state : State} {token : Token} {error : Error}
    (h : state.step table token = .error error) : pushed (state.stepEvents table token) = [] := by
  obtain ⟨stack, operand⟩ := state
  cases operand with
  | none =>
    rw [stepEvents, h]
    rfl
  | some operand =>
    cases hentry : table.binaryFor? token with
    | some entry =>
      simp only [stepEvents, hentry, h, pushed_append, pushed_popsOfFold]
      rfl
    | none => simp only [stepEvents, hentry, pushed_pops]

@[simp] theorem pushed_finishEvents (state : State) : pushed state.finishEvents = [] := by
  obtain ⟨stack, operand⟩ := state
  cases operand with
  | none => rfl
  | some operand => exact pushed_popsOfFold .inputEnd stack

/-- **A run pushes every activation to come**, up to and with the one it fails in, but for the one
that the state is already in. -/
theorem thresholds_outlook (grouped : table.Grouped) (tokens : List Token) {state : State}
    (rooted : Rooted state.stack) :
    (state.outlook table tokens).thresholds =
      state.entered ++ pushed (state.runEvents table tokens) := by
  induction tokens generalizing state with
  | nil => simp [outlook_nil rooted, runEvents]
  | cons token tokens ih =>
    rw [outlook_cons grouped rooted, runEvents, pushed_append, Reply.thresholds_after]
    cases hstep : state.step table token with
    | error error =>
      rw [pushed_stepEvents_of_error hstep]
      rfl
    | ok next =>
      simp only [pushed_stepEvents hstep]
      rw [ih (rooted.step grouped hstep)]

end State

/-! ### Logs -/

variable {table : Table}

/-- The bottom frame enters nothing: it takes what was read, or fails. -/
theorem thresholds_outlook_initial (tokens : List Token) :
    (State.initial.outlook table tokens).thresholds =
      (Climbing.expression table .base tokens).thresholds := by
  simp only [State.outlook, State.initial, resume, top, Climbing.read_none]
  cases hread : (Climbing.expression table .base tokens).result with
  | error error => rw [Reply.andThen_of_error hread]
  | ok expr =>
    rw [Reply.andThen_of_ok hread]
    cases (Climbing.expression table .base tokens).rest with
    | nil => simp [Pending.resume]
    | cons token rest => simp [Pending.resume]

/-- **Recursion enters where the explicit stack pushes**, with the same thresholds, in the same
order and up to the same failure; only the first activation has no push. -/
theorem thresholds_eq_pushed (grouped : table.Grouped) (tokens : List Token) :
    (Climbing.expression table .group tokens).thresholds =
      .group :: pushed (events table tokens) := by
  obtain ⟨entered, hbase, hgroup⟩ := Climbing.thresholds_expression grouped.lt_base_iff tokens
  have rooted : Rooted State.initial.stack := .root
  have houtlook := State.thresholds_outlook grouped tokens rooted
  rw [thresholds_outlook_initial, hbase] at houtlook
  change .base :: entered = .base :: pushed (events table tokens) at houtlook
  obtain ⟨-, hentered⟩ := List.cons.inj houtlook
  rw [hgroup, hentered]

/-- **Every activation of recursion but the first is a push of the explicit stack**, on every list
of tokens, accepted or not, and for every table whose groups keep their operators: the thresholds
are the same, in the same order and up to the same failure, and so are the lines of the log. -/
theorem moves_tail_eq_pushed {table : Table}
    (grouped : ∀ entry ∈ table.binary, Power.group ≤ entry.left) (tokens : List Token) :
    (Climbing.expression table .group tokens).thresholds.tail = pushed (events table tokens) ∧
      (Engine.climbing.moves table tokens).tail =
        (pushed (events table tokens)).map fun threshold =>
          "parse_expr: min binding power " ++ Text.showInt threshold := by
  have hthresholds := thresholds_eq_pushed grouped tokens
  constructor
  · rw [hthresholds, List.tail_cons]
  · rw [Engine.moves, hthresholds, List.map_cons, List.tail_cons]

/-- In `( 1 + -`, which stops short, a group, an operator between operands and one in front of an
operand are entered. -/
theorem moves_tail_unfinished :
    Table.standard.Grouped ∧
      (Climbing.expression .standard .group
        [.leftParen, .one, .sign "+", .sign "-"]).thresholds.tail = [0, 10, 13] :=
  ⟨Table.grouped_standard,
    (moves_tail_eq_pushed Table.grouped_standard [.leftParen, .one, .sign "+", .sign "-"]).1.trans
      (by decide)⟩

end Frames

end Reckoner
