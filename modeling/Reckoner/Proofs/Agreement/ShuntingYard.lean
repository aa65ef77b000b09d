import Reckoner.Engine.ShuntingYard
import Reckoner.Proofs.Faults

/-!
The shunting yard agrees with recursion.

The yard keeps in two stacks what the explicit stack keeps in one: the actions
of its frames, and the operands on the left of its operators. `Mirrors` relates
the states of the two engines; the only freedom is that a literal may still wait
as an action. The relation survives a step when nothing that stands where an
operand is expected sends an action on, which is what `Table.FitsYard` ensures.

* `performAll_actions` — performing the actions of frames folds them.
* `Mirrors.step`, `Mirrors.run_eq` — related states step alike and run alike.
* `parse_eq_climbing_of_fitsYard` — on tables that fit, the yard agrees with recursion.
* `shuntingYard_eq_climbing_iff` — for built tables it does so only then.
-/

namespace Reckoner

/-! ### Tables that fit the yard -/

structure Table.FitsYard (table : Table) : Prop where
  /-- An operator between operands stays in its group and sends a literal on. -/
  binary_left : ∀ entry ∈ table.binary, Power.group ≤ entry.left ∧ entry.left < Power.primary
  /-- No literal sends on an operator that waits for it. -/
  binary_right : ∀ entry ∈ table.binary, entry.right ≤ Power.primary
  unary_right : ∀ entry ∈ table.unary, entry.right ≤ Power.primary
  /-- No operator in front of an operand sends on a group or an operator that waits for it. -/
  unary_left : ∀ entry ∈ table.unary, Power.group ≤ entry.left ∧
    (∀ other ∈ table.binary, other.right ≤ entry.left) ∧
    ∀ other ∈ table.unary, other.right ≤ entry.left

theorem Table.FitsYard.grouped {table : Table} (fits : table.FitsYard) : table.Grouped :=
  fun entry hmem => (fits.binary_left entry hmem).1

theorem Table.fitsYard_standard : standard.FitsYard where
  binary_left := by decide
  binary_right := by decide
  unary_right := by decide
  unary_left := by decide

namespace ShuntingYard

open Frames (Frame Rooted)

variable {table : Table}

/-! ### Equations -/

@[simp] theorem performAll_nil (values : List Expr) : performAll [] values = .ok values := rfl

@[simp] theorem performAll_cons (pending : Waiting) (waiting : List Waiting) (values : List Expr) :
    performAll (pending :: waiting) values =
      (perform values pending.action).bind (performAll waiting) := rfl

namespace State

@[simp] theorem await_nil (values : List Expr) (expects : Bool) (power : Power) (pending : Waiting)
    (expects' : Bool) :
    await ⟨values, [], expects⟩ power pending expects' = .ok ⟨values, [pending], expects'⟩ := rfl

/-- What waits above the power is performed, the newest first. -/
theorem await_cons (values : List Expr) (first : Waiting) (waiting : List Waiting) (expects : Bool)
    (power : Power) (pending : Waiting) (expects' : Bool) :
    await ⟨values, first :: waiting, expects⟩ power pending expects' =
      if power < first.threshold then
        (perform values first.action).bind fun values =>
          await ⟨values, waiting, expects⟩ power pending expects'
      else .ok ⟨values, pending :: first :: waiting, expects'⟩ := by
  by_cases habove : power < first.threshold
  · simp only [await, above, notAbove, List.takeWhile_cons, List.dropWhile_cons, habove,
      decide_true, if_true, performAll_cons]
    cases perform values first.action <;> rfl
  · simp only [await, above, notAbove, List.takeWhile_cons, List.dropWhile_cons, habove,
      decide_false, if_false]
    rfl

theorem finish_eq (values : List Expr) (waiting : List Waiting) :
    finish ⟨values, waiting, false⟩ =
      (performAll waiting values).bind fun
        | [] => .error underflow
        | [expr] => .ok expr
        | _ :: rest => .error (leftOver rest.length) := rfl

end State

/-! ### One stack in two -/

/-- The action that a frame waits with; the frame of the whole input has none. -/
def waiting? (frame : Frame) : Option Waiting :=
  match frame.pending with
  | .root => none
  | .paren start => some ⟨frame.threshold, .paren start⟩
  | .unary operator => some ⟨frame.threshold, .unary operator⟩
  | .binary operator _ => some ⟨frame.threshold, .binary operator⟩

def left? (frame : Frame) : Option Expr :=
  match frame.pending with
  | .binary _ left => some left
  | _ => none

def actions (stack : List Frame) : List Waiting :=
  stack.filterMap waiting?

def lefts (stack : List Frame) : List Expr :=
  stack.filterMap left?

theorem actions_root (threshold : Power) : actions [⟨threshold, .root⟩] = [] := rfl

theorem actions_paren (threshold : Power) (start : Nat) (below : List Frame) :
    actions (⟨threshold, .paren start⟩ :: below) = ⟨threshold, .paren start⟩ :: actions below := rfl

theorem lefts_paren (threshold : Power) (start : Nat) (below : List Frame) :
    lefts (⟨threshold, .paren start⟩ :: below) = lefts below := rfl

/-- Performing the actions of frames folds them; the operands on their left are on the stack of
finished trees, below the operand they are folded into. -/
theorem performAll_actions (frames : List Frame) (operand : Expr) (values : List Expr) :
    performAll (actions frames) (operand :: (lefts frames ++ values)) =
      (Frames.fold frames operand).map (· :: values) := by
  induction frames generalizing operand with
  | nil => rfl
  | cons frame frames ih =>
    obtain ⟨threshold, pending⟩ := frame
    cases pending with
    | root => exact ih operand
    | paren start => rfl
    | unary operator => exact ih (.unary operator operand)
    | binary operator left => exact ih (.binary operator left operand)

/-! ### Parts of the two stacks -/

theorem actions_cons {frame : Frame} {pending : Waiting} (h : waiting? frame = some pending)
    (below : List Frame) : actions (frame :: below) = pending :: actions below :=
  List.filterMap_cons_some h

/-- Every frame but the one at the bottom has an action. -/
theorem exists_waiting? {frame : Frame} (h : frame.pending ≠ .root) :
    ∃ pending, waiting? frame = some pending := by
  obtain ⟨threshold, pending⟩ := frame
  cases pending with
  | root => exact absurd rfl h
  | paren start => exact ⟨_, rfl⟩
  | unary operator => exact ⟨_, rfl⟩
  | binary operator left => exact ⟨_, rfl⟩

/-- The two predicates take actions and frames alike, so that parts of the two stacks correspond. -/
def Corresponding (p : Waiting → Bool) (q : Frame → Bool) : Prop :=
  ∀ frame pending, waiting? frame = some pending → p pending = q frame

theorem takeWhile_actions {stack : List Frame} (rooted : Rooted stack) {p : Waiting → Bool}
    {q : Frame → Bool} (h : Corresponding p q) :
    (actions stack).takeWhile p = actions (stack.takeWhile q) := by
  induction stack with
  | nil => rfl
  | cons frame below ih =>
    cases rooted.cases_root with
    | inl hroot =>
      rw [hroot, actions_root, List.takeWhile_nil, List.takeWhile_cons]
      cases q ⟨.base, .root⟩ with
      | true => exact (actions_root .base).symm
      | false => rfl
    | inr hbelow =>
      obtain ⟨pending, hpending⟩ := exists_waiting? hbelow.1
      have hp := h frame pending hpending
      rw [actions_cons hpending, List.takeWhile_cons, List.takeWhile_cons, hp]
      cases q frame with
      | true => simp [actions_cons hpending, ih hbelow.2]
      | false => rfl

theorem dropWhile_actions {stack : List Frame} (rooted : Rooted stack) {p : Waiting → Bool}
    {q : Frame → Bool} (h : Corresponding p q) :
    (actions stack).dropWhile p = actions (stack.dropWhile q) := by
  induction stack with
  | nil => rfl
  | cons frame below ih =>
    cases rooted.cases_root with
    | inl hroot =>
      rw [hroot, actions_root, List.dropWhile_nil, List.dropWhile_cons]
      cases q ⟨.base, .root⟩ with
      | true => rfl
      | false => exact (actions_root .base).symm
    | inr hbelow =>
      obtain ⟨pending, hpending⟩ := exists_waiting? hbelow.1
      have hp := h frame pending hpending
      rw [actions_cons hpending, List.dropWhile_cons, List.dropWhile_cons, hp]
      cases q frame with
      | true => simp [ih hbelow.2]
      | false => simp [actions_cons hpending]

theorem corresponding_above (power : Power) :
    Corresponding (fun pending => power < pending.threshold)
      (fun frame => power < frame.threshold) := by
  rintro ⟨threshold, pending⟩ waiting h
  cases pending <;> cases h <;> rfl

theorem corresponding_group :
    Corresponding (fun pending => !pending.action.isParen) (·.pending.isOperator) := by
  rintro ⟨threshold, pending⟩ waiting h
  cases pending <;> cases h <;> rfl

/-- What is taken from a stack and what is left keep all its operands on the left. -/
theorem lefts_takeWhile_append_dropWhile (q : Frame → Bool) (stack : List Frame) :
    lefts (stack.takeWhile q) ++ lefts (stack.dropWhile q) = lefts stack := by
  rw [lefts, lefts, ← List.filterMap_append, List.takeWhile_append_dropWhile, lefts]

/-! ### Related states -/

/-- The yard is where the explicit stack is. A literal may still wait to be finished. -/
inductive Mirrors : Frames.State → State → Prop where
  | expecting (stack : List Frame) : Mirrors ⟨stack, none⟩ ⟨lefts stack, actions stack, true⟩
  | literal (stack : List Frame) (expr : Expr) :
      Mirrors ⟨stack, some expr⟩ ⟨lefts stack, ⟨.primary, .value expr⟩ :: actions stack, false⟩
  | finished (stack : List Frame) (expr : Expr) :
      Mirrors ⟨stack, some expr⟩ ⟨expr :: lefts stack, actions stack, false⟩

/-- The steps of two states end in related states or in the same error. -/
inductive Alike : Except Error Frames.State → Except Error State → Prop where
  | ok {frames : Frames.State} {yard : State} : Mirrors frames yard → Alike (.ok frames) (.ok yard)
  | error (error : Error) : Alike (.error error) (.error error)

/-- Nothing that stands where an operand is expected sends the actions of these frames on. -/
def Undisturbed (table : Table) (stack : List Frame) : Prop :=
  ∀ frame ∈ stack, frame.threshold ≤ Power.primary ∧
    ∀ entry ∈ table.unary, frame.threshold ≤ entry.left

/-- Above a power that no frame exceeds, all actions go on waiting. -/
theorem await_of_le {stack : List Frame} {power : Power}
    (h : ∀ frame ∈ stack, frame.threshold ≤ power) (pending : Waiting) (expectsOperand : Bool) :
    State.await ⟨lefts stack, actions stack, true⟩ power pending expectsOperand =
      .ok ⟨lefts stack, pending :: actions stack, expectsOperand⟩ := by
  cases hactions : actions stack with
  | nil => rfl
  | cons first rest =>
    have hmem : first ∈ actions stack := by simp [hactions]
    obtain ⟨frame, hframe, hfirst⟩ := List.mem_filterMap.mp hmem
    have hle : ¬ power < frame.threshold := Int.not_lt.mpr (h frame hframe)
    have hnot : ¬ power < first.threshold := by
      simpa [hle] using corresponding_above power frame first hfirst
    rw [State.await_cons, if_neg hnot]

/-! ### One step -/

/-- Where an operand is expected, the yard only adds to its actions. -/
theorem alike_takeOperand {stack : List Frame} (undisturbed : Undisturbed table stack)
    (token : Token) :
    Alike (Frames.State.takeOperand table stack token)
      (State.takeOperand table ⟨lefts stack, actions stack, true⟩ token) := by
  simp only [Frames.State.takeOperand, State.takeOperand]
  cases hatom : table.atom token with
  | error error => exact .error error
  | ok atom =>
    simp only [bind, Except.bind]
    cases atom with
    | operand expr =>
      dsimp only
      rw [await_of_le fun frame hmem => (undisturbed frame hmem).1]
      exact .ok (.literal stack expr)
    | group start => exact .ok (.expecting (⟨.group, .paren start⟩ :: stack))
    | operator entry =>
      have hentry := (Table.mem_of_atom_operator hatom).2.1
      dsimp only
      rw [await_of_le fun frame hmem => (undisturbed frame hmem).2 entry hentry]
      exact .ok (.expecting (⟨entry.right, .unary entry.symbol⟩ :: stack))

/-- After an operand, the yard performs the actions of the frames that are folded. -/
theorem alike_takeOperator {stack : List Frame} (rooted : Rooted stack) (operand : Expr)
    (token : Token) :
    Alike (Frames.State.takeOperator table stack operand token)
      (State.takeOperator table ⟨operand :: lefts stack, actions stack, false⟩ token) := by
  simp only [Frames.State.takeOperator, State.takeOperator]
  cases table.binaryFor? token with
  | some entry =>
    have habove := takeWhile_actions rooted (corresponding_above entry.left)
    have hnotAbove := dropWhile_actions rooted (corresponding_above entry.left)
    have hlefts :=
      lefts_takeWhile_append_dropWhile (fun frame => entry.left < frame.threshold) stack
    simp only [State.await, above, notAbove, habove, hnotAbove]
    rw [← hlefts, performAll_actions]
    simp only [Frames.above, Frames.notAbove]
    cases Frames.fold _ operand with
    | error error => exact .error error
    | ok left => exact .ok (.expecting (⟨entry.right, .binary entry.symbol left⟩ :: _))
  | none =>
    have hgroup := takeWhile_actions rooted corresponding_group
    have houtside := dropWhile_actions rooted corresponding_group
    have hlefts := lefts_takeWhile_append_dropWhile (fun frame => frame.pending.isOperator) stack
    simp only [Frames.State.takeClosing, State.takeClosing, group, outside, hgroup, houtside]
    rw [← hlefts, performAll_actions]
    simp only [Frames.group]
    cases Frames.fold _ operand with
    | error error => exact .error error
    | ok inner =>
      rcases rooted.outside with hroot | ⟨start, below, hparen, _⟩
      · rw [Frames.outside] at hroot ⊢
        rw [hroot]
        exact .error token.notAnOperator
      · rw [Frames.outside] at hparen ⊢
        rw [hparen]
        simp only [Except.map, bind, Except.bind, actions_paren, lefts_paren]
        by_cases hclose : token.kind = .closeParen
        · rw [if_pos hclose, if_pos hclose]
          exact .ok (.finished below inner)
        · rw [if_neg hclose, if_neg hclose]
          exact .error token.notInGroup

/-- Whatever comes after a literal that waits first finishes it. -/
theorem step_literal (fits : table.FitsYard) (values : List Expr) (waiting : List Waiting)
    (expr : Expr) (token : Token) :
    State.step table ⟨values, ⟨.primary, .value expr⟩ :: waiting, false⟩ token =
      State.step table ⟨expr :: values, waiting, false⟩ token := by
  simp only [State.step, State.takeOperator]
  cases hentry : table.binaryFor? token with
  | some entry =>
    have hprimary := (fits.binary_left entry (Table.mem_of_binaryFor? hentry).2.1).2
    simp only [State.await_cons, hprimary, if_true]
    rfl
  | none => rfl

/-- **Related states step alike.** -/
theorem Mirrors.step (fits : table.FitsYard) {frames : Frames.State} {yard : State}
    (rooted : Rooted frames.stack) (undisturbed : Undisturbed table frames.stack)
    (h : Mirrors frames yard) (token : Token) :
    Alike (frames.step table token) (yard.step table token) := by
  cases h with
  | expecting stack => exact alike_takeOperand undisturbed token
  | literal stack expr =>
    rw [step_literal fits]
    exact alike_takeOperator rooted expr token
  | finished stack expr => exact alike_takeOperator rooted expr token

/-- Related states finish alike. -/
theorem Mirrors.finish_eq {frames : Frames.State} {yard : State} (h : Mirrors frames yard) :
    yard.finish = frames.finish := by
  have finished : ∀ (stack : List Frame) (expr : Expr),
      State.finish ⟨expr :: lefts stack, actions stack, false⟩ = Frames.fold stack expr := by
    intro stack expr
    have hperform := performAll_actions stack expr []
    rw [List.append_nil] at hperform
    rw [State.finish_eq, hperform]
    cases Frames.fold stack expr <;> rfl
  cases h with
  | expecting stack => rfl
  | literal stack expr => exact finished stack expr
  | finished stack expr => exact finished stack expr

/-! ### Runs -/

/-- A step leaves frames that nothing sends on, if the powers fit. -/
theorem Undisturbed.step (fits : table.FitsYard) {state next : Frames.State} {token : Token}
    (undisturbed : Undisturbed table state.stack) (h : state.step table token = .ok next) :
    Undisturbed table next.stack := by
  cases Frames.State.Step.of_step h with
  | operand _ => exact undisturbed
  | group _ =>
    refine List.forall_mem_cons.mpr ⟨⟨Power.group_le_primary, ?_⟩, undisturbed⟩
    intro entry hmem
    exact (fits.unary_left entry hmem).1
  | prefixed hatom =>
    have hentry := (Table.mem_of_atom_operator hatom).2.1
    refine List.forall_mem_cons.mpr ⟨⟨fits.unary_right _ hentry, ?_⟩, undisturbed⟩
    intro entry hmem
    exact (fits.unary_left entry hmem).2.2 _ hentry
  | infixed hentry _ =>
    have hentry := (Table.mem_of_binaryFor? hentry).2.1
    refine List.forall_mem_cons.mpr ⟨⟨fits.binary_right _ hentry, ?_⟩, ?_⟩
    · intro entry hmem
      exact (fits.unary_left entry hmem).2.1 _ hentry
    · intro frame hmem
      exact undisturbed frame ((List.dropWhile_suffix _).subset hmem)
  | closing _ _ houtside _ =>
    intro frame hmem
    have hinside : frame ∈ Frames.outside _ := houtside ▸ List.mem_cons_of_mem _ hmem
    exact undisturbed frame ((List.dropWhile_suffix _).subset hinside)

/-- **Related states run alike.** -/
theorem Mirrors.run_eq (fits : table.FitsYard) (tokens : List Token) {frames : Frames.State}
    {yard : State} (rooted : Rooted frames.stack) (undisturbed : Undisturbed table frames.stack)
    (h : Mirrors frames yard) : yard.run table tokens = frames.run table tokens := by
  induction tokens generalizing frames yard with
  | nil => exact h.finish_eq
  | cons token tokens ih =>
    have halike := h.step fits rooted undisturbed token
    rw [State.run, Frames.State.run]
    generalize yard.step table token = outcome at halike ⊢
    cases hframes : frames.step table token with
    | error error =>
      rw [hframes] at halike
      cases halike
      rfl
    | ok next =>
      rw [hframes] at halike
      cases halike with
      | ok hnext =>
        exact ih (rooted.step fits.grouped hframes) (undisturbed.step fits hframes) hnext

/-- On tables that fit, the yard agrees with the explicit stack. -/
theorem parse_eq_frames (fits : table.FitsYard) (tokens : List Token) :
    parse table tokens = Frames.parse table tokens := by
  have undisturbed : Undisturbed table Frames.State.initial.stack := by
    intro frame hmem
    cases List.mem_singleton.mp hmem
    refine ⟨by decide, ?_⟩
    intro entry hentry
    exact Int.le_trans (Int.le_of_lt Power.base_lt_group) (fits.unary_left entry hentry).1
  exact Mirrors.run_eq fits tokens .root undisturbed (.expecting _)

/-- **On tables that fit, the yard agrees with recursion**, on the tree or on the error. -/
theorem parse_eq_climbing_of_fitsYard (fits : table.FitsYard) (tokens : List Token) :
    parse table tokens = Climbing.parse table tokens := by
  rw [parse_eq_frames fits, Frames.parse_eq_climbing fits.grouped]

/-! ### Tables that do not fit -/

namespace State

theorem step_one (values : List Expr) (waiting : List Waiting) :
    step table ⟨values, waiting, true⟩ .one =
      await ⟨values, waiting, true⟩ .primary ⟨.primary, .value (.literal 1)⟩ false := rfl

theorem step_leftParen (values : List Expr) (waiting : List Waiting) :
    step table ⟨values, waiting, true⟩ .leftParen =
      .ok ⟨values, ⟨.group, .paren 0⟩ :: waiting, true⟩ := rfl

theorem step_unary {entry : UnaryEntry} (hentry : table.unary? entry.symbol = some entry)
    (values : List Expr) (waiting : List Waiting) :
    step table ⟨values, waiting, true⟩ (.sign entry.symbol) =
      await ⟨values, waiting, true⟩ entry.left ⟨entry.right, .unary entry.symbol⟩ true := by
  simp [step, takeOperand, Table.atom_sign hentry, bind, Except.bind]

theorem step_binary {entry : BinaryEntry} (hentry : table.binary? entry.symbol = some entry)
    (values : List Expr) (waiting : List Waiting) :
    step table ⟨values, waiting, false⟩ (.sign entry.symbol) =
      await ⟨values, waiting, false⟩ entry.left ⟨entry.right, .binary entry.symbol⟩ true := by
  simp [step, takeOperator, Table.binaryFor?_sign hentry]

end State

open State (run initial step_one step_leftParen step_unary step_binary await_cons finish_eq)

/-- A power below that of a literal finishes it, one above what an operator waits for takes its
place too early. -/
theorem parse_binary {entry : BinaryEntry} (hentry : table.binary? entry.symbol = some entry) :
    parse table [.one, .sign entry.symbol, .one] =
      if entry.left < Power.primary ∧ entry.right ≤ Power.primary then
        .ok (.binary entry.symbol (.literal 1) (.literal 1))
      else .error underflow := by
  by_cases hleft : entry.left < Power.primary <;> by_cases hright : Power.primary < entry.right <;>
    simp [parse, run, initial, step_one, step_binary hentry, await_cons, hleft, hright, finish_eq,
      perform, Except.bind]

theorem parse_unary {entry : UnaryEntry} (hentry : table.unary? entry.symbol = some entry) :
    parse table [.sign entry.symbol, .one] =
      if entry.right ≤ Power.primary then .ok (.unary entry.symbol (.literal 1))
      else .error underflow := by
  by_cases hright : Power.primary < entry.right <;>
    simp [parse, run, initial, step_one, step_unary hentry, await_cons, hright, finish_eq, perform,
      Except.bind]

/-- An operator in front of an operand that is looser than a group breaks the group open. -/
theorem parse_group_unary {entry : UnaryEntry}
    (hentry : table.unary? entry.symbol = some entry) (hloose : entry.left < Power.group) :
    parse table [.leftParen, .sign entry.symbol] = .error (.unclosed 0) := by
  simp [parse, run, initial, step_leftParen, step_unary hentry, await_cons, hloose, perform,
    Except.bind]

/-- An operator in front of an operand that is looser than one waiting for it performs that one
without an operand. -/
theorem parse_unary_unary {outer entry : UnaryEntry}
    (houter : table.unary? outer.symbol = some outer)
    (hentry : table.unary? entry.symbol = some entry) (hloose : entry.left < outer.right) :
    parse table [.sign outer.symbol, .sign entry.symbol] = .error underflow := by
  simp [parse, run, initial, step_unary houter, step_unary hentry, await_cons, hloose, perform,
    Except.bind]

theorem parse_binary_unary {outer : BinaryEntry} {entry : UnaryEntry}
    (houter : table.binary? outer.symbol = some outer) (hleft : outer.left < Power.primary)
    (hentry : table.unary? entry.symbol = some entry) (hloose : entry.left < outer.right) :
    parse table [.one, .sign outer.symbol, .sign entry.symbol] = .error underflow := by
  simp [parse, run, initial, step_one, step_binary houter, step_unary hentry, await_cons, hleft,
    hloose, perform, Except.bind]

/-- Agreement on one operator between two literals fixes both powers of the operator. -/
theorem binary_of_agree (built : table.Built)
    (hagree : ∀ tokens, parse table tokens = Climbing.parse table tokens) {entry : BinaryEntry}
    (hmem : entry ∈ table.binary) :
    Power.group ≤ entry.left ∧ entry.left < Power.primary ∧ entry.right ≤ Power.primary := by
  have hentry := built.binary?_of_mem hmem
  have hprobe := hagree [.one, .sign entry.symbol, .one]
  rw [parse_binary hentry, Climbing.parse_binary hentry] at hprobe
  by_cases hloose : entry.left < Power.group
  · rw [if_pos hloose] at hprobe
    split at hprobe <;> cases hprobe
  · rw [if_neg hloose] at hprobe
    split at hprobe
    · rename_i hfits
      exact ⟨Int.not_lt.mp hloose, hfits⟩
    · cases hprobe

/-- Agreement on an operator in front of an operand fixes its right power, and agreement where it
follows a `(` or another operator fixes its left power. -/
theorem unary_of_agree (built : table.Built)
    (hagree : ∀ tokens, parse table tokens = Climbing.parse table tokens) {entry : UnaryEntry}
    (hmem : entry ∈ table.unary) :
    entry.right ≤ Power.primary ∧ Power.group ≤ entry.left ∧
      (∀ other ∈ table.binary, other.right ≤ entry.left) ∧
      ∀ other ∈ table.unary, other.right ≤ entry.left := by
  have hentry := built.unary?_of_mem hmem
  have hunfinished := Climbing.expression_unfinished hentry
  refine ⟨?_, ?_, ?_, ?_⟩
  · have hprobe := hagree [.sign entry.symbol, .one]
    rw [parse_unary hentry, Climbing.parse_unary hentry] at hprobe
    split at hprobe
    · assumption
    · cases hprobe
  · apply Int.not_lt.mp
    intro hloose
    have hprobe := hagree [.leftParen, .sign entry.symbol]
    rw [parse_group_unary hentry hloose] at hprobe
    simp [Climbing.parse, Climbing.expression_cons, hunfinished, Error.unclosed, Error.endOfInput,
      Error.positioned, Error.unpositioned] at hprobe
  · intro other hother
    apply Int.not_lt.mp
    intro hloose
    obtain ⟨hgroup, hleft, _⟩ := binary_of_agree built hagree hother
    have hother := built.binary?_of_mem hother
    have hprobe := hagree [.one, .sign other.symbol, .sign entry.symbol]
    rw [parse_binary_unary hother hleft hentry hloose] at hprobe
    simp [Climbing.parse, Climbing.expression_cons,
      Climbing.climb_of_binary (Table.binaryFor?_sign hother) hgroup, hunfinished, underflow,
      Error.endOfInput, Error.unpositioned] at hprobe
  · intro other hother
    apply Int.not_lt.mp
    intro hloose
    have hother := built.unary?_of_mem hother
    have hprobe := hagree [.sign other.symbol, .sign entry.symbol]
    rw [parse_unary_unary hother hentry hloose] at hprobe
    simp [Climbing.parse, Climbing.expression_cons, Table.atom_sign hother, hunfinished, underflow,
      Error.endOfInput, Error.unpositioned] at hprobe

theorem fitsYard_of_agree (built : table.Built)
    (hagree : ∀ tokens, parse table tokens = Climbing.parse table tokens) : table.FitsYard where
  binary_left := by
    intro entry hmem
    have hpowers := binary_of_agree built hagree hmem
    exact ⟨hpowers.1, hpowers.2.1⟩
  binary_right := by
    intro entry hmem
    exact (binary_of_agree built hagree hmem).2.2
  unary_right := by
    intro entry hmem
    exact (unary_of_agree built hagree hmem).1
  unary_left := by
    intro entry hmem
    exact (unary_of_agree built hagree hmem).2

/-- **The yard and recursion agree exactly on tables that fit.** For every built table, the two
engines give the same tree or the same error on every list of tokens if and only if the powers of
the table fit the yard. The standard table fits, so with it the yard agrees with recursion and is
never in an invalid state. -/
theorem shuntingYard_eq_climbing_iff :
    (∀ table : Table, table.Built →
      ((∀ tokens, parse table tokens = Climbing.parse table tokens) ↔ table.FitsYard)) ∧
      Table.standard.FitsYard ∧
      ∀ tokens, parse .standard tokens = Climbing.parse .standard tokens ∧
        ∀ detail position, parse .standard tokens ≠ .error ⟨.invalidState detail, position⟩ := by
  refine ⟨?_, Table.fitsYard_standard, ?_⟩
  · intro table built
    constructor
    · intro hagree
      exact fitsYard_of_agree built hagree
    · intro fits tokens
      exact parse_eq_climbing_of_fitsYard fits tokens
  · intro tokens
    refine ⟨parse_eq_climbing_of_fitsYard Table.fitsYard_standard tokens, ?_⟩
    intro detail position hinvalid
    rw [parse_eq_frames Table.fitsYard_standard] at hinvalid
    have hreading := Frames.ofReading_of_parse hinvalid
    simp [Error.Kind.ofReading] at hreading

end ShuntingYard

end Reckoner
