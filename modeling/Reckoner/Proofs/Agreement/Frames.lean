import Reckoner.Engine.Frames
import Reckoner.Proofs.Reading

/-!
The explicit stack agrees with recursion.

A frame stands for an activation of the recursive engine that waits for an
operand. `resume` is what the waiting activations make of a reply, and the
outlook of a state is what the recursive engine would still make of the tokens
that are left: a reading with the threshold of the newest frame, resumed by the
whole stack.

* `State.outlook_nil`, `State.outlook_cons` — the end of the input gives the
  outlook, and a step keeps it, tokens left and thresholds entered included.
* `State.run_eq_outlook` — so a run ends with the outlook of its first state.
* `parse_eq_climbing` — with groups that keep their operators, the engine agrees
  with recursion on every list of tokens.
* `climbing_eq_frames_iff` — for built tables it does so only then.
-/

namespace Reckoner.Frames

open Climbing (Reply Stops climb climb_of_stops climb_of_binary)

/-! ### Folding and stepping -/

@[simp] theorem fold_nil (operand : Expr) : fold [] operand = .ok operand := rfl

theorem fold_cons (frame : Frame) (frames : List Frame) (operand : Expr) :
    fold (frame :: frames) operand = (frame.pending.fill operand).bind (fold frames) := rfl

namespace State

theorem run_cons (table : Table) (state : State) (token : Token) (tokens : List Token) :
    state.run table (token :: tokens) = (state.step table token).bind (·.run table tokens) := by
  rw [run]
  cases state.step table token <;> rfl

/-- What a step that succeeds does with a token. -/
inductive Step (table : Table) (token : Token) : State → State → Prop where
  | operand {stack expr} :
      table.atom token = .ok (.operand expr) → Step table token ⟨stack, none⟩ ⟨stack, some expr⟩
  | group {stack start} :
      table.atom token = .ok (.group start) →
      Step table token ⟨stack, none⟩ ⟨⟨.group, .paren start⟩ :: stack, none⟩
  | prefixed {stack entry} :
      table.atom token = .ok (.operator entry) →
      Step table token ⟨stack, none⟩ ⟨⟨entry.right, .unary entry.symbol⟩ :: stack, none⟩
  | infixed {stack operand entry left} :
      table.binaryFor? token = some entry → fold (above entry.left stack) operand = .ok left →
      Step table token ⟨stack, some operand⟩
        ⟨⟨entry.right, .binary entry.symbol left⟩ :: notAbove entry.left stack, none⟩
  | closing {stack operand inner threshold start below} :
      table.binaryFor? token = none → fold (Frames.group stack) operand = .ok inner →
      outside stack = ⟨threshold, .paren start⟩ :: below → token.kind = .closeParen →
      Step table token ⟨stack, some operand⟩ ⟨below, some inner⟩

theorem Step.of_step {table : Table} {token : Token} {state next : State}
    (h : state.step table token = .ok next) : Step table token state next := by
  obtain ⟨stack, operand⟩ := state
  cases operand with
  | none =>
    simp only [step, takeOperand] at h
    cases hatom : table.atom token with
    | error error => simp [hatom, bind, Except.bind] at h
    | ok atom =>
      rw [hatom] at h
      cases atom with
      | operand expr => cases h; exact .operand hatom
      | group start => cases h; exact .group hatom
      | operator entry => cases h; exact .prefixed hatom
  | some operand =>
    simp only [step, takeOperator] at h
    cases hentry : table.binaryFor? token with
    | some entry =>
      cases hfold : fold (above entry.left stack) operand with
      | error error => simp [hentry, hfold, bind, Except.bind] at h
      | ok left =>
        simp only [hentry, hfold] at h
        cases h
        exact .infixed hentry hfold
    | none =>
      simp only [hentry, takeClosing] at h
      cases hfold : fold (Frames.group stack) operand with
      | error error => simp [hfold, bind, Except.bind] at h
      | ok inner =>
        simp only [hfold, bind, Except.bind] at h
        split at h
        · rename_i houtside
          by_cases hclose : token.kind = .closeParen
          · rw [if_pos hclose] at h
            cases h
            exact .closing hentry hfold houtside hclose
          · rw [if_neg hclose] at h
            cases h
        · cases h

end State

/-! ### Stacks that occur -/

/-- A stack with the frame of the whole input at the bottom and nowhere else, and with every group
at the threshold of groups. -/
inductive Rooted : List Frame → Prop where
  | root : Rooted [⟨.base, .root⟩]
  | paren (start : Nat) {below : List Frame} :
      Rooted below → Rooted (⟨.group, .paren start⟩ :: below)
  | operator (threshold : Power) {pending : Pending} {below : List Frame} :
      pending.isOperator = true → Rooted below → Rooted (⟨threshold, pending⟩ :: below)

/-- Every frame but the one at the bottom waits for an operand of its own. -/
theorem Rooted.cases_root {frame : Frame} {below : List Frame} (rooted : Rooted (frame :: below)) :
    frame :: below = [⟨.base, .root⟩] ∨ frame.pending ≠ .root ∧ Rooted below := by
  cases rooted with
  | root => exact .inl rfl
  | paren start rooted => exact .inr ⟨by simp, rooted⟩
  | operator threshold hop rooted =>
    refine .inr ⟨?_, rooted⟩
    rintro rfl
    simp [Pending.isOperator] at hop

/-- An operator that holds at least as tightly as a group leaves the bottom of the stack alone. -/
theorem Rooted.notAbove {stack : List Frame} (rooted : Rooted stack) {power : Power}
    (hpower : .group ≤ power) : Rooted (notAbove power stack) := by
  induction rooted with
  | root =>
    have hnot : ¬ power < Power.base :=
      Int.not_lt.mpr (Int.le_trans (Int.le_of_lt Power.base_lt_group) hpower)
    simpa [Frames.notAbove, hnot] using Rooted.root
  | paren start rooted _ =>
    have hnot : ¬ power < Power.group := Int.not_lt.mpr hpower
    simpa [Frames.notAbove, hnot] using rooted.paren start
  | operator threshold hop rooted ih =>
    by_cases habove : power < threshold
    · simpa [Frames.notAbove, habove] using ih
    · simpa [Frames.notAbove, habove] using rooted.operator threshold hop

/-- Outside the innermost group is the bottom of the stack or the frame that opened the group. -/
theorem Rooted.outside {stack : List Frame} (rooted : Rooted stack) :
    outside stack = [⟨.base, .root⟩] ∨
      ∃ start below, outside stack = ⟨.group, .paren start⟩ :: below ∧ Rooted below := by
  induction rooted with
  | root => exact .inl rfl
  | paren start rooted _ => exact .inr ⟨start, _, rfl, rooted⟩
  | operator threshold hop _ ih => simpa [Frames.outside, hop] using ih

/-- A step keeps the shape of the stack. -/
theorem Rooted.step {table : Table} (grouped : table.Grouped) {state next : State} {token : Token}
    (rooted : Rooted state.stack) (h : state.step table token = .ok next) : Rooted next.stack := by
  cases State.Step.of_step h with
  | operand _ => exact rooted
  | group _ => exact rooted.paren _
  | prefixed _ => exact rooted.operator _ rfl
  | infixed hentry _ =>
    have hgroup := grouped _ (Table.mem_of_binaryFor? hentry).2.1
    exact (rooted.notAbove hgroup).operator _ rfl
  | closing _ _ houtside _ =>
    rcases rooted.outside with hroot | ⟨start, below, hparen, hbelow⟩
    · simp [houtside] at hroot
    · rw [houtside] at hparen
      cases hparen
      exact hbelow

/-! ### What the waiting activations make of a reply -/

def top : List Frame → Power
  | [] => .base
  | frame :: _ => frame.threshold

/-- What the activation behind a frame makes of its operand and the tokens after it, when it is
itself at the given threshold. -/
def Pending.resume (table : Table) (threshold : Power) : Pending → Expr → List Token → Reply
  | root, operand, [] => ⟨.ok operand, [], []⟩
  | root, _, token :: rest => ⟨.error token.notAnOperator, rest, []⟩
  | paren start, _, [] => ⟨.error (.unclosed start), [], []⟩
  | paren _, inner, next :: rest =>
    if next.kind = .closeParen then climb table threshold inner rest
    else ⟨.error next.notInGroup, rest, []⟩
  | unary operator, operand, rest => climb table threshold (.unary operator operand) rest
  | binary operator left, right, rest => climb table threshold (.binary operator left right) rest

/-- What the activations behind the frames make of a reply, the newest first. -/
def resume (table : Table) : List Frame → Reply → Reply
  | [], reply => reply
  | frame :: below, reply =>
    resume table below (reply.andThen (frame.pending.resume table (top below)))

theorem resume_after (table : Table) (stack : List Frame) (thresholds : List Power)
    (reply : Reply) :
    resume table stack (reply.after thresholds) = (resume table stack reply).after thresholds := by
  induction stack generalizing reply with
  | nil => rfl
  | cons frame below ih => simp only [resume, Reply.andThen_after, ih]

theorem resume_error (table : Table) (stack : List Frame) (error : Error) (rest : List Token)
    (thresholds : List Power) :
    resume table stack ⟨.error error, rest, thresholds⟩ = ⟨.error error, rest, thresholds⟩ := by
  induction stack with
  | nil => rfl
  | cons frame below ih => simp only [resume, Reply.andThen_error, ih]

/-- An operator is completed by its operand, and its activation climbs on from there. -/
theorem Pending.exists_fill {pending : Pending} (hop : pending.isOperator = true) (operand : Expr) :
    ∃ filled, pending.fill operand = .ok filled ∧ ∀ table threshold rest,
      pending.resume table threshold operand rest = climb table threshold filled rest := by
  cases pending with
  | root => simp [isOperator] at hop
  | paren start => simp [isOperator] at hop
  | unary operator => exact ⟨_, rfl, fun _ _ _ => rfl⟩
  | binary operator left => exact ⟨_, rfl, fun _ _ _ => rfl⟩

/-! ### Outlook -/

namespace State

/-- What the recursive engine would make of the tokens that are left. -/
def outlook (table : Table) (state : State) (tokens : List Token) : Reply :=
  resume table state.stack (Climbing.read table (top state.stack) state.operand tokens)

/-- The threshold that the next reading enters with; after an operand, none is entered. -/
def entered (state : State) : List Power :=
  match state.operand with
  | none => [top state.stack]
  | some _ => []

variable {table : Table}

/-- Where climbing stops, an operator on top of the stack is completed. -/
theorem exists_outlook_of_stops {threshold : Power} {pending : Pending} {tokens : List Token}
    (hop : pending.isOperator = true) (hstops : Stops table threshold tokens) (below : List Frame)
    (operand : Expr) :
    ∃ filled, pending.fill operand = .ok filled ∧
      outlook table ⟨⟨threshold, pending⟩ :: below, some operand⟩ tokens =
        outlook table ⟨below, some filled⟩ tokens := by
  obtain ⟨filled, hfill, hresume⟩ := Pending.exists_fill hop operand
  refine ⟨filled, hfill, ?_⟩
  simp [outlook, resume, top, climb_of_stops hstops, hresume]

/-- An operator that reaches the threshold of the newest frame waits on top of it. -/
theorem outlook_of_binary {frame : Frame} {below : List Frame} {token : Token}
    {entry : BinaryEntry} (hentry : table.binaryFor? token = some entry)
    (hle : frame.threshold ≤ entry.left) (operand : Expr) (tokens : List Token) :
    outlook table ⟨frame :: below, some operand⟩ (token :: tokens) =
      outlook table ⟨⟨entry.right, .binary entry.symbol operand⟩ :: frame :: below, none⟩
        tokens := by
  simp only [outlook, top, Climbing.read_some, climb_of_binary hentry hle]
  rfl

/-! ### One step -/

theorem outlook_takeOperand (stack : List Frame) (token : Token) (tokens : List Token) :
    outlook table ⟨stack, none⟩ (token :: tokens) =
      (match takeOperand table stack token with
        | .ok next => outlook table next tokens
        | .error error => ⟨.error error, tokens, []⟩).after [top stack] := by
  simp only [outlook, Climbing.read_none, Climbing.expression_cons, resume_after, takeOperand]
  cases table.atom token with
  | error error => simp [bind, Except.bind, resume_error]
  | ok atom =>
    cases atom with
    | operand expr => rfl
    | operator entry => rfl
    | group start =>
      simp only [bind, Except.bind, pure, Except.pure, resume]
      congr 3
      funext inner rest
      cases rest <;> rfl

/-- An operator on top of the stack that holds tighter than the next operator is folded. -/
theorem takeOperator_fold {frame : Frame} {below : List Frame} {operand filled : Expr}
    {token : Token} {entry : BinaryEntry} (hentry : table.binaryFor? token = some entry)
    (habove : entry.left < frame.threshold) (hfill : frame.pending.fill operand = .ok filled) :
    takeOperator table (frame :: below) operand token = takeOperator table below filled token := by
  simp [takeOperator, hentry, above, notAbove, habove, fold, hfill, bind, Except.bind]

/-- An operator that reaches the threshold of the newest frame is pushed. -/
theorem takeOperator_push {frame : Frame} {below : List Frame} {operand : Expr} {token : Token}
    {entry : BinaryEntry} (hentry : table.binaryFor? token = some entry)
    (hle : frame.threshold ≤ entry.left) :
    takeOperator table (frame :: below) operand token =
      .ok ⟨⟨entry.right, .binary entry.symbol operand⟩ :: frame :: below, none⟩ := by
  have hnot : ¬ entry.left < frame.threshold := Int.not_lt.mpr hle
  simp [takeOperator, hentry, above, notAbove, hnot, fold, bind, Except.bind, pure, Except.pure]

theorem outlook_takeOperator {stack : List Frame} (rooted : Rooted stack) {token : Token}
    {entry : BinaryEntry} (hentry : table.binaryFor? token = some entry)
    (hgroup : .group ≤ entry.left) (operand : Expr) (tokens : List Token) :
    ∃ next, takeOperator table stack operand token = .ok next ∧
      outlook table ⟨stack, some operand⟩ (token :: tokens) = outlook table next tokens := by
  -- The induction follows the stack down to the frame that the operator does not fold.
  induction rooted generalizing operand with
  | root =>
    have hle : Power.base ≤ entry.left := Int.le_trans (Int.le_of_lt Power.base_lt_group) hgroup
    exact ⟨_, takeOperator_push hentry hle, outlook_of_binary hentry hle operand tokens⟩
  | paren start _ _ =>
    exact ⟨_, takeOperator_push hentry hgroup, outlook_of_binary hentry hgroup operand tokens⟩
  | operator threshold hop _ ih =>
    by_cases hle : threshold ≤ entry.left
    · exact ⟨_, takeOperator_push hentry hle, outlook_of_binary hentry hle operand tokens⟩
    · have habove : entry.left < threshold := Int.not_le.mp hle
      have hstops : Stops table threshold (token :: tokens) := by
        intro other hother
        rw [hentry] at hother
        cases hother
        exact habove
      obtain ⟨filled, hfill, houtlook⟩ := exists_outlook_of_stops hop hstops _ operand
      rw [takeOperator_fold hentry habove hfill, houtlook]
      exact ih filled

/-- An operator on top of the stack is folded by any token that is no operator. -/
theorem takeClosing_fold {frame : Frame} {below : List Frame} {operand filled : Expr}
    (hop : frame.pending.isOperator = true) (hfill : frame.pending.fill operand = .ok filled)
    (token : Token) :
    takeClosing (frame :: below) operand token = takeClosing below filled token := by
  simp [takeClosing, group, outside, hop, fold, hfill, bind, Except.bind]

theorem takeClosing_root (operand : Expr) (token : Token) :
    takeClosing [⟨.base, .root⟩] operand token = .error token.notAnOperator := rfl

theorem takeClosing_paren (start : Nat) (below : List Frame) (operand : Expr) (token : Token) :
    takeClosing (⟨.group, .paren start⟩ :: below) operand token =
      if token.kind = .closeParen then .ok ⟨below, some operand⟩ else .error token.notInGroup := rfl

theorem outlook_takeClosing {stack : List Frame} (rooted : Rooted stack) {token : Token}
    (hentry : table.binaryFor? token = none) (operand : Expr) (tokens : List Token) :
    outlook table ⟨stack, some operand⟩ (token :: tokens) =
      match takeClosing stack operand token with
      | .ok next => outlook table next tokens
      | .error error => ⟨.error error, tokens, []⟩ := by
  have hstops : ∀ threshold, Stops table threshold (token :: tokens) := by
    intro threshold entry hother
    simp [hentry] at hother
  induction rooted generalizing operand with
  | root => simp [outlook, resume, Pending.resume, climb_of_stops (hstops _), takeClosing_root]
  | paren start _ _ =>
    rw [takeClosing_paren]
    by_cases hclose : token.kind = .closeParen
    · simp [outlook, resume, Pending.resume, climb_of_stops (hstops _), hclose]
    · simp [outlook, resume, Pending.resume, climb_of_stops (hstops _), hclose, resume_error]
  | operator threshold hop _ ih =>
    obtain ⟨filled, hfill, houtlook⟩ := exists_outlook_of_stops hop (hstops threshold) _ operand
    rw [houtlook, ih filled, takeClosing_fold hop hfill]

/-- **A step keeps the outlook.** A state foretells what the next one does, and a step that fails
fails as foretold, at its token. -/
theorem outlook_cons (grouped : table.Grouped) {state : State} (rooted : Rooted state.stack)
    (token : Token) (tokens : List Token) :
    state.outlook table (token :: tokens) =
      (match state.step table token with
        | .ok next => next.outlook table tokens
        | .error error => ⟨.error error, tokens, []⟩).after state.entered := by
  obtain ⟨stack, operand⟩ := state
  cases operand with
  | none => exact outlook_takeOperand stack token tokens
  | some operand =>
    simp only [step, entered, Reply.after_nil]
    cases hentry : table.binaryFor? token with
    | some entry =>
      have hgroup := grouped entry (Table.mem_of_binaryFor? hentry).2.1
      obtain ⟨next, hnext, houtlook⟩ :=
        outlook_takeOperator rooted hentry hgroup operand tokens
      rw [hnext, houtlook]
    | none =>
      have hstep : takeOperator table stack operand token = takeClosing stack operand token := by
        simp [takeOperator, hentry]
      rw [outlook_takeClosing rooted hentry operand tokens, hstep]

/-- At the end of the input, the whole stack is folded. -/
theorem outlook_fold {stack : List Frame} (rooted : Rooted stack) (operand : Expr) :
    outlook table ⟨stack, some operand⟩ [] = ⟨fold stack operand, [], []⟩ := by
  induction rooted generalizing operand with
  | root => simp [outlook, resume, Pending.resume, fold_cons, Pending.fill, Except.bind]
  | paren start _ _ =>
    simp [outlook, resume, Pending.resume, resume_error, fold_cons, Pending.fill, Except.bind]
  | operator threshold hop _ ih =>
    have hstops : Stops table threshold [] := trivial
    obtain ⟨filled, hfill, houtlook⟩ := exists_outlook_of_stops hop hstops _ operand
    rw [houtlook, ih filled, fold_cons, hfill]
    rfl

/-- At the end of the input, what was foretold is the result. -/
theorem outlook_nil {state : State} (rooted : Rooted state.stack) :
    state.outlook table [] = ⟨state.finish, [], state.entered⟩ := by
  obtain ⟨stack, operand⟩ := state
  cases operand with
  | none => simp [outlook, resume_error, finish, entered]
  | some operand => exact outlook_fold rooted operand

/-! ### Runs -/

/-- **A run ends as foretold.** -/
theorem run_eq_outlook (grouped : table.Grouped) (tokens : List Token) {state : State}
    (rooted : Rooted state.stack) :
    state.run table tokens = (state.outlook table tokens).result := by
  induction tokens generalizing state with
  | nil => rw [run, outlook_nil rooted]
  | cons token tokens ih =>
    rw [run, outlook_cons grouped rooted]
    cases hstep : state.step table token with
    | error error => rfl
    | ok next => exact ih (rooted.step grouped hstep)

end State

/-! ### Agreement -/

variable {table : Table}

/-- **With groups that keep their operators, the explicit stack agrees with recursion**, on the
tree or on the error. -/
theorem parse_eq_climbing (grouped : table.Grouped) (tokens : List Token) :
    parse table tokens = Climbing.parse table tokens := by
  obtain ⟨hresult, hrest⟩ := Climbing.expression_congr grouped.lt_base_iff tokens
  rw [parse, State.run_eq_outlook grouped tokens .root]
  simp only [State.outlook, State.initial, resume, top, Climbing.read_none, Climbing.parse,
    ← hresult, ← hrest]
  cases hread : (Climbing.expression table .base tokens).result with
  | error error => simp [Reply.andThen_of_error hread, hread]
  | ok expr =>
    rw [Reply.andThen_of_ok hread]
    cases (Climbing.expression table .base tokens).rest <;> rfl

/-- An operator joins its operands however loosely it holds them: the bottom frame waits lower
still, or is folded and was the whole input anyway. -/
theorem parse_binary {entry : BinaryEntry} (hentry : table.binary? entry.symbol = some entry) :
    parse table [.one, .sign entry.symbol, .one] =
      .ok (.binary entry.symbol (.literal 1) (.literal 1)) := by
  have hbinary := Table.binaryFor?_sign hentry
  by_cases hbase : entry.left < Power.base <;>
    simp [parse, State.run, State.initial, State.step, State.takeOperand, State.takeOperator,
      hbinary, above, notAbove, hbase, fold_cons, Pending.fill, State.finish, bind, Except.bind,
      pure, Except.pure]

/-- **The explicit stack and recursion agree exactly on tables whose groups keep their operators.**
For every built table, the two engines give the same tree or the same error on every list of tokens
if and only if no operator between operands holds looser than a group; nothing is asked of the
right powers and of the operators in front of operands. The standard table is built, and the engines
agree with it. -/
theorem climbing_eq_frames_iff :
    (∀ table : Table, table.Built →
      ((∀ tokens, Climbing.parse table tokens = parse table tokens) ↔
        ∀ entry ∈ table.binary, Power.group ≤ entry.left)) ∧
      Table.standard.Built ∧
      ∀ tokens, Climbing.parse .standard tokens = parse .standard tokens := by
  refine ⟨?_, Table.built_standard, ?_⟩
  · intro table built
    constructor
    · intro hagree entry hmem
      apply Int.not_lt.mp
      intro hloose
      have hentry := built.binary?_of_mem hmem
      have hprobe := hagree [.one, .sign entry.symbol, .one]
      rw [Climbing.parse_binary hentry, if_pos hloose, parse_binary hentry] at hprobe
      cases hprobe
    · intro grouped tokens
      exact (parse_eq_climbing grouped tokens).symm
  · intro tokens
    exact (parse_eq_climbing Table.grouped_standard tokens).symm

end Reckoner.Frames
