import Reckoner.Engine
import Reckoner.Expr.Eval
import Reckoner.Proofs.Reachable
import Reckoner.Proofs.RoundTrip

/-!
Every engine builds trees that its table can evaluate.

The operators of a tree come from the entries of the table, so evaluation with
the same table finds each of them again, in the place it stands in. No power of
the table takes part in this: a yard with powers that do not fit may join the
wrong operands, but only by operators that are registered.

* `Evaluates` — evaluation by the functions of a table alone. There is no rule for
  an operator that the table does not have.
* `Frames.over_of_parse`, `ShuntingYard.over_of_parse` — what waits on a stack is
  over the vocabulary of the table, step by step, and so is the tree in the end.
* `Engine.evalWith_of_parse` — hence evaluating a tree that was read gives a value,
  or an error that a function of the table has raised.
-/

namespace Reckoner

variable {table : Table}

/-- A computation that succeeds in two steps succeeds in each. -/
theorem exists_of_bind_eq_ok {ε α β : Type} {first : Except ε α} {next : α → Except ε β}
    {result : β} (h : first.bind next = .ok result) :
    ∃ middle, first = .ok middle ∧ next middle = .ok result := by
  cases first with
  | error error => cases h
  | ok middle => exact ⟨middle, rfl, h⟩

/-! ### Entries are found again -/

theorem Vocabulary.unary_ofTable {token : Token} {entry : UnaryEntry}
    (h : table.atom token = .ok (.operator entry)) : (ofTable table).unary entry.symbol := by
  obtain ⟨_, hentry⟩ := Table.atom_eq_operator_iff.mp h
  obtain ⟨_, hsymbol⟩ := Table.mem_of_unary? hentry
  exact ⟨entry, hsymbol ▸ hentry⟩

theorem Vocabulary.binary_ofTable {token : Token} {entry : BinaryEntry}
    (h : table.binaryFor? token = some entry) : (ofTable table).binary entry.symbol := by
  obtain ⟨_, hentry⟩ := Table.binaryFor?_eq_some_iff.mp h
  obtain ⟨_, hsymbol⟩ := Table.mem_of_binary? hentry
  exact ⟨entry, hsymbol ▸ hentry⟩

/-- An operand is a literal, and every literal is in the vocabulary of a table. -/
theorem Expr.over_of_atom {token : Token} {expr : Expr}
    (h : table.atom token = .ok (.operand expr)) : expr.Over (.ofTable table) := by
  obtain ⟨_, value, _, rfl⟩ := Table.atom_eq_operand_iff.mp h
  trivial

/-! ### Evaluation by the functions of a table -/

namespace Expr

/-- `Evaluates table expr result`: the functions of the table make this of the tree. Operands come
first, from left to right, and the first error ends the evaluation. -/
inductive Evaluates (table : Table) : Expr → Except Error Int64 → Prop where
  | literal (value : Int64) : Evaluates table (.literal value) (.ok value)
  | unary {operator operand a entry} :
      Evaluates table operand (.ok a) → table.unary? operator = some entry →
      Evaluates table (.unary operator operand) (ofOutcome (entry.apply a))
  | unaryError {operator operand error} :
      Evaluates table operand (.error error) →
      Evaluates table (.unary operator operand) (.error error)
  | binary {operator left right a b entry} :
      Evaluates table left (.ok a) → Evaluates table right (.ok b) →
      table.binary? operator = some entry →
      Evaluates table (.binary operator left right) (ofOutcome (entry.apply a b))
  | leftError {operator left right error} :
      Evaluates table left (.error error) →
      Evaluates table (.binary operator left right) (.error error)
  | rightError {operator left right a error} :
      Evaluates table left (.ok a) → Evaluates table right (.error error) →
      Evaluates table (.binary operator left right) (.error error)

/-- A tree over the vocabulary of the table is evaluated by its functions. -/
theorem Over.evaluates {expr : Expr} (h : expr.Over (.ofTable table)) :
    Evaluates table expr (expr.evalWith table) := by
  induction expr with
  | literal value => exact .literal value
  | unary operator operand ih =>
    obtain ⟨⟨entry, hentry⟩, hoperand⟩ := h
    have hrun := ih hoperand
    change Evaluates table _ ((operand.evalWith table).bind fun a => _)
    cases hvalue : operand.evalWith table with
    | error error =>
      rw [hvalue] at hrun
      exact .unaryError hrun
    | ok a =>
      rw [hvalue] at hrun
      simp only [Except.bind, hentry]
      exact .unary hrun hentry
  | binary operator left right ihLeft ihRight =>
    obtain ⟨⟨entry, hentry⟩, hleft, hright⟩ := h
    have hrunLeft := ihLeft hleft
    have hrunRight := ihRight hright
    change Evaluates table _ ((left.evalWith table).bind fun a =>
      (right.evalWith table).bind fun b => _)
    cases hvalueLeft : left.evalWith table with
    | error error =>
      rw [hvalueLeft] at hrunLeft
      exact .leftError hrunLeft
    | ok a =>
      rw [hvalueLeft] at hrunLeft
      cases hvalueRight : right.evalWith table with
      | error error =>
        rw [hvalueRight] at hrunRight
        exact .rightError hrunLeft hrunRight
      | ok b =>
        rw [hvalueRight] at hrunRight
        simp only [Except.bind, hentry]
        exact .binary hrunLeft hrunRight hentry

end Expr

/-- A function of the table gives an error of this kind on some operands. -/
def Table.Raises (table : Table) (kind : Error.Kind) : Prop :=
  (∃ entry ∈ table.unary, ∃ a, (entry.apply a).result = .error kind) ∨
    ∃ entry ∈ table.binary, ∃ a b, (entry.apply a b).result = .error kind

theorem Expr.ofOutcome_eq_error {outcome : Arithmetic.Outcome} {error : Error}
    (h : ofOutcome outcome = .error error) :
    ∃ kind, outcome.result = .error kind ∧ error = .unpositioned kind := by
  unfold ofOutcome at h
  split at h
  · cases h
  · next kind hresult =>
    cases h
    exact ⟨kind, hresult, rfl⟩

/-- An error of evaluation by the functions of a table is an error of one of them. -/
theorem Expr.Evaluates.raises {expr : Expr} {error : Error}
    (h : Evaluates table expr (.error error)) :
    ∃ kind, error = .unpositioned kind ∧ table.Raises kind := by
  generalize hresult : (.error error : Except Error Int64) = result at h
  induction h with
  | literal value => cases hresult
  | @unary operator operand a entry _ hentry _ =>
    obtain ⟨kind, hkind, rfl⟩ := ofOutcome_eq_error hresult.symm
    exact ⟨kind, rfl, .inl ⟨entry, (Table.mem_of_unary? hentry).1, a, hkind⟩⟩
  | unaryError _ ih => exact ih hresult
  | @binary operator left right a b entry _ _ hentry _ _ =>
    obtain ⟨kind, hkind, rfl⟩ := ofOutcome_eq_error hresult.symm
    exact ⟨kind, rfl, .inr ⟨entry, (Table.mem_of_binary? hentry).1, a, b, hkind⟩⟩
  | leftError _ ih => exact ih hresult
  | rightError _ _ _ ih => exact ih hresult

/-! ### The explicit stack -/

namespace Frames

def Pending.Over (words : Vocabulary) : Pending → Prop
  | root | paren _ => True
  | unary operator => words.unary operator
  | binary operator left => words.binary operator ∧ left.Over words

/-- Everything on the stack and the operand are over the vocabulary. -/
def State.Over (words : Vocabulary) (state : State) : Prop :=
  (∀ frame ∈ state.stack, frame.pending.Over words) ∧
    ∀ operand ∈ state.operand, operand.Over words

theorem over_of_fold {words : Vocabulary} {frames : List Frame}
    (hframes : ∀ frame ∈ frames, frame.pending.Over words) {operand expr : Expr}
    (hoperand : operand.Over words) (h : fold frames operand = .ok expr) : expr.Over words := by
  induction frames generalizing operand with
  | nil =>
    cases h
    exact hoperand
  | cons frame frames ih =>
    obtain ⟨threshold, pending⟩ := frame
    obtain ⟨hpending, hrest⟩ := List.forall_mem_cons.mp hframes
    rw [fold_cons] at h
    cases pending with
    | root => exact ih hrest hoperand h
    | paren start => cases h
    | unary operator =>
      have hfilled : (Expr.unary operator operand).Over words := ⟨hpending, hoperand⟩
      exact ih hrest hfilled h
    | binary operator left =>
      have hfilled : (Expr.binary operator left operand).Over words :=
        ⟨hpending.1, hpending.2, hoperand⟩
      exact ih hrest hfilled h

/-- A step adds only operators of the table. -/
theorem State.Over.step {state next : State} (h : state.Over (.ofTable table)) {token : Token}
    (hstep : state.step table token = .ok next) : next.Over (.ofTable table) := by
  obtain ⟨hstack, hoperand⟩ := h
  cases Step.of_step hstep with
  | operand hatom =>
    refine ⟨hstack, ?_⟩
    rintro _ ⟨⟩
    exact Expr.over_of_atom hatom
  | group _ => exact ⟨List.forall_mem_cons.mpr ⟨trivial, hstack⟩, nofun⟩
  | prefixed hatom =>
    exact ⟨List.forall_mem_cons.mpr ⟨Vocabulary.unary_ofTable hatom, hstack⟩, nofun⟩
  | infixed hentry hfold =>
    have hleft := over_of_fold
      (fun frame hmem => hstack frame ((List.takeWhile_sublist _).subset hmem))
      (hoperand _ rfl) hfold
    refine ⟨List.forall_mem_cons.mpr ⟨⟨Vocabulary.binary_ofTable hentry, hleft⟩, ?_⟩, nofun⟩
    intro frame hmem
    exact hstack frame ((List.dropWhile_suffix _).subset hmem)
  | closing _ hfold houtside _ =>
    have hinner := over_of_fold
      (fun frame hmem => hstack frame ((List.takeWhile_sublist _).subset hmem))
      (hoperand _ rfl) hfold
    refine ⟨?_, ?_⟩
    · intro frame hmem
      have hinside : frame ∈ outside _ := houtside ▸ List.mem_cons_of_mem _ hmem
      exact hstack frame ((List.dropWhile_suffix _).subset hinside)
    · rintro _ ⟨⟩
      exact hinner

theorem State.Over.run {tokens : List Token} {state : State} (h : state.Over (.ofTable table))
    {expr : Expr} (hrun : state.run table tokens = .ok expr) : expr.Over (.ofTable table) := by
  induction tokens generalizing state with
  | nil =>
    obtain ⟨stack, operand⟩ := state
    cases operand with
    | none => cases hrun
    | some operand => exact over_of_fold h.1 (h.2 _ rfl) hrun
  | cons token tokens ih =>
    rw [State.run_cons] at hrun
    obtain ⟨next, hstep, hrun⟩ := exists_of_bind_eq_ok hrun
    exact ih (h.step hstep) hrun

theorem over_of_parse {tokens : List Token} {expr : Expr} (h : parse table tokens = .ok expr) :
    expr.Over (.ofTable table) := by
  have hinitial : State.initial.Over (.ofTable table) := by
    refine ⟨?_, nofun⟩
    intro frame hmem
    cases List.mem_singleton.mp hmem
    trivial
  exact hinitial.run h

end Frames

/-! ### The shunting yard -/

namespace ShuntingYard

def Action.Over (words : Vocabulary) : Action → Prop
  | value expr => expr.Over words
  | unary operator => words.unary operator
  | binary operator => words.binary operator
  | paren _ => True

/-- Every finished tree and everything that waits is over the vocabulary. -/
structure State.Over (words : Vocabulary) (state : State) : Prop where
  values : ∀ expr ∈ state.values, expr.Over words
  waiting : ∀ pending ∈ state.waiting, pending.action.Over words

theorem over_of_perform {words : Vocabulary} {values finished : List Expr} {action : Action}
    (hvalues : ∀ expr ∈ values, expr.Over words) (haction : action.Over words)
    (h : perform values action = .ok finished) : ∀ expr ∈ finished, expr.Over words := by
  cases action with
  | value expr =>
    cases h
    exact List.forall_mem_cons.mpr ⟨haction, hvalues⟩
  | unary operator =>
    match values, h with
    | operand :: rest, h =>
      cases h
      obtain ⟨hoperand, hrest⟩ := List.forall_mem_cons.mp hvalues
      exact List.forall_mem_cons.mpr ⟨⟨haction, hoperand⟩, hrest⟩
  | binary operator =>
    match values, h with
    | right :: left :: rest, h =>
      cases h
      obtain ⟨hright, hvalues⟩ := List.forall_mem_cons.mp hvalues
      obtain ⟨hleft, hrest⟩ := List.forall_mem_cons.mp hvalues
      exact List.forall_mem_cons.mpr ⟨⟨haction, hleft, hright⟩, hrest⟩
  | paren start => cases h

theorem over_of_performAll {words : Vocabulary} {waiting : List Waiting}
    (hwaiting : ∀ pending ∈ waiting, pending.action.Over words) {values finished : List Expr}
    (hvalues : ∀ expr ∈ values, expr.Over words) (h : performAll waiting values = .ok finished) :
    ∀ expr ∈ finished, expr.Over words := by
  induction waiting generalizing values with
  | nil =>
    cases h
    exact hvalues
  | cons pending waiting ih =>
    obtain ⟨hpending, hwaiting⟩ := List.forall_mem_cons.mp hwaiting
    rw [performAll_cons] at h
    obtain ⟨next, hperform, h⟩ := exists_of_bind_eq_ok h
    exact ih hwaiting (over_of_perform hvalues hpending hperform) h

/-- What is added after sending on what waits above a power. -/
theorem State.Over.await {words : Vocabulary} {state next : State} (h : state.Over words)
    {power : Power} {pending : Waiting} {expectsOperand : Bool}
    (hawait : state.await power pending expectsOperand = .ok next)
    (hpending : pending.action.Over words) : next.Over words := by
  obtain ⟨finished, hperform, hnext⟩ := exists_of_bind_eq_ok hawait
  cases hnext
  refine ⟨over_of_performAll ?_ h.values hperform, List.forall_mem_cons.mpr ⟨hpending, ?_⟩⟩
  · intro other hmem
    exact h.waiting other ((List.takeWhile_sublist _).subset hmem)
  · intro other hmem
    exact h.waiting other ((List.dropWhile_suffix _).subset hmem)

theorem State.Over.takeOperand {state next : State} (h : state.Over (.ofTable table))
    {token : Token} (htake : state.takeOperand table token = .ok next) :
    next.Over (.ofTable table) := by
  obtain ⟨atom, hatom, htake⟩ := exists_of_bind_eq_ok htake
  cases atom with
  | operand expr => exact h.await htake (Expr.over_of_atom hatom)
  | group start =>
    cases htake
    exact ⟨h.values, List.forall_mem_cons.mpr ⟨trivial, h.waiting⟩⟩
  | operator entry => exact h.await htake (Vocabulary.unary_ofTable hatom)

theorem State.Over.takeClosing {words : Vocabulary} {state next : State} (h : state.Over words)
    {token : Token} (htake : state.takeClosing token = .ok next) : next.Over words := by
  obtain ⟨finished, hperform, htake⟩ := exists_of_bind_eq_ok htake
  have hfinished : ∀ expr ∈ finished, expr.Over words := by
    refine over_of_performAll ?_ h.values hperform
    intro pending hmem
    exact h.waiting pending ((List.takeWhile_sublist _).subset hmem)
  split at htake
  · cases htake
  · next mark below houtside =>
    split at htake <;> cases htake
    refine ⟨hfinished, ?_⟩
    intro pending hmem
    have hinside : pending ∈ outside state.waiting := houtside ▸ List.mem_cons_of_mem _ hmem
    exact h.waiting pending ((List.dropWhile_suffix _).subset hinside)

/-- A step adds only operators of the table. -/
theorem State.Over.step {state next : State} (h : state.Over (.ofTable table)) {token : Token}
    (hstep : state.step table token = .ok next) : next.Over (.ofTable table) := by
  unfold State.step at hstep
  split at hstep
  · exact h.takeOperand hstep
  · unfold State.takeOperator at hstep
    split at hstep
    · next entry hentry => exact h.await hstep (Vocabulary.binary_ofTable hentry)
    · exact h.takeClosing hstep

theorem State.Over.finish {words : Vocabulary} {state : State} (h : state.Over words) {expr : Expr}
    (hfinish : state.finish = .ok expr) : expr.Over words := by
  unfold State.finish at hfinish
  split at hfinish
  · cases hfinish
  · obtain ⟨finished, hperform, hfinish⟩ := exists_of_bind_eq_ok hfinish
    have hfinished := over_of_performAll h.waiting h.values hperform
    split at hfinish <;> cases hfinish
    exact hfinished expr List.mem_cons_self

theorem State.run_cons (table : Table) (state : State) (token : Token) (tokens : List Token) :
    state.run table (token :: tokens) = (state.step table token).bind (·.run table tokens) := by
  rw [run]
  cases state.step table token <;> rfl

theorem State.Over.run {tokens : List Token} {state : State} (h : state.Over (.ofTable table))
    {expr : Expr} (hrun : state.run table tokens = .ok expr) : expr.Over (.ofTable table) := by
  induction tokens generalizing state with
  | nil => exact h.finish hrun
  | cons token tokens ih =>
    rw [State.run_cons] at hrun
    obtain ⟨next, hstep, hrun⟩ := exists_of_bind_eq_ok hrun
    exact ih (h.step hstep) hrun

theorem over_of_parse {tokens : List Token} {expr : Expr} (h : parse table tokens = .ok expr) :
    expr.Over (.ofTable table) := by
  have hinitial : State.initial.Over (.ofTable table) := ⟨nofun, nofun⟩
  exact hinitial.run h

end ShuntingYard

/-! ### All engines -/

/-- Recursion reads its operators off the tokens, so they are those of the table. -/
theorem Climbing.over_of_parse {tokens : List Token} {expr : Expr}
    (h : parse table tokens = .ok expr) : expr.Over (.ofTable table) := by
  refine (parse_eq_ok_iff.mp h).over ?_ ?_ (fun _ _ _ _ => trivial) nofun
  · intro entry hmem
    exact Option.isSome_iff_exists.mp (List.find?_isSome.mpr ⟨entry, hmem, beq_self_eq_true _⟩)
  · intro entry hmem
    exact Option.isSome_iff_exists.mp (List.find?_isSome.mpr ⟨entry, hmem, beq_self_eq_true _⟩)

namespace Engine

/-- Every engine builds its trees from the operators of the table. -/
theorem over_of_parse {engine : Engine} {tokens : List Token} {expr : Expr}
    (h : engine.parse table tokens = .ok expr) : expr.Over (.ofTable table) := by
  cases engine with
  | climbing => exact Climbing.over_of_parse h
  | frames => exact Frames.over_of_parse h
  | shuntingYard => exact ShuntingYard.over_of_parse h

/-- **What an engine reads, its table evaluates.** Let any engine read any tokens with any table,
whatever its powers and functions. Then every operator of the tree is registered in the place it
stands in, evaluation with the table needs only the functions of the table, and it gives a value or
an error that one of them has raised. -/
theorem evalWith_of_parse {engine : Engine} {table : Table} {tokens : List Token} {expr : Expr}
    (h : engine.parse table tokens = .ok expr) :
    expr.Over (.ofTable table) ∧ expr.Evaluates table (expr.evalWith table) ∧
      ((∃ value, expr.evalWith table = .ok value) ∨
        ∃ kind, expr.evalWith table = .error (.unpositioned kind) ∧ table.Raises kind) := by
  have hover := over_of_parse h
  have hevaluates := hover.evaluates
  refine ⟨hover, hevaluates, ?_⟩
  cases hvalue : expr.evalWith table with
  | ok value => exact .inl ⟨value, rfl⟩
  | error error =>
    rw [hvalue] at hevaluates
    obtain ⟨kind, rfl, hraises⟩ := hevaluates.raises
    exact .inr ⟨kind, rfl, hraises⟩

/-- A table whose sign is too loose for the yard: it sends on a division that waits for it. -/
def hastySign : Table :=
  ((Table.empty.addBinary ⟨"/", 11, 12, Arithmetic.floorDivide⟩).addBinary
    ⟨"+", 2, 3, Arithmetic.add⟩).addUnary ⟨"-", 5, 13, Arithmetic.negate⟩

/-- With a hasty sign, the yard takes `1 + 0 / - 1` for `(1 / 0) + (- 1)`. The operands are mixed up,
but the operators are registered, and the division by zero is found by the table's own function. -/
theorem evalWith_hastySign :
    Engine.shuntingYard.parse hastySign
        [.one, .sign "+", ⟨.number, "0", ⟨2, 3⟩⟩, .sign "/", .sign "-", .one] =
      .ok (.binary "+" (.binary "/" (.literal 1) (.literal 0)) (.unary "-" (.literal 1))) ∧
    ∃ kind, Expr.evalWith hastySign
        (.binary "+" (.binary "/" (.literal 1) (.literal 0)) (.unary "-" (.literal 1))) =
      .error (.unpositioned kind) ∧ hastySign.Raises kind := by
  have hparse : Engine.shuntingYard.parse hastySign
        [.one, .sign "+", ⟨.number, "0", ⟨2, 3⟩⟩, .sign "/", .sign "-", .one] =
      .ok (.binary "+" (.binary "/" (.literal 1) (.literal 0)) (.unary "-" (.literal 1))) := by
    decide
  refine ⟨hparse, ?_⟩
  obtain ⟨_, _, ⟨value, hvalue⟩ | hraised⟩ := evalWith_of_parse hparse
  · cases hvalue
  · exact hraised

end Engine

end Reckoner
