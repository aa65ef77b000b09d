import Reckoner.Proofs.Registered

/-!
Operands of the shunting yard, counted.

With powers that do not fit together, the yard performs actions in any order and
joins the wrong operands, so no relation to the input is left but a count. `supply`
is the number of trees there will be once everything that waits has been performed:
nothing where an operand is expected, and one after an operand.

* `length_of_performAll` — an action changes the number of finished trees by its
  gain, so performing what waits leaves the supply as it is.
* `State.Supplied.step`, `Leads.supplied` — a step keeps the count, hence every
  state that is reached has it.
* `State.starves_of_step`, `State.Supplied.starves_of_run` — an invalid state is
  found by an action that misses a tree, and nowhere else.
* `exists_of_final_values` — so one tree is left at the end, whatever the table.
-/

namespace Reckoner.ShuntingYard

variable {table : Table}

/-! ### What actions take and give -/

def Action.takes : Action → Nat
  | value _ | paren _ => 0
  | unary _ => 1
  | binary _ => 2

/-- What an action adds to the number of finished trees. -/
def Action.gain : Action → Int
  | value _ => 1
  | unary _ | paren _ => 0
  | binary _ => -1

def gains : List Waiting → Int
  | [] => 0
  | pending :: waiting => pending.action.gain + gains waiting

@[simp] theorem gains_nil : gains [] = 0 := rfl

@[simp] theorem gains_cons (pending : Waiting) (waiting : List Waiting) :
    gains (pending :: waiting) = pending.action.gain + gains waiting := rfl

theorem gains_append (first second : List Waiting) :
    gains (first ++ second) = gains first + gains second := by
  induction first with
  | nil => simp
  | cons pending first ih => rw [List.cons_append, gains_cons, gains_cons, ih, Int.add_assoc]

/-- Of what waits, some is performed and the rest goes on waiting. -/
theorem gains_takeWhile_add_dropWhile (p : Waiting → Bool) (waiting : List Waiting) :
    gains (waiting.takeWhile p) + gains (waiting.dropWhile p) = gains waiting := by
  rw [← gains_append, List.takeWhile_append_dropWhile]

theorem length_of_perform {values finished : List Expr} {action : Action}
    (h : perform values action = .ok finished) :
    (finished.length : Int) = values.length + action.gain := by
  cases action with
  | value expr =>
    cases h
    simp [Action.gain]
  | unary operator =>
    match values, h with
    | operand :: rest, h =>
      cases h
      simp [Action.gain]
  | binary operator =>
    match values, h with
    | right :: left :: rest, h =>
      cases h
      simp only [List.length_cons, Action.gain]
      omega
  | paren start => cases h

/-- Performing actions changes the number of finished trees by their gains. -/
theorem length_of_performAll {waiting : List Waiting} {values finished : List Expr}
    (h : performAll waiting values = .ok finished) :
    (finished.length : Int) = values.length + gains waiting := by
  induction waiting generalizing values with
  | nil =>
    cases h
    simp
  | cons pending waiting ih =>
    rw [performAll_cons] at h
    obtain ⟨next, hperform, h⟩ := exists_of_bind_eq_ok h
    rw [ih h, length_of_perform hperform, gains_cons, Int.add_assoc]

/-! ### The supply of a state -/

/-- The number of finished trees once everything that waits has been performed. -/
def State.supply (state : State) : Int :=
  state.values.length + gains state.waiting

@[simp] theorem State.supply_mk (values : List Expr) (waiting : List Waiting) (expects : Bool) :
    supply ⟨values, waiting, expects⟩ = values.length + gains waiting := rfl

/-- There is one tree after an operand, and none where an operand is expected. -/
def State.Supplied (state : State) : Prop :=
  state.supply = if state.expectsOperand then 0 else 1

theorem State.supplied_initial : State.initial.Supplied := rfl

/-- Performing the actions on top changes what is finished and what waits, not the supply. -/
theorem supply_of_performAll {p : Waiting → Bool} {state : State} {finished : List Expr}
    (h : performAll (state.waiting.takeWhile p) state.values = .ok finished) :
    finished.length + gains (state.waiting.dropWhile p) = state.supply := by
  rw [length_of_performAll h, Int.add_assoc, gains_takeWhile_add_dropWhile, State.supply]

namespace State

/-- An action that is added adds its gain. -/
theorem supply_await {state next : State} {power : Power} {pending : Waiting}
    {expectsOperand : Bool} (h : state.await power pending expectsOperand = .ok next) :
    next.supply = state.supply + pending.action.gain ∧ next.expectsOperand = expectsOperand := by
  obtain ⟨finished, hperform, hnext⟩ := exists_of_bind_eq_ok h
  cases hnext
  have hkept := supply_of_performAll hperform
  refine ⟨?_, rfl⟩
  rw [supply_mk, gains_cons, notAbove, ← hkept]
  omega

theorem supply_takeOperand {state next : State} {token : Token}
    (h : state.takeOperand table token = .ok next) :
    next.supply = state.supply + if next.expectsOperand then 0 else 1 := by
  obtain ⟨atom, -, h⟩ := exists_of_bind_eq_ok h
  cases atom with
  | operand expr =>
    obtain ⟨hsupply, hexpects⟩ := supply_await h
    rw [hsupply, hexpects]
    rfl
  | group start =>
    cases h
    simp [supply, Action.gain]
  | operator entry =>
    obtain ⟨hsupply, hexpects⟩ := supply_await h
    rw [hsupply, hexpects]
    rfl

/-- A `)` takes away the mark of a group, which adds nothing. -/
theorem supply_takeClosing {state next : State} {token : Token}
    (h : state.takeClosing token = .ok next) :
    next.supply = state.supply ∧ next.expectsOperand = false := by
  obtain ⟨finished, hperform, h⟩ := exists_of_bind_eq_ok h
  have hkept := supply_of_performAll hperform
  split at h
  · cases h
  · next mark below houtside =>
    split at h <;> cases h
    have hparen := List.head?_dropWhile_not (fun pending => !pending.action.isParen) state.waiting
    rw [← outside, houtside] at hparen hkept
    refine ⟨?_, rfl⟩
    rw [← hkept, gains_cons]
    obtain ⟨threshold, action⟩ := mark
    cases action with
    | paren start => simp [Action.gain]
    | value expr => cases hparen
    | unary operator => cases hparen
    | binary operator => cases hparen

/-- A step keeps the count: an operand adds a tree, and an operator between operands takes one. -/
theorem Supplied.step {state next : State} (h : state.Supplied) {token : Token}
    (hstep : state.step table token = .ok next) : next.Supplied := by
  unfold Supplied at h ⊢
  unfold State.step at hstep
  split at hstep
  · next hexpects =>
    rw [if_pos hexpects] at h
    rw [supply_takeOperand hstep, h, Int.zero_add]
  · next hexpects =>
    rw [if_neg hexpects] at h
    unfold takeOperator at hstep
    split at hstep
    · obtain ⟨hsupply, hexpects⟩ := supply_await hstep
      rw [hsupply, hexpects, h]
      rfl
    · obtain ⟨hsupply, hexpects⟩ := supply_takeClosing hstep
      rw [hsupply, hexpects, h]
      rfl

/-- After an operand, performing everything that waits leaves exactly one tree. -/
theorem Supplied.exists_of_performAll {state : State} (h : state.Supplied)
    (hexpects : state.expectsOperand = false) {values : List Expr}
    (hperform : performAll state.waiting state.values = .ok values) : ∃ expr, values = [expr] := by
  have hlength : (values.length : Int) = 1 := by
    rw [length_of_performAll hperform, ← supply, h, hexpects]
    rfl
  exact List.length_eq_one_iff.mp (by exact_mod_cast hlength)

end State

/-! ### Reaching -/

/-- All tokens are taken, and lead from the first state to the second. -/
def Leads (table : Table) (state : State) (tokens : List Token) (last : State) : Prop :=
  tokens.foldlM (State.step table) state = .ok last

theorem Leads.supplied {tokens : List Token} {state last : State}
    (h : Leads table state tokens last) (hsupplied : state.Supplied) : last.Supplied := by
  induction tokens generalizing state with
  | nil =>
    cases h
    exact hsupplied
  | cons token tokens ih =>
    obtain ⟨next, hstep, hrest⟩ := exists_of_bind_eq_ok h
    exact ih hrest (hsupplied.step hstep)

/-! ### Missing trees -/

/-- The last of the events is an action that misses a tree. -/
def Starves (events : List Event) : Prop :=
  ∃ event, events.getLast? = some event ∧ event.values < event.action.takes

theorem Starves.append {events : List Event} (h : Starves events) (earlier : List Event) :
    Starves (earlier ++ events) := by
  obtain ⟨event, hlast, hmisses⟩ := h
  exact ⟨event, by simp [hlast], hmisses⟩

theorem lt_takes_of_perform {values : List Expr} {action : Action} {error : Error} {detail : String}
    (h : perform values action = .error error) (hkind : error.kind = .invalidState detail) :
    error = underflow ∧ values.length < action.takes := by
  cases action with
  | value expr => cases h
  | unary operator =>
    match values, h with
    | [], h =>
      cases h
      exact ⟨rfl, Nat.one_pos⟩
  | binary operator =>
    match values, h with
    | [], h =>
      cases h
      exact ⟨rfl, Nat.two_pos⟩
    | [_], h =>
      cases h
      exact ⟨rfl, Nat.one_lt_two⟩
  | paren start =>
    cases h
    cases hkind

/-- Performing actions finds an invalid state at an action that misses a tree. -/
theorem starves_of_performAll {waiting : List Waiting} {values : List Expr} {error : Error}
    {detail : String} (h : performAll waiting values = .error error)
    (hkind : error.kind = .invalidState detail) :
    error = underflow ∧ Starves (performEvents waiting values) := by
  induction waiting generalizing values with
  | nil => cases h
  | cons pending waiting ih =>
    rw [performAll_cons] at h
    cases hperform : perform values pending.action with
    | error found =>
      rw [hperform] at h
      cases h
      obtain ⟨hunderflow, hmisses⟩ := lt_takes_of_perform hperform hkind
      exact ⟨hunderflow, ⟨pending.action, values.length⟩, by simp [performEvents, hperform],
        hmisses⟩
    | ok next =>
      rw [hperform] at h
      obtain ⟨hunderflow, hstarves⟩ := ih h
      refine ⟨hunderflow, ?_⟩
      simp only [performEvents, hperform]
      exact hstarves.append [_]

namespace State

theorem performAll_of_await_error {state : State} {power : Power} {pending : Waiting}
    {expectsOperand : Bool} {error : Error}
    (h : state.await power pending expectsOperand = .error error) :
    performAll (above power state.waiting) state.values = .error error := by
  unfold await at h
  cases hperform : performAll (above power state.waiting) state.values with
  | error found =>
    rw [hperform] at h
    cases h
    rfl
  | ok finished =>
    rw [hperform] at h
    cases h

/-- A token is found to leave an invalid state only by an action that it sends on. -/
theorem starves_of_step {state : State} {token : Token} {error : Error} {detail : String}
    (h : state.step table token = .error error) (hkind : error.kind = .invalidState detail) :
    error = underflow ∧ Starves (performEvents (state.sentOn table token) state.values) := by
  unfold step at h
  split at h
  · next hexpects =>
    unfold takeOperand at h
    cases hatom : table.atom token with
    | error found =>
      rw [hatom] at h
      cases h
      have hreading := Table.ofReading_of_atom hatom
      rw [hkind] at hreading
      cases hreading
    | ok atom =>
      rw [hatom] at h
      cases atom with
      | operand expr =>
        simp only [sentOn, hexpects, if_true, hatom]
        exact starves_of_performAll (performAll_of_await_error h) hkind
      | group start => cases h
      | operator entry =>
        simp only [sentOn, hexpects, if_true, hatom]
        exact starves_of_performAll (performAll_of_await_error h) hkind
  · next hexpects =>
    unfold takeOperator at h
    split at h
    · next entry hentry =>
      simp only [sentOn, hexpects, hentry]
      exact starves_of_performAll (performAll_of_await_error h) hkind
    · next hentry =>
      simp only [sentOn, hexpects, hentry]
      unfold takeClosing at h
      cases hperform : performAll (group state.waiting) state.values with
      | error found =>
        rw [hperform] at h
        cases h
        exact starves_of_performAll hperform hkind
      | ok finished =>
        simp only [hperform, bind, Except.bind] at h
        split at h
        · cases h
          cases hkind
        · split at h <;> cases h
          cases hkind

/-- At the end nothing is missing and nothing left over, so only an action can fail. -/
theorem Supplied.starves_of_finish {state : State} (hsupplied : state.Supplied) {error : Error}
    {detail : String} (h : state.finish = .error error)
    (hkind : error.kind = .invalidState detail) :
    error = underflow ∧ Starves (state.runEvents table []) := by
  unfold finish at h
  split at h
  · cases h
    cases hkind
  · next hexpects =>
    simp only [runEvents, hexpects]
    cases hperform : performAll state.waiting state.values with
    | error found =>
      rw [hperform] at h
      cases h
      exact starves_of_performAll hperform hkind
    | ok values =>
      obtain ⟨expr, rfl⟩ := hsupplied.exists_of_performAll (by simpa using hexpects) hperform
      rw [hperform] at h
      cases h

theorem Supplied.starves_of_run {tokens : List Token} {state : State} (hsupplied : state.Supplied)
    {error : Error} {detail : String} (h : state.run table tokens = .error error)
    (hkind : error.kind = .invalidState detail) :
    error = underflow ∧ Starves (state.runEvents table tokens) := by
  induction tokens generalizing state with
  | nil => exact hsupplied.starves_of_finish h hkind
  | cons token tokens ih =>
    rw [run_cons] at h
    cases hstep : state.step table token with
    | error found =>
      rw [hstep] at h
      cases h
      simp only [runEvents, hstep, List.append_nil]
      exact starves_of_step hstep hkind
    | ok next =>
      rw [hstep] at h
      obtain ⟨hunderflow, hstarves⟩ := ih (hsupplied.step hstep) h
      simp only [runEvents, hstep]
      exact ⟨hunderflow, hstarves.append _⟩

end State

/-- **One tree is left at the end**, whatever the powers of the table. When all tokens are taken and
all actions performed, exactly one tree is finished. So an invalid state is always an underflow, and
the last action that the yard performs is an operator that misses an operand. -/
theorem exists_of_final_values (table : Table) (tokens : List Token) :
    (∀ state values, Leads table .initial tokens state → state.expectsOperand = false →
        performAll state.waiting state.values = .ok values → ∃ expr, values = [expr]) ∧
      ∀ error detail, parse table tokens = .error error → error.kind = .invalidState detail →
        error = underflow ∧ Starves (events table tokens) := by
  constructor
  · intro state values hleads hexpects hperform
    exact (hleads.supplied State.supplied_initial).exists_of_performAll hexpects hperform
  · intro error detail hparse hkind
    exact State.supplied_initial.starves_of_run hparse hkind

/-- With a hasty sign, the yard performs the division of `1 / - 1` before its second operand is
there, and mixes up the operands of `1 + 0 / - 1`, of which one tree is left all the same. -/
theorem final_values_hastySign :
    (parse Engine.hastySign [.one, .sign "/", .sign "-", .one] = .error underflow ∧
        Starves (events Engine.hastySign [.one, .sign "/", .sign "-", .one])) ∧
      ∃ state values, Leads Engine.hastySign .initial
          [.one, .sign "+", ⟨.number, "0", ⟨2, 3⟩⟩, .sign "/", .sign "-", .one] state ∧
        performAll state.waiting state.values = .ok values ∧ ∃ expr, values = [expr] := by
  have hparse : parse Engine.hastySign [.one, .sign "/", .sign "-", .one] = .error underflow := by
    decide
  refine ⟨⟨hparse, ((exists_of_final_values _ _).2 _ _ hparse rfl).2⟩, ?_⟩
  have hleads : Leads Engine.hastySign .initial
      [.one, .sign "+", ⟨.number, "0", ⟨2, 3⟩⟩, .sign "/", .sign "-", .one]
      ⟨[.binary "/" (.literal 1) (.literal 0)],
        [⟨.primary, .value (.literal 1)⟩, ⟨13, .unary "-"⟩, ⟨3, .binary "+"⟩], false⟩ := by
    unfold Leads
    decide
  exact ⟨_, _, hleads, rfl, (exists_of_final_values _ _).1 _ _ hleads rfl rfl⟩

end Reckoner.ShuntingYard
