import Mathlib.Data.List.Induction
import Reckoner.Proofs.Agreement.Frames

/-!
States of the explicit stack after some of the tokens.

`Reaches` relates the tokens that were taken, each without an error, to the state
they lead to. A list of tokens either leads to a state or gets stuck at one of its
tokens (`exists_reaches_or_stuck`); what one step keeps, every state reached has:

* `Reaches.rooted` — the root is at the bottom of the stack and nowhere else;
* `Reaches.unclosed` — the groups on the stack are the `(` without a matching `)`;
* `Reaches.awaitsOperand`, `Reaches.endsOperand` — whether an operand is expected
  shows in the last token.

`Stuck` lists the reasons for which a token cannot be taken.
-/

namespace Reckoner

/-! ### Matching parentheses -/

/-- The parentheses among the tokens match each other. -/
inductive Balanced : List Token → Prop where
  | nil : Balanced []
  | other {token rest} :
      token.kind ≠ .openParen → token.kind ≠ .closeParen → Balanced rest →
      Balanced (token :: rest)
  | group {opening inner closing rest} :
      opening.kind = .openParen → Balanced inner → closing.kind = .closeParen → Balanced rest →
      Balanced (opening :: (inner ++ closing :: rest))

theorem Balanced.append {first second : List Token} (h : Balanced first) (h' : Balanced second) :
    Balanced (first ++ second) := by
  induction h with
  | nil => exact h'
  | other hopen hclose _ ih => exact .other hopen hclose ih
  | group hopen hinner hclose _ _ ih =>
    rw [List.cons_append, List.append_assoc, List.cons_append]
    exact .group hopen hinner hclose ih

/-- `Unclosed tokens starts`: the `(` among the tokens that have no matching `)` start at these
offsets, the last of them first. -/
inductive Unclosed : List Token → List Nat → Prop where
  | none {tokens} : Balanced tokens → Unclosed tokens []
  | paren {before opening after starts} :
      Unclosed before starts → opening.kind = .openParen → Balanced after →
      Unclosed (before ++ opening :: after) (opening.start :: starts)

namespace Unclosed

variable {tokens : List Token} {starts : List Nat}

/-- Parentheses that match each other close nothing before them. -/
theorem append (h : Unclosed tokens starts) {more : List Token} (hmore : Balanced more) :
    Unclosed (tokens ++ more) starts := by
  cases h with
  | none hbalanced => exact .none (hbalanced.append hmore)
  | paren hbefore hopen hafter =>
    rw [List.append_assoc, List.cons_append]
    exact .paren hbefore hopen (hafter.append hmore)

theorem other (h : Unclosed tokens starts) {token : Token} (hopen : token.kind ≠ .openParen)
    (hclose : token.kind ≠ .closeParen) : Unclosed (tokens ++ [token]) starts :=
  h.append (.other hopen hclose .nil)

theorem opening (h : Unclosed tokens starts) {token : Token} (hopen : token.kind = .openParen) :
    Unclosed (tokens ++ [token]) (token.start :: starts) :=
  .paren h hopen .nil

/-- A `)` closes the last group that is still open. -/
theorem closing {start : Nat} (h : Unclosed tokens (start :: starts)) {token : Token}
    (hclose : token.kind = .closeParen) : Unclosed (tokens ++ [token]) starts := by
  cases h with
  | paren hbefore hopen hafter =>
    rw [List.append_assoc, List.cons_append]
    exact hbefore.append (.group hopen hafter hclose .nil)

end Unclosed

/-! ### The last token -/

/-- The tokens end where an operand has to follow. -/
def AwaitsOperand (tokens : List Token) : Prop :=
  tokens = [] ∨ ∃ last, tokens.getLast? = some last ∧
    (last.kind = .openParen ∨ last.kind = .operator)

def EndsOperand (tokens : List Token) : Prop :=
  ∃ last, tokens.getLast? = some last ∧ (last.kind = .number ∨ last.kind = .closeParen)

theorem AwaitsOperand.not_endsOperand {tokens : List Token} (h : AwaitsOperand tokens) :
    ¬ EndsOperand tokens := by
  rintro ⟨last, hlast, hkind⟩
  rcases h with rfl | ⟨other, hother, hkind'⟩
  · cases hlast
  · rw [hlast] at hother
    cases hother
    rcases hkind with hkind | hkind <;> simp [hkind] at hkind'

namespace Frames

variable {table : Table}

/-! ### Groups on the stack -/

/-- The offset of the `(` that a frame waits for the end of. -/
def Frame.start? (frame : Frame) : Option Nat :=
  match frame.pending with
  | .paren start => some start
  | _ => none

/-- The offsets of the open groups, the innermost first. -/
def starts (stack : List Frame) : List Nat :=
  stack.filterMap Frame.start?

/-- An operator opens no group. -/
theorem starts_operator (threshold : Power) {pending : Pending}
    (hop : pending.isOperator = true) (below : List Frame) :
    starts (⟨threshold, pending⟩ :: below) = starts below := by
  cases pending with
  | root => cases hop
  | paren start => cases hop
  | unary operator => rfl
  | binary operator left => rfl

/-- Folding succeeds only where no group is open. -/
theorem starts_of_fold {frames : List Frame} {operand expr : Expr}
    (h : fold frames operand = .ok expr) : starts frames = [] := by
  induction frames generalizing operand with
  | nil => rfl
  | cons frame frames ih =>
    obtain ⟨threshold, pending⟩ := frame
    rw [fold_cons] at h
    cases pending with
    | root => exact ih h
    | paren start => cases h
    | unary operator => exact ih h
    | binary operator left => exact ih h

/-- Folding the top of the stack leaves every open group. -/
theorem starts_eq_of_fold {p : Frame → Bool} {stack : List Frame} {operand expr : Expr}
    (h : fold (stack.takeWhile p) operand = .ok expr) :
    starts stack = starts (stack.dropWhile p) := by
  have hsplit : starts (stack.takeWhile p ++ stack.dropWhile p) =
      starts (stack.takeWhile p) ++ starts (stack.dropWhile p) := List.filterMap_append
  rwa [List.takeWhile_append_dropWhile, starts_of_fold h] at hsplit

/-- Folding fails at the innermost group. -/
theorem exists_starts_of_fold {frames : List Frame} {operand : Expr} {error : Error}
    (h : fold frames operand = .error error) :
    ∃ start rest, starts frames = start :: rest ∧ error = .unclosed start := by
  induction frames generalizing operand with
  | nil => cases h
  | cons frame frames ih =>
    obtain ⟨threshold, pending⟩ := frame
    rw [fold_cons] at h
    cases pending with
    | root => exact ih h
    | paren start =>
      cases h
      exact ⟨start, _, rfl, rfl⟩
    | unary operator => exact ih h
    | binary operator left => exact ih h

/-! ### Getting stuck -/

/-- Why a token cannot be taken on top of the stack. -/
inductive Stuck (table : Table) (token : Token) (stack : List Frame) : Error → Prop where
  | operand {kind} : table.Fault token kind → Stuck table token stack (.positioned token.start kind)
  | operator : table.binaryFor? token = none → starts stack = [] →
      Stuck table token stack token.notAnOperator
  | group : table.binaryFor? token = none → starts stack ≠ [] → token.kind ≠ .closeParen →
      Stuck table token stack token.notInGroup

/-- A token that closes nothing blames itself: outside all groups it should be an operator, inside
one an operator or a `)`. -/
theorem Stuck.of_takeClosing {stack : List Frame} (rooted : Rooted stack) {operand : Expr}
    {token : Token} {error : Error} (hentry : table.binaryFor? token = none)
    (h : State.takeClosing stack operand token = .error error) :
    Stuck table token stack error := by
  induction rooted generalizing operand with
  | root =>
    cases h
    exact .operator hentry rfl
  | paren start _ _ =>
    rw [State.takeClosing_paren] at h
    split at h
    · cases h
    · next hclose =>
      cases h
      exact .group hentry (List.cons_ne_nil _ _) hclose
  | @operator threshold pending below hop _ ih =>
    obtain ⟨filled, hfill, -⟩ := Pending.exists_fill hop operand
    have hstarts := starts_operator threshold hop below
    rw [State.takeClosing_fold hop hfill] at h
    cases ih h with
    | operand hfault => exact .operand hfault
    | operator hentry hnone => exact .operator hentry (hstarts.trans hnone)
    | group hentry hsome hclose => exact .group hentry (hstarts ▸ hsome) hclose

theorem Stuck.of_step (grouped : table.Grouped) {state : State} (rooted : Rooted state.stack)
    {token : Token} {error : Error} (h : state.step table token = .error error) :
    Stuck table token state.stack error := by
  obtain ⟨stack, operand⟩ := state
  cases operand with
  | none =>
    simp only [State.step, State.takeOperand] at h
    cases hatom : table.atom token with
    | error other =>
      rw [hatom] at h
      cases h
      obtain ⟨kind, rfl, hfault⟩ := Table.exists_fault_of_atom hatom
      exact .operand hfault
    | ok atom => cases atom <;> simp [hatom, bind, Except.bind, pure, Except.pure] at h
  | some operand =>
    simp only [State.step] at h
    cases hentry : table.binaryFor? token with
    | some entry =>
      -- An operator that holds at least as tightly as a group meets no open one.
      have hgroup := grouped entry (Table.mem_of_binaryFor? hentry).2.1
      obtain ⟨next, hnext, -⟩ := State.outlook_takeOperator rooted hentry hgroup operand []
      rw [hnext] at h
      cases h
    | none =>
      simp only [State.takeOperator, hentry] at h
      exact .of_takeClosing rooted hentry h

/-! ### Reaching -/

/-- `Reaches table tokens state`: the tokens lead from the state before the first of them to the
given one. -/
inductive Reaches (table : Table) : List Token → State → Prop where
  | initial : Reaches table [] .initial
  | step {tokens token state next} :
      Reaches table tokens state → state.step table token = .ok next →
      Reaches table (tokens ++ [token]) next

/-- Either all tokens can be taken, or there is one that cannot. -/
theorem exists_reaches_or_stuck (table : Table) (tokens : List Token) :
    (∃ state, Reaches table tokens state) ∨
      ∃ before token after state error, tokens = before ++ token :: after ∧
        Reaches table before state ∧ state.step table token = .error error := by
  induction tokens using List.reverseRecOn with
  | nil => exact .inl ⟨_, .initial⟩
  | append_singleton tokens token ih =>
    rcases ih with ⟨state, hreaches⟩ | ⟨before, other, after, state, error, rfl, hreaches, hstep⟩
    · cases hstep : state.step table token with
      | ok next => exact .inl ⟨next, hreaches.step hstep⟩
      | error error => exact .inr ⟨tokens, token, [], state, error, rfl, hreaches, hstep⟩
    · exact .inr ⟨before, other, after ++ [token], state, error, by simp, hreaches, hstep⟩

namespace Reaches

variable {tokens : List Token} {state : State}

/-- The rest of a run goes on from the state reached. -/
theorem parse_append (h : Reaches table tokens state) (more : List Token) :
    parse table (tokens ++ more) = state.run table more := by
  induction h generalizing more with
  | initial => rfl
  | step _ hstep ih => rw [List.append_assoc, ih, List.singleton_append, State.run, hstep]

/-- An input that has a tree leads to a state that is finished with it. -/
theorem exists_of_parse {expr : Expr} (h : parse table tokens = .ok expr) :
    ∃ state, Reaches table tokens state ∧ state.finish = .ok expr := by
  rcases exists_reaches_or_stuck table tokens with
    ⟨state, hreaches⟩ | ⟨before, token, after, state, error, rfl, hreaches, hstep⟩
  · have hfinish := hreaches.parse_append []
    rw [List.append_nil, h] at hfinish
    exact ⟨state, hreaches, hfinish.symm⟩
  · rw [hreaches.parse_append, State.run, hstep] at h
    cases h

theorem rooted (h : Reaches table tokens state) (grouped : table.Grouped) :
    Rooted state.stack := by
  induction h with
  | initial => exact .root
  | step _ hstep ih => exact ih.step grouped hstep

/-- The groups on the stack are the `(` that have no matching `)`. -/
theorem unclosed (h : Reaches table tokens state) : Unclosed tokens (starts state.stack) := by
  induction h with
  | initial => exact .none .nil
  | step _ hstep ih =>
    cases State.Step.of_step hstep with
    | operand hatom =>
      obtain ⟨hkind, -⟩ := Table.atom_eq_operand_iff.mp hatom
      exact ih.other (by simp [hkind]) (by simp [hkind])
    | group hatom =>
      obtain ⟨hkind, rfl⟩ := Table.atom_eq_group_iff.mp hatom
      exact ih.opening hkind
    | prefixed hatom =>
      obtain ⟨hkind, -⟩ := Table.atom_eq_operator_iff.mp hatom
      exact ih.other (by simp [hkind]) (by simp [hkind])
    | infixed hentry hfold =>
      obtain ⟨hkind, -⟩ := Table.binaryFor?_eq_some_iff.mp hentry
      rw [starts_eq_of_fold hfold] at ih
      exact ih.other (by simp [hkind]) (by simp [hkind])
    | closing _ hfold houtside hclose =>
      rw [starts_eq_of_fold hfold, ← outside, houtside] at ih
      exact ih.closing hclose

/-- Where an operand is expected, the last token says so. -/
theorem awaitsOperand (h : Reaches table tokens state) (hoperand : state.operand = none) :
    AwaitsOperand tokens := by
  cases h with
  | initial => exact .inl rfl
  | step _ hstep =>
    cases State.Step.of_step hstep with
    | operand _ => cases hoperand
    | group hatom =>
      exact .inr ⟨_, List.getLast?_concat, .inl (Table.atom_eq_group_iff.mp hatom).1⟩
    | prefixed hatom =>
      exact .inr ⟨_, List.getLast?_concat, .inr (Table.atom_eq_operator_iff.mp hatom).1⟩
    | infixed hentry _ =>
      exact .inr ⟨_, List.getLast?_concat, .inr (Table.binaryFor?_eq_some_iff.mp hentry).1⟩
    | closing _ _ _ _ => cases hoperand

/-- Where an operand was read, the last token is its end. -/
theorem endsOperand (h : Reaches table tokens state) {operand : Expr}
    (hoperand : state.operand = some operand) : EndsOperand tokens := by
  cases h with
  | initial => cases hoperand
  | step _ hstep =>
    cases State.Step.of_step hstep with
    | operand hatom =>
      exact ⟨_, List.getLast?_concat, .inl (Table.atom_eq_operand_iff.mp hatom).1⟩
    | group _ => cases hoperand
    | prefixed _ => cases hoperand
    | infixed _ _ => cases hoperand
    | closing _ _ _ hclose => exact ⟨_, List.getLast?_concat, .inr hclose⟩

end Reaches

end Frames

end Reckoner
