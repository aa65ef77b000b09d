import Reckoner.Engine.Climbing
import Reckoner.Proofs.Table

/-!
Successful readings of the recursive engine.

`expression` and `climb` are one activity in two phases: before and after the
operand on the left is there. `read` puts them together, with that operand as an
option. `Reads` is the relation of its successes, one rule for each way to go on,
so that facts about what was read are proved by induction on the reading.

* `reads_iff` — `read` succeeds exactly with what `Reads` relates.
* `Reads.stops` — a reading ends in front of a token that does not hold the
  expression at its threshold.
* `climb_congr` — climbing sees a threshold only through the operators on
  either side of it.
-/

namespace Reckoner.Climbing

/-! ### Replies -/

namespace Reply

@[simp] theorem after_nil (reply : Reply) : reply.after [] = reply := rfl

theorem andThen_of_ok {reply : Reply} {expr : Expr} (h : reply.result = .ok expr)
    (next : Expr → List Token → Reply) :
    reply.andThen next = (next expr reply.rest).after reply.thresholds := by
  simp [andThen, h]

theorem andThen_of_error {reply : Reply} {error : Error} (h : reply.result = .error error)
    (next : Expr → List Token → Reply) : reply.andThen next = reply := by
  simp [andThen, h]

@[simp] theorem andThen_ok (expr : Expr) (rest : List Token) (thresholds : List Power)
    (next : Expr → List Token → Reply) :
    andThen ⟨.ok expr, rest, thresholds⟩ next = (next expr rest).after thresholds := rfl

@[simp] theorem andThen_error (error : Error) (rest : List Token) (thresholds : List Power)
    (next : Expr → List Token → Reply) :
    andThen ⟨.error error, rest, thresholds⟩ next = ⟨.error error, rest, thresholds⟩ := rfl

/-- Activations before the first of two steps come before both. -/
theorem andThen_after (thresholds : List Power) (reply : Reply)
    (next : Expr → List Token → Reply) :
    (reply.after thresholds).andThen next = (reply.andThen next).after thresholds := by
  rcases reply with ⟨_ | expr, rest, entered⟩
  · rfl
  · simp [after]

/-- Two steps that succeed are two successes, the second from where the first ended. -/
theorem exists_of_andThen_ok {reply : Reply} {next : Expr → List Token → Reply} {expr : Expr}
    (h : (reply.andThen next).result = .ok expr) :
    ∃ middle, reply.result = .ok middle ∧ (next middle reply.rest).result = .ok expr ∧
      (reply.andThen next).rest = (next middle reply.rest).rest := by
  cases hreply : reply.result with
  | error error => simp [andThen_of_error hreply, hreply] at h
  | ok middle =>
    rw [andThen_of_ok hreply] at h ⊢
    exact ⟨middle, rfl, h, rfl⟩

end Reply

/-! ### Where climbing stops -/

/-- Climbing with the threshold stops in front of these tokens: the first of them, if any, is no
operator that reaches it. -/
def Stops (table : Table) (threshold : Power) : List Token → Prop
  | [] => True
  | token :: _ => ∀ entry, table.binaryFor? token = some entry → entry.left < threshold

theorem Stops.mono {table : Table} {low high : Power} {tokens : List Token} (hle : low ≤ high)
    (h : Stops table low tokens) : Stops table high tokens := by
  cases tokens with
  | nil => trivial
  | cons token tokens =>
    intro entry hentry
    exact Int.lt_of_lt_of_le (h entry hentry) hle

/-- A token of another kind than an operator stops climbing at any threshold. -/
theorem Stops.of_kind {table : Table} {token : Token} (hkind : token.kind ≠ .operator)
    (threshold : Power) (tokens : List Token) : Stops table threshold (token :: tokens) := by
  intro entry hentry
  exact absurd (Table.mem_of_binaryFor? hentry).1 hkind

theorem Stops.of_closeParen {table : Table} {token : Token} (hclose : token.kind = .closeParen)
    (threshold : Power) (tokens : List Token) : Stops table threshold (token :: tokens) :=
  .of_kind (by simp [hclose]) threshold tokens

/-- Climbing that does not stop goes on with an operator that reaches the threshold. -/
theorem exists_of_not_stops {table : Table} {threshold : Power} {token : Token}
    {tokens : List Token} (h : ¬ Stops table threshold (token :: tokens)) :
    ∃ entry, table.binaryFor? token = some entry ∧ threshold ≤ entry.left := by
  simp only [Stops, Classical.not_forall] at h
  obtain ⟨entry, hentry, hnot⟩ := h
  exact ⟨entry, hentry, Int.not_lt.mp hnot⟩

theorem climb_of_stops {table : Table} {threshold : Power} {tokens : List Token}
    (h : Stops table threshold tokens) (left : Expr) :
    climb table threshold left tokens = ⟨.ok left, tokens, []⟩ := by
  cases tokens with
  | nil => simp
  | cons token tokens =>
    rw [climb_cons]
    cases hentry : table.binaryFor? token with
    | none => rfl
    | some entry => simp [h entry hentry]

theorem climb_of_binary {table : Table} {threshold : Power} {token : Token} {entry : BinaryEntry}
    (hentry : table.binaryFor? token = some entry) (hle : threshold ≤ entry.left) (left : Expr)
    (tokens : List Token) :
    climb table threshold left (token :: tokens) =
      (expression table entry.right tokens).andThen fun right rest =>
        climb table threshold (.binary entry.symbol left right) rest := by
  have hnot : ¬ entry.left < threshold := Int.not_lt.mpr hle
  simp [climb_cons, hentry, hnot]

/-! ### Thresholds -/

/-- Climbing cannot tell two thresholds apart that lie between the same operators. -/
theorem climb_congr {table : Table} {low high : Power}
    (h : ∀ entry ∈ table.binary, entry.left < low ↔ entry.left < high) (left : Expr)
    (tokens : List Token) : climb table low left tokens = climb table high left tokens := by
  match tokens with
  | [] => simp
  | token :: tokens =>
    cases hentry : table.binaryFor? token with
    | none => simp [climb_cons, hentry]
    | some entry =>
      have hiff := h entry (Table.mem_of_binaryFor? hentry).2.1
      by_cases hloose : entry.left < low
      · simp [climb_cons, hentry, hloose, hiff.mp hloose]
      · have hloose' : ¬ entry.left < high := fun h' => hloose (hiff.mpr h')
        rw [climb_of_binary hentry (Int.not_lt.mp hloose),
          climb_of_binary hentry (Int.not_lt.mp hloose')]
        have hshorter := rest_expression_le table entry.right tokens
        cases hright : (expression table entry.right tokens).result with
        | error error => rw [Reply.andThen_of_error hright, Reply.andThen_of_error hright]
        | ok right =>
          rw [Reply.andThen_of_ok hright, Reply.andThen_of_ok hright, climb_congr h]
termination_by tokens.length
decreasing_by simp only [List.length_cons]; omega

/-- An expression records its own threshold and else sees it only through the operators on either
side of it. -/
theorem expression_congr {table : Table} {low high : Power}
    (h : ∀ entry ∈ table.binary, entry.left < low ↔ entry.left < high) (tokens : List Token) :
    (expression table low tokens).result = (expression table high tokens).result ∧
      (expression table low tokens).rest = (expression table high tokens).rest := by
  have hclimb : climb table low = climb table high := by
    funext left rest
    exact climb_congr h left rest
  cases tokens with
  | nil => simp
  | cons token tokens => simp [expression_cons, hclimb]

/-! ### Reading in one function -/

/-- Reads an expression, or goes on from the one that is already there. -/
def read (table : Table) (threshold : Power) : Option Expr → List Token → Reply
  | none, tokens => expression table threshold tokens
  | some left, tokens => climb table threshold left tokens

@[simp] theorem read_none (table : Table) (threshold : Power) (tokens : List Token) :
    read table threshold none tokens = expression table threshold tokens := rfl

@[simp] theorem read_some (table : Table) (threshold : Power) (left : Expr) (tokens : List Token) :
    read table threshold (some left) tokens = climb table threshold left tokens := rfl

/-! ### Successful readings -/

/-- `Reads table threshold operand tokens expr rest`: with the threshold, and going on from the
operand if there is one, `expr` is read from `tokens`, and `rest` is left. -/
inductive Reads (table : Table) : Power → Option Expr → List Token → Expr → List Token → Prop where
  | operand {threshold token tokens first expr rest} :
      table.atom token = .ok (.operand first) →
      Reads table threshold (some first) tokens expr rest →
      Reads table threshold none (token :: tokens) expr rest
  | operator {threshold token tokens entry operand middle expr rest} :
      table.atom token = .ok (.operator entry) →
      Reads table entry.right none tokens operand middle →
      Reads table threshold (some (.unary entry.symbol operand)) middle expr rest →
      Reads table threshold none (token :: tokens) expr rest
  | group {threshold token tokens start inner close middle expr rest} :
      table.atom token = .ok (.group start) →
      Reads table .group none tokens inner (close :: middle) →
      close.kind = .closeParen →
      Reads table threshold (some inner) middle expr rest →
      Reads table threshold none (token :: tokens) expr rest
  | stop {threshold tokens left} :
      Stops table threshold tokens →
      Reads table threshold (some left) tokens left tokens
  | binary {threshold token tokens entry left right middle expr rest} :
      table.binaryFor? token = some entry →
      threshold ≤ entry.left →
      Reads table entry.right none tokens right middle →
      Reads table threshold (some (.binary entry.symbol left right)) middle expr rest →
      Reads table threshold (some left) (token :: tokens) expr rest

variable {table : Table}

/-- A reading ends where climbing with its threshold stops. -/
theorem Reads.stops {threshold : Power} {operand : Option Expr} {tokens rest : List Token}
    {expr : Expr} (h : Reads table threshold operand tokens expr rest) :
    Stops table threshold rest := by
  induction h with
  | operand _ _ ih => exact ih
  | operator _ _ _ _ ih => exact ih
  | group _ _ _ _ _ ih => exact ih
  | stop hstops => exact hstops
  | binary _ _ _ _ _ ih => exact ih

/-- Whatever `Reads` relates, `read` finds. -/
theorem Reads.read_eq {threshold : Power} {operand : Option Expr} {tokens rest : List Token}
    {expr : Expr} (h : Reads table threshold operand tokens expr rest) :
    (read table threshold operand tokens).result = .ok expr ∧
      (read table threshold operand tokens).rest = rest := by
  induction h with
  | operand hatom _ ih => simpa [expression_cons, hatom] using ih
  | operator hatom _ _ ih ih' =>
    simp only [read_none, expression_cons, hatom] at ih ⊢
    rw [Reply.andThen_of_ok ih.1, ih.2]
    simpa using ih'
  | group hatom _ hclose _ ih ih' =>
    simp only [read_none, expression_cons, hatom] at ih ⊢
    rw [Reply.andThen_of_ok ih.1, ih.2]
    simpa [hclose] using ih'
  | stop hstops => simp [climb_of_stops hstops]
  | binary hentry hle _ _ ih ih' =>
    rw [read_some, climb_of_binary hentry hle]
    rw [read_none] at ih
    rw [Reply.andThen_of_ok ih.1, ih.2]
    simpa using ih'

/-- Whatever `read` finds, `Reads` relates. The recursion is on the number of tokens left, since
each activation goes on from where the one before it ended. -/
theorem Reads.of_read (threshold : Power) (operand : Option Expr) (tokens : List Token)
    {expr : Expr} (h : (read table threshold operand tokens).result = .ok expr) :
    Reads table threshold operand tokens expr (read table threshold operand tokens).rest := by
  match operand, tokens with
  | none, [] => simp at h
  | none, token :: tokens =>
    simp only [read_none, expression_cons, Reply.result_after, Reply.rest_after] at h ⊢
    cases hatom : table.atom token with
    | error error => simp [hatom] at h
    | ok atom =>
      cases atom with
      | operand first =>
        simp only [hatom] at h ⊢
        exact .operand hatom (of_read threshold (some first) tokens h)
      | operator entry =>
        simp only [hatom] at h ⊢
        obtain ⟨operand, hok, hok', hrest⟩ := Reply.exists_of_andThen_ok h
        have hshorter := rest_expression_le table entry.right tokens
        rw [hrest]
        exact .operator hatom (of_read entry.right none tokens hok)
          (of_read threshold (some _) (expression table entry.right tokens).rest hok')
      | group start =>
        simp only [hatom] at h ⊢
        obtain ⟨inner, hok, hok', hrest⟩ := Reply.exists_of_andThen_ok h
        have hinner := of_read .group none tokens hok
        rw [hrest]
        rw [read_none] at hinner
        cases hmiddle : (expression table .group tokens).rest with
        | nil => simp [hmiddle] at hok'
        | cons close middle =>
          have hshorter : middle.length < tokens.length := by
            have := rest_expression_le table .group tokens
            rwa [hmiddle] at this
          simp only [hmiddle] at hok' hinner ⊢
          by_cases hclose : close.kind = .closeParen
          · simp only [hclose, if_true] at hok' ⊢
            exact .group hatom hinner hclose (of_read threshold (some inner) middle hok')
          · simp [hclose] at hok'
  | some left, [] =>
    simp only [read_some, climb_nil] at h ⊢
    cases h
    exact .stop trivial
  | some left, token :: tokens =>
    by_cases hstops : Stops table threshold (token :: tokens)
    · rw [read_some, climb_of_stops hstops] at h ⊢
      cases h
      exact .stop hstops
    · obtain ⟨entry, hentry, hle⟩ := exists_of_not_stops hstops
      rw [read_some, climb_of_binary hentry hle] at h ⊢
      obtain ⟨right, hok, hok', hrest⟩ := Reply.exists_of_andThen_ok h
      have hshorter := rest_expression_le table entry.right tokens
      rw [hrest]
      exact .binary hentry hle (of_read entry.right none tokens hok)
        (of_read threshold (some _) (expression table entry.right tokens).rest hok')
termination_by tokens.length
decreasing_by all_goals simp only [List.length_cons] at *; omega

/-- **`Reads` is success of `read`.** -/
theorem reads_iff {threshold : Power} {operand : Option Expr} {tokens rest : List Token}
    {expr : Expr} :
    Reads table threshold operand tokens expr rest ↔
      (read table threshold operand tokens).result = .ok expr ∧
        (read table threshold operand tokens).rest = rest := by
  constructor
  · exact Reads.read_eq
  · rintro ⟨hok, rfl⟩
    exact .of_read threshold operand tokens hok

/-- The engine succeeds when one reading takes the whole input. -/
theorem parse_eq_ok_iff {tokens : List Token} {expr : Expr} :
    parse table tokens = .ok expr ↔ Reads table .group none tokens expr [] := by
  rw [reads_iff, read_none, parse]
  cases (expression table .group tokens).result with
  | error error => simp
  | ok read => cases (expression table .group tokens).rest <;> simp

/-! ### Probes -/

/-- An operator looser than a group is none at all: recursion expects an operator in its place. -/
theorem parse_binary {entry : BinaryEntry} (hentry : table.binary? entry.symbol = some entry) :
    parse table [.one, .sign entry.symbol, .one] =
      if entry.left < Power.group then .error (Token.sign entry.symbol).notAnOperator
      else .ok (.binary entry.symbol (.literal 1) (.literal 1)) := by
  have hbinary := Table.binaryFor?_sign hentry
  by_cases hloose : entry.left < Power.group <;>
    simp [parse, expression_cons, climb_cons, hbinary, hloose, Reply.after]

theorem parse_unary {entry : UnaryEntry} (hentry : table.unary? entry.symbol = some entry) :
    parse table [.sign entry.symbol, .one] = .ok (.unary entry.symbol (.literal 1)) := by
  simp [parse, expression_cons, Table.atom_sign hentry, Reply.after]

/-- An operator in front of nothing misses its operand, whatever waits for it. -/
theorem expression_unfinished {entry : UnaryEntry}
    (hentry : table.unary? entry.symbol = some entry) (threshold : Power) :
    expression table threshold [.sign entry.symbol] =
      ⟨.error .endOfInput, [], [threshold, entry.right]⟩ := by
  simp [expression_cons, Table.atom_sign hentry, Reply.after]

end Reckoner.Climbing
