import Reckoner.Proofs.Consumption
import Reckoner.Proofs.Viability

/-!
Where an error leaves the tokens.

An activation fails by itself, or because of one that it enters: an expression inside
it, or itself once more after its operand. The error then comes out through all the
activations in between, and none of them takes another token or gives one back.

* `Refuses`, `Enters` — the faults of an activation itself, and the activations whose
  errors it hands on.
* `Fails.of_reply`, `Fails.reply_eq` — the errors of recursion are the faults at the
  end of a chain of activations.
* `Enters.exists_consumed`, `Fails.ends_or_names` — the tokens that one activation of
  the chain takes, and those of the whole chain: all of them, or those up to the token
  that the error names.
* `expression_error_consumed` — the same, said of places in a list of tokens, with what
  is read after the error.
-/

namespace Reckoner

/-! ### Tokens named by errors -/

/-- The text that a cause carries, if any. -/
def Error.Kind.text? : Error.Kind → Option String
  | unrecognised text | unreadableNumber text => some text
  | unknownUnary operator | overflow operator | unknownOperator operator => some operator
  | unsupportedNode shape => some shape
  | invalidState detail => some detail
  | endOfInput | strayRightParen | unclosedLeftParen | expectedOperatorOrRightParen
  | expectedOperator | divisionByZero | negativeExponent | negativeShiftCount => none

namespace Climbing

open Frames (Blames)

variable {table : Table}

/-- The error blames the token and carries, if anything, its text. -/
structure Names (error : Error) (token : Token) : Prop where
  blames : Blames error token
  text : ∀ text, error.kind.text? = some text → text = token.text

/-- A token that stands for no operand is named by its error. -/
theorem Names.of_atom {token : Token} {error : Error} (h : table.atom token = .error error) :
    Names error token := by
  obtain ⟨kind, rfl, hfault⟩ := Table.exists_fault_of_atom h
  have hown : ∀ text, some token.text = some text → text = token.text := by
    rintro _ ⟨⟩
    rfl
  cases hfault with
  | number _ _ => exact ⟨.positioned nofun nofun, hown⟩
  | operator _ _ => exact ⟨.positioned nofun nofun, hown⟩
  | closeParen _ => exact ⟨.positioned nofun nofun, nofun⟩
  | invalid _ => exact ⟨.positioned nofun nofun, hown⟩

theorem Names.of_notInGroup (token : Token) : Names token.notInGroup token :=
  ⟨.positioned nofun nofun, nofun⟩

/-! ### Activations -/

/-- An activation: before its operand is read, or after that and about to climb. -/
structure Activation where
  threshold : Power
  operand : Option Expr
  tokens : List Token

def Activation.reply (table : Table) (activation : Activation) : Reply :=
  read table activation.threshold activation.operand activation.tokens

/-- `Refuses table activation error rest`: the activation finds a fault, and leaves `rest`. -/
inductive Refuses (table : Table) : Activation → Error → List Token → Prop where
  | missing {threshold} : Refuses table ⟨threshold, none, []⟩ .endOfInput []
  | atom {threshold token tokens error} :
      table.atom token = .error error →
      Refuses table ⟨threshold, none, token :: tokens⟩ error tokens
  | unclosed {threshold token tokens start inner} :
      table.atom token = .ok (.group start) →
      Reads table .group none tokens inner [] →
      Refuses table ⟨threshold, none, token :: tokens⟩ (.unclosed start) []
  | notInGroup {threshold token tokens start inner next rest} :
      table.atom token = .ok (.group start) →
      Reads table .group none tokens inner (next :: rest) →
      next.kind ≠ .closeParen →
      Refuses table ⟨threshold, none, token :: tokens⟩ next.notInGroup rest

/-- `Enters table outer inner`: an error of `inner` is one of `outer`. What `outer` reads before it
gets there is read with success. -/
inductive Enters (table : Table) : Activation → Activation → Prop where
  | operand {threshold token tokens first} :
      table.atom token = .ok (.operand first) →
      Enters table ⟨threshold, none, token :: tokens⟩ ⟨threshold, some first, tokens⟩
  | operator {threshold token tokens entry} :
      table.atom token = .ok (.operator entry) →
      Enters table ⟨threshold, none, token :: tokens⟩ ⟨entry.right, none, tokens⟩
  | afterOperator {threshold token tokens entry operand middle} :
      table.atom token = .ok (.operator entry) →
      Reads table entry.right none tokens operand middle →
      Enters table ⟨threshold, none, token :: tokens⟩
        ⟨threshold, some (.unary entry.symbol operand), middle⟩
  | group {threshold token tokens start} :
      table.atom token = .ok (.group start) →
      Enters table ⟨threshold, none, token :: tokens⟩ ⟨.group, none, tokens⟩
  | afterGroup {threshold token tokens start inner close middle} :
      table.atom token = .ok (.group start) →
      Reads table .group none tokens inner (close :: middle) →
      close.kind = .closeParen →
      Enters table ⟨threshold, none, token :: tokens⟩ ⟨threshold, some inner, middle⟩
  | right {threshold token tokens entry left} :
      table.binaryFor? token = some entry →
      threshold ≤ entry.left →
      Enters table ⟨threshold, some left, token :: tokens⟩ ⟨entry.right, none, tokens⟩
  | afterRight {threshold token tokens entry left right middle} :
      table.binaryFor? token = some entry →
      threshold ≤ entry.left →
      Reads table entry.right none tokens right middle →
      Enters table ⟨threshold, some left, token :: tokens⟩
        ⟨threshold, some (.binary entry.symbol left right), middle⟩

/-- `Fails table activation error rest`: the error is a fault of the activation itself or of one
that it enters, at any depth. -/
inductive Fails (table : Table) : Activation → Error → List Token → Prop where
  | here {activation error rest} :
      Refuses table activation error rest → Fails table activation error rest
  | inside {outer inner error rest} :
      Enters table outer inner → Fails table inner error rest → Fails table outer error rest

/-! ### Replies with an error -/

/-- Of two steps, the first fails or the second does. -/
theorem Reply.error_of_andThen {reply : Reply} {next : Expr → List Token → Reply} {error : Error}
    (h : (reply.andThen next).result = .error error) :
    reply.result = .error error ∨
      ∃ middle, reply.result = .ok middle ∧ (next middle reply.rest).result = .error error := by
  cases hreply : reply.result with
  | error found =>
    rw [andThen_of_error hreply, hreply] at h
    exact .inl h
  | ok middle =>
    rw [andThen_of_ok hreply] at h
    exact .inr ⟨middle, rfl, h⟩

/-- After a reading, the next step goes on with what was read and what was left. -/
theorem Reads.andThen_eq {threshold : Power} {tokens rest : List Token} {expr : Expr}
    (h : Reads table threshold none tokens expr rest) (next : Expr → List Token → Reply) :
    (expression table threshold tokens).andThen next =
      (next expr rest).after (expression table threshold tokens).thresholds := by
  obtain ⟨hok, hrest⟩ := h.read_eq
  rw [read_none] at hok hrest
  rw [Reply.andThen_of_ok hok, hrest]

/-- A fault is the reply. -/
theorem Refuses.reply_eq {activation : Activation} {error : Error} {rest : List Token}
    (h : Refuses table activation error rest) :
    (activation.reply table).result = .error error ∧ (activation.reply table).rest = rest := by
  cases h with
  | missing => simp [Activation.reply]
  | atom hatom => simp [Activation.reply, expression_cons, hatom]
  | unclosed hatom hinner => simp [Activation.reply, expression_cons, hatom, hinner.andThen_eq]
  | notInGroup hatom hinner hclose =>
    simp [Activation.reply, expression_cons, hatom, hinner.andThen_eq, hclose]

/-- **An activation hands errors on as they are**, with the tokens that they leave. -/
theorem Enters.reply_eq {outer inner : Activation} {error : Error} (h : Enters table outer inner)
    (herror : (inner.reply table).result = .error error) :
    (outer.reply table).result = .error error ∧
      (outer.reply table).rest = (inner.reply table).rest := by
  cases h with
  | operand hatom => simpa [Activation.reply, expression_cons, hatom] using herror
  | operator hatom =>
    simp only [Activation.reply, read_none] at herror ⊢
    simp [expression_cons, hatom, Reply.andThen_of_error herror, herror]
  | afterOperator hatom hoperand =>
    simpa [Activation.reply, expression_cons, hatom, hoperand.andThen_eq] using herror
  | group hatom =>
    simp only [Activation.reply, read_none] at herror ⊢
    simp [expression_cons, hatom, Reply.andThen_of_error herror, herror]
  | afterGroup hatom hinner hclose =>
    simpa [Activation.reply, expression_cons, hatom, hinner.andThen_eq, hclose] using herror
  | right hentry hle =>
    simp only [Activation.reply, read_none, read_some] at herror ⊢
    simp [climb_of_binary hentry hle, Reply.andThen_of_error herror, herror]
  | afterRight hentry hle hright =>
    simpa [Activation.reply, climb_of_binary hentry hle, hright.andThen_eq] using herror

/-- Whatever `Fails` relates is the reply. -/
theorem Fails.reply_eq {activation : Activation} {error : Error} {rest : List Token}
    (h : Fails table activation error rest) :
    (activation.reply table).result = .error error ∧ (activation.reply table).rest = rest := by
  induction h with
  | here hrefuses => exact hrefuses.reply_eq
  | inside henters _ ih =>
    obtain ⟨herror, hrest⟩ := henters.reply_eq ih.1
    exact ⟨herror, hrest.trans ih.2⟩

/-- An activation that fails finds a fault itself or enters one that fails. -/
theorem refuses_or_enters {activation : Activation} {error : Error}
    (h : (activation.reply table).result = .error error) :
    (∃ rest, Refuses table activation error rest) ∨
      ∃ inner, Enters table activation inner ∧ (inner.reply table).result = .error error := by
  obtain ⟨threshold, operand, tokens⟩ := activation
  match operand, tokens with
  | none, [] =>
    simp only [Activation.reply, read_none, expression_nil] at h
    cases h
    exact .inl ⟨[], .missing⟩
  | none, token :: tokens =>
    simp only [Activation.reply, read_none, expression_cons, Reply.result_after] at h
    cases hatom : table.atom token with
    | error found =>
      rw [hatom] at h
      cases h
      exact .inl ⟨tokens, .atom hatom⟩
    | ok atom =>
      cases atom with
      | operand first =>
        rw [hatom] at h
        exact .inr ⟨_, .operand hatom, h⟩
      | operator entry =>
        rw [hatom] at h
        rcases Reply.error_of_andThen h with hinner | ⟨operand, hok, hafter⟩
        · exact .inr ⟨_, .operator hatom, hinner⟩
        · exact .inr ⟨_, .afterOperator hatom (.of_read entry.right none tokens hok), hafter⟩
      | group start =>
        rw [hatom] at h
        rcases Reply.error_of_andThen h with hinner | ⟨inner, hok, hafter⟩
        · exact .inr ⟨_, .group hatom, hinner⟩
        · have hreads := Reads.of_read .group none tokens hok
          rw [read_none] at hreads
          cases hmiddle : (expression table .group tokens).rest with
          | nil =>
            rw [hmiddle] at hreads hafter
            cases hafter
            exact .inl ⟨[], .unclosed hatom hreads⟩
          | cons next middle =>
            rw [hmiddle] at hreads hafter
            by_cases hclose : next.kind = .closeParen
            · simp only [hclose, if_true] at hafter
              exact .inr ⟨_, .afterGroup hatom hreads hclose, hafter⟩
            · simp only [hclose, if_false] at hafter
              cases hafter
              exact .inl ⟨middle, .notInGroup hatom hreads hclose⟩
  | some left, [] => simp [Activation.reply] at h
  | some left, token :: tokens =>
    by_cases hstops : Stops table threshold (token :: tokens)
    · simp [Activation.reply, climb_of_stops hstops] at h
    · obtain ⟨entry, hentry, hle⟩ := exists_of_not_stops hstops
      rw [Activation.reply, read_some, climb_of_binary hentry hle] at h
      rcases Reply.error_of_andThen h with hinner | ⟨right, hok, hafter⟩
      · exact .inr ⟨_, .right hentry hle, hinner⟩
      · exact .inr ⟨_, .afterRight hentry hle (.of_read entry.right none tokens hok), hafter⟩

/-! ### What is consumed on the way -/

/-- An activation that enters another has taken tokens, and knows no more of those it leaves to it
than a reading does. -/
theorem Enters.exists_consumed {outer inner : Activation} (h : Enters table outer inner) :
    ∃ consumed, consumed ≠ [] ∧ outer.tokens = consumed ++ inner.tokens ∧
      ∀ more, StopsAlike table inner.tokens more →
        Enters table { outer with tokens := consumed ++ more } { inner with tokens := more } := by
  cases h with
  | @operand _ token _ _ hatom =>
    exact ⟨[token], nofun, rfl, fun _ _ => .operand hatom⟩
  | @operator _ token _ _ hatom =>
    exact ⟨[token], nofun, rfl, fun _ _ => .operator hatom⟩
  | @afterOperator _ token _ _ _ _ hatom hoperand =>
    obtain ⟨consumed, rfl, -, hmore⟩ := hoperand.exists_consumed
    refine ⟨token :: consumed, nofun, rfl, ?_⟩
    intro more halike
    exact .afterOperator hatom (hmore more halike)
  | @group _ token _ _ hatom =>
    exact ⟨[token], nofun, rfl, fun _ _ => .group hatom⟩
  | @afterGroup _ token _ _ _ close middle hatom hinner hclose =>
    obtain ⟨consumed, rfl, -, hmore⟩ := hinner.exists_consumed
    refine ⟨token :: (consumed ++ [close]), nofun, by simp, ?_⟩
    intro more _
    -- The group ends in front of its `)`, whatever comes after that.
    have hreads := hmore (close :: more) (.of_head? rfl)
    rw [List.cons_append, List.append_assoc]
    exact .afterGroup hatom hreads hclose
  | @right _ token _ _ _ hentry hle =>
    exact ⟨[token], nofun, rfl, fun _ _ => .right hentry hle⟩
  | @afterRight _ token _ _ _ _ _ hentry hle hright =>
    obtain ⟨consumed, rfl, -, hmore⟩ := hright.exists_consumed
    refine ⟨token :: consumed, nofun, rfl, ?_⟩
    intro more halike
    exact .afterRight hentry hle (hmore more halike)

theorem Enters.length_lt {outer inner : Activation} (h : Enters table outer inner) :
    inner.tokens.length < outer.tokens.length := by
  obtain ⟨consumed, hne, htokens, -⟩ := h.exists_consumed
  have hpos := List.length_pos_iff.mpr hne
  rw [htokens, List.length_append]
  omega

/-- Whatever error is the reply, `Fails` relates. The recursion is on the number of tokens left,
since each activation leaves fewer to the one it enters. -/
theorem Fails.of_reply (activation : Activation) {error : Error}
    (h : (activation.reply table).result = .error error) :
    Fails table activation error (activation.reply table).rest := by
  rcases refuses_or_enters h with ⟨rest, hrefuses⟩ | ⟨inner, henters, hinner⟩
  · rw [hrefuses.reply_eq.2]
    exact .here hrefuses
  · have hshorter := henters.length_lt
    rw [(henters.reply_eq hinner).2]
    exact .inside henters (of_reply inner hinner)
termination_by activation.tokens.length

/-- A fault is that all tokens are gone too early, or it lies in the last token that was taken. -/
theorem Refuses.ends_or_names {activation : Activation} {error : Error} {rest : List Token}
    (h : Refuses table activation error rest) :
    (error.kind = .endOfInput ∨ error.kind = .unclosedLeftParen) ∧ rest = [] ∨
      ∃ before token, activation.tokens = before ++ token :: rest ∧ Names error token ∧
        ∀ more, Refuses table { activation with tokens := before ++ token :: more } error more := by
  cases h with
  | missing => exact .inl ⟨.inl rfl, rfl⟩
  | @atom _ token _ _ hatom => exact .inr ⟨[], token, rfl, .of_atom hatom, fun _ => .atom hatom⟩
  | unclosed _ _ => exact .inl ⟨.inr rfl, rfl⟩
  | @notInGroup _ token _ _ _ next _ hatom hinner hclose =>
    obtain ⟨consumed, rfl, -, hmore⟩ := hinner.exists_consumed
    refine .inr ⟨token :: consumed, next, rfl, .of_notInGroup next, ?_⟩
    intro more
    exact .notInGroup hatom (hmore (next :: more) (.of_head? rfl)) hclose

/-- **An error comes out with the tokens after the one it names**, from any depth, and it would
with any other tokens in their place; unless it is that the tokens are gone too early. -/
theorem Fails.ends_or_names {activation : Activation} {error : Error} {rest : List Token}
    (h : Fails table activation error rest) :
    (error.kind = .endOfInput ∨ error.kind = .unclosedLeftParen) ∧ rest = [] ∨
      ∃ before token, activation.tokens = before ++ token :: rest ∧ Names error token ∧
        ∀ more, Fails table { activation with tokens := before ++ token :: more } error more := by
  induction h with
  | here hrefuses =>
    rcases hrefuses.ends_or_names with hends | ⟨before, token, htokens, hnames, hmore⟩
    · exact .inl hends
    · exact .inr ⟨before, token, htokens, hnames, fun more => .here (hmore more)⟩
  | @inside outer inner error rest henters _ ih =>
    rcases ih with hends | ⟨before, token, htokens, hnames, hmore⟩
    · exact .inl hends
    · obtain ⟨consumed, -, houter, halike⟩ := henters.exists_consumed
      refine .inr ⟨consumed ++ before, token, ?_, hnames, ?_⟩
      · rw [houter, htokens, List.append_assoc]
      · intro more
        -- The token itself stands between what was read before it and what follows.
        have htoken : StopsAlike table (token :: rest) (token :: more) := .of_head? rfl
        have hbefore := htoken.append before
        rw [← htokens] at hbefore
        rw [List.append_assoc]
        exact .inside (halike _ hbefore) (hmore more)

/-! ### Reading on after an error -/

/-- The results of reading expressions with the given thresholds one after the other, each from
where the one before it ended, with success or not. -/
def readEach (table : Table) : List Power → List Token → List (Except Error Expr)
  | [], _ => []
  | threshold :: thresholds, tokens =>
    let reply := expression table threshold tokens
    reply.result :: readEach table thresholds reply.rest

/-- At the end of the tokens there is nothing to read, any number of times. -/
theorem readEach_nil (table : Table) (thresholds : List Power) :
    readEach table thresholds [] = thresholds.map fun _ => .error .endOfInput := by
  induction thresholds with
  | nil => rfl
  | cons threshold thresholds ih => rw [readEach, expression_nil, ih, List.map_cons]

/-- The token after those taken from a place on, and the tokens up to it. -/
theorem places_of_drop_token {tokens before rest : List Token} {token : Token} {k : Nat}
    (h : tokens.drop k = before ++ token :: rest) :
    tokens[k + before.length]? = some token ∧
      tokens.drop (k + before.length + 1) = rest ∧
      ∀ more, (tokens.take (k + before.length + 1)).drop k ++ more = before ++ token :: more := by
  have hsplit : tokens.drop k = (before ++ [token]) ++ rest := by simp [h]
  obtain ⟨htake, hdrop, -⟩ := places_of_drop hsplit
  obtain ⟨-, -, hhead⟩ := places_of_drop h
  rw [List.length_append, List.length_singleton, ← Nat.add_assoc] at htake hdrop
  refine ⟨hhead, hdrop, ?_⟩
  intro more
  rw [htake, List.append_assoc, List.singleton_append]

/-- **An error leaves the tokens after the one it names.** Let reading an expression fail, with any
table and threshold and from any place `k` of a list of tokens. If an operand is missing at the end
or a group is not closed, no token is left, and whatever is read next misses its operand as well.
Every other error points at a token from place `k` on, carries, if anything, its text, and leaves
just the tokens after it, from which the next expressions are read. Nothing was seen of them: with
any others in their place the error is the same, and they are left. -/
theorem expression_error_consumed {table : Table} {threshold : Power} {tokens : List Token}
    {k : Nat} {error : Error}
    (h : (expression table threshold (tokens.drop k)).result = .error error) :
    (error.kind = .endOfInput ∨ error.kind = .unclosedLeftParen →
      (expression table threshold (tokens.drop k)).rest = [] ∧
        ∀ later, readEach table (threshold :: later) (tokens.drop k) =
          .error error :: later.map fun _ => .error .endOfInput) ∧
      (error.kind ≠ .endOfInput → error.kind ≠ .unclosedLeftParen →
        ∃ i token, k ≤ i ∧ tokens[i]? = some token ∧ error.position = some token.start ∧
          (∀ text, error.kind.text? = some text → text = token.text) ∧
          (expression table threshold (tokens.drop k)).rest = tokens.drop (i + 1) ∧
          (∀ later, readEach table (threshold :: later) (tokens.drop k) =
            .error error :: readEach table later (tokens.drop (i + 1))) ∧
          ∀ more,
            (expression table threshold ((tokens.take (i + 1)).drop k ++ more)).result =
                .error error ∧
              (expression table threshold ((tokens.take (i + 1)).drop k ++ more)).rest = more) := by
  have hfails := Fails.of_reply ⟨threshold, none, tokens.drop k⟩ h
  rcases hfails.ends_or_names with ⟨hends, hrest⟩ | ⟨before, token, htokens, hnames, hmore⟩
  · change (expression table threshold (tokens.drop k)).rest = [] at hrest
    constructor
    · intro _
      refine ⟨hrest, ?_⟩
      intro later
      rw [readEach, h, hrest, readEach_nil]
    · intro hend hopen
      exact (hends.elim hend hopen).elim
  · obtain ⟨hposition, hend, hopen⟩ := hnames.blames
    obtain ⟨htoken, hdrop, htake⟩ := places_of_drop_token htokens
    constructor
    · intro hends
      exact (hends.elim hend hopen).elim
    · intro _ _
      refine ⟨k + before.length, token, Nat.le_add_right k _, htoken, hposition, hnames.text,
        hdrop.symm, ?_, ?_⟩
      · intro later
        rw [readEach, h, hdrop]
        rfl
      · intro more
        rw [htake more]
        exact (hmore more).reply_eq

/-- The tokens of `7 -(1 * / 2)`. -/
def doubledOperator : List Token :=
  [⟨.number, "7", ⟨0, 1⟩⟩, ⟨.operator, "-", ⟨2, 3⟩⟩, ⟨.openParen, "(", ⟨3, 4⟩⟩,
    ⟨.number, "1", ⟨4, 5⟩⟩, ⟨.operator, "*", ⟨6, 7⟩⟩, ⟨.operator, "/", ⟨8, 9⟩⟩,
    ⟨.number, "2", ⟨10, 11⟩⟩, ⟨.closeParen, ")", ⟨11, 12⟩⟩]

/-- Read from its sign on, `7 -(1 * / 2)` fails at `/`, inside a product, a group and the sign, and
the next expression starts at `2`. -/
theorem error_consumed_doubledOperator :
    (expression .standard .group (doubledOperator.drop 1)).result =
        .error (.positioned 8 (.unknownUnary "/")) ∧
      (expression .standard .group (doubledOperator.drop 1)).rest = doubledOperator.drop 6 ∧
      ∀ later, readEach .standard (.group :: later) (doubledOperator.drop 1) =
        .error (.positioned 8 (.unknownUnary "/")) ::
          readEach .standard later (doubledOperator.drop 6) := by
  have hfails : Fails .standard ⟨.group, none, doubledOperator.drop 1⟩
      (.positioned 8 (.unknownUnary "/")) (doubledOperator.drop 6) :=
    .inside (.operator rfl) <| .inside (.group rfl) <| .inside (.operand rfl) <|
      .inside (.right rfl (by decide)) <| .here (.atom rfl)
  have herror := hfails.reply_eq.1
  obtain ⟨i, token, -, htoken, hposition, -, hrest, hlater, -⟩ :=
    (expression_error_consumed herror).2 nofun nofun
  -- No other token starts where the error points.
  have hplaces : ∀ j < 8, doubledOperator[j]?.map Token.start = some 8 → j = 5 := by decide
  have hlt : i < doubledOperator.length := (List.getElem?_eq_some_iff.mp htoken).1
  obtain rfl := hplaces i hlt (by rw [htoken]; exact hposition.symm)
  exact ⟨herror, hrest, hlater⟩

end Climbing

end Reckoner
