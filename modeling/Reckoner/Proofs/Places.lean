import Reckoner.Proofs.Source

/-!
Places of tokens.

Reading keeps the offsets of tokens to point at them and for nothing else: moving
the tokens to other places moves the place an error points at, and changes no tree.

* `Frames.State.step_place`, `Frames.State.run_place` — a step, hence a run, commutes
  with moving tokens and state.
* `Engine.parseSource_eq_readWords` — so a source text is read through the kinds and
  texts of its tokens alone, as if their indices were their offsets, and the
  offsets come in at the end.
* `Corresponds.of_words` — hence texts with the same kinds and texts of tokens have
  the same tree, or errors of the same kind at tokens with the same index.
-/

namespace Reckoner

/-! ### Moving -/

/-- The token at another place, which is given by its offset. -/
def Token.place (spans : Nat → Span) (token : Token) : Token :=
  { token with span := spans token.start }

def Error.place (spans : Nat → Span) (error : Error) : Error :=
  { error with position := error.position.map fun start => (spans start).start }

def Atom.place (spans : Nat → Span) : Atom → Atom
  | .operand expr => .operand expr
  | .group start => .group (spans start).start
  | .operator entry => .operator entry

variable {table : Table} {spans : Nat → Span}

/-- The role of a token does not depend on its place. -/
theorem Table.atom_place (token : Token) :
    table.atom (token.place spans) =
      ((table.atom token).map (Atom.place spans)).mapError (Error.place spans) := by
  cases hkind : token.kind with
  | number =>
    simp only [atom, Token.literal, Token.place, hkind]
    cases (Text.readInt? token.text).bind Arithmetic.narrow? <;> rfl
  | operator =>
    simp only [atom, unaryFor, Token.place, hkind]
    cases table.unary? token.text <;> rfl
  | openParen | closeParen | invalid =>
    simp only [atom, Token.notAnOperand, Token.place, hkind]
    rfl

theorem Table.binaryFor?_place (token : Token) :
    table.binaryFor? (token.place spans) = table.binaryFor? token := rfl

/-! ### Reading moved tokens -/

namespace Frames

def Pending.place (spans : Nat → Span) : Pending → Pending
  | .paren start => .paren (spans start).start
  | .root => .root
  | .unary operator => .unary operator
  | .binary operator left => .binary operator left

def Frame.place (spans : Nat → Span) (frame : Frame) : Frame :=
  { frame with pending := frame.pending.place spans }

theorem isOperator_comp_place :
    (fun frame : Frame => frame.pending.isOperator) ∘ Frame.place spans =
      fun frame => frame.pending.isOperator := by
  funext ⟨threshold, pending⟩
  cases pending <;> rfl

theorem fold_place (frames : List Frame) (operand : Expr) :
    fold (frames.map (Frame.place spans)) operand =
      (fold frames operand).mapError (Error.place spans) := by
  induction frames generalizing operand with
  | nil => rfl
  | cons frame frames ih =>
    obtain ⟨threshold, pending⟩ := frame
    rw [List.map_cons, fold_cons, fold_cons]
    cases pending with
    | root => exact ih operand
    | paren start => rfl
    | unary operator => exact ih (.unary operator operand)
    | binary operator left => exact ih (.binary operator left operand)

theorem group_place (stack : List Frame) :
    group (stack.map (Frame.place spans)) = (group stack).map (Frame.place spans) := by
  rw [group, List.takeWhile_map, isOperator_comp_place, group]

theorem outside_place (stack : List Frame) :
    outside (stack.map (Frame.place spans)) = (outside stack).map (Frame.place spans) := by
  rw [outside, List.dropWhile_map, isOperator_comp_place, outside]

namespace State

def place (spans : Nat → Span) (state : State) : State :=
  { state with stack := state.stack.map (Frame.place spans) }

theorem takeOperand_place (stack : List Frame) (token : Token) :
    takeOperand table (stack.map (Frame.place spans)) (token.place spans) =
      ((takeOperand table stack token).map (place spans)).mapError (Error.place spans) := by
  rw [takeOperand, takeOperand, Table.atom_place]
  cases table.atom token with
  | error error => rfl
  | ok atom => cases atom <;> rfl

theorem takeClosing_place (stack : List Frame) (operand : Expr) (token : Token) :
    takeClosing (stack.map (Frame.place spans)) operand (token.place spans) =
      ((takeClosing stack operand token).map (place spans)).mapError (Error.place spans) := by
  rw [takeClosing, takeClosing, group_place, outside_place, fold_place]
  cases fold (Frames.group stack) operand with
  | error error => rfl
  | ok inner =>
    cases outside stack with
    | nil => rfl
    | cons frame below =>
      obtain ⟨threshold, pending⟩ := frame
      cases pending with
      | paren start =>
        change (if token.kind = .closeParen then _ else _) =
          ((if token.kind = Token.Kind.closeParen then _ else _ : Except Error State).map
            (place spans)).mapError (Error.place spans)
        split <;> rfl
      | root | unary operator | binary operator left => rfl

theorem takeOperator_place (stack : List Frame) (operand : Expr) (token : Token) :
    takeOperator table (stack.map (Frame.place spans)) operand (token.place spans) =
      ((takeOperator table stack operand token).map (place spans)).mapError
        (Error.place spans) := by
  rw [takeOperator, takeOperator, Table.binaryFor?_place]
  cases table.binaryFor? token with
  | none => exact takeClosing_place stack operand token
  | some entry =>
    have habove : above entry.left (stack.map (Frame.place spans)) =
        (above entry.left stack).map (Frame.place spans) := List.takeWhile_map
    have hnotAbove : notAbove entry.left (stack.map (Frame.place spans)) =
        (notAbove entry.left stack).map (Frame.place spans) := List.dropWhile_map
    simp only [habove, hnotAbove, fold_place]
    cases fold (above entry.left stack) operand <;> rfl

/-- A step does with a moved token what it does with the token. -/
theorem step_place (state : State) (token : Token) :
    (state.place spans).step table (token.place spans) =
      ((state.step table token).map (place spans)).mapError (Error.place spans) := by
  obtain ⟨stack, operand⟩ := state
  cases operand with
  | none => exact takeOperand_place stack token
  | some operand => exact takeOperator_place stack operand token

theorem finish_place (state : State) :
    (state.place spans).finish = state.finish.mapError (Error.place spans) := by
  obtain ⟨stack, operand⟩ := state
  cases operand with
  | none => rfl
  | some operand => exact fold_place stack operand

/-- A run over moved tokens points at another place, and has the same tree. -/
theorem run_place (state : State) (tokens : List Token) :
    (state.place spans).run table (tokens.map (Token.place spans)) =
      (state.run table tokens).mapError (Error.place spans) := by
  induction tokens generalizing state with
  | nil => exact finish_place state
  | cons token tokens ih =>
    rw [List.map_cons, run_cons, run_cons, step_place]
    cases state.step table token with
    | error error => rfl
    | ok next => exact ih next

end State

theorem parse_place (tokens : List Token) :
    parse table (tokens.map (Token.place spans)) =
      (parse table tokens).mapError (Error.place spans) :=
  State.run_place .initial tokens

end Frames

/-- **No engine looks at the places of tokens**: it only tells them in its errors. -/
theorem Engine.parse_place (engine : Engine) (tokens : List Token) :
    engine.parse .standard (tokens.map (Token.place spans)) =
      (engine.parse .standard tokens).mapError (Error.place spans) := by
  have hframes := Frames.parse_eq_climbing Table.grouped_standard
  rw [parse_standard, parse_standard, ← hframes, ← hframes, Frames.parse_place]

/-! ### Tokens without places -/

namespace Token

/-- What a token is, apart from its place. -/
def word (token : Token) : Kind × String :=
  (token.kind, token.text)

/-- Tokens with their indices for offsets. -/
def numbered (words : List (Kind × String)) : List Token :=
  words.mapIdx fun i word => ⟨word.1, word.2, ⟨i, i⟩⟩

def spanAt (tokens : List Token) (fallback : Span) (i : Nat) : Span :=
  (tokens[i]?.map span).getD fallback

/-- Tokens are their words, put where the tokens stand. -/
theorem map_place_numbered (tokens : List Token) (fallback : Span) :
    (numbered (tokens.map word)).map (place (spanAt tokens fallback)) = tokens := by
  refine List.ext_getElem? fun i => ?_
  simp only [numbered, List.getElem?_map, List.getElem?_mapIdx, Option.map_map]
  cases htoken : tokens[i]? with
  | none => rfl
  | some token => simp [place, start, word, spanAt, htoken]

end Token

/-! ### Source texts -/

open Token (scan word)

/-- What an engine makes of words, which stand at their indices. -/
def Engine.readWords (engine : Engine) (words : List (Token.Kind × String)) : Except Error Expr :=
  match (Token.numbered words).find? (·.kind = .invalid) with
  | some token => .error (.positioned token.start (.unrecognised token.text))
  | none => engine.parse .standard (Token.numbered words)

variable [WordClass]

/-- A source text is read as its words are, and errors point where its tokens stand. -/
theorem Engine.parseSource_eq_readWords (engine : Engine) (source : String) (fallback : Span) :
    engine.parseSource source =
      (engine.readWords ((scan source).map word)).mapError
        (Error.place (Token.spanAt (scan source) fallback)) := by
  have hscan := Token.map_place_numbered (scan source) fallback
  generalize (scan source).map word = words at hscan ⊢
  generalize Token.spanAt (scan source) fallback = spans at hscan ⊢
  have hfind : (scan source).find? (·.kind = .invalid) =
      ((Token.numbered words).find? (·.kind = .invalid)).map (Token.place spans) := by
    rw [← hscan, List.find?_map]
    rfl
  simp only [parseSource, Token.tokenize, readWords, hfind]
  cases (Token.numbered words).find? (·.kind = .invalid) with
  | some token => rfl
  | none =>
    rw [← engine.parse_place, hscan]
    rfl

/-- An error of words points at the index of one of them. -/
theorem Engine.exists_of_readWords {engine : Engine} {source : String} {kind : Error.Kind} {i : Nat}
    (h : engine.readWords ((scan source).map word) = .error (.positioned i kind)) :
    ∃ token, (scan source)[i]? = some token ∧
      engine.parseSource source = .error (.positioned token.start kind) := by
  have hsource (fallback : Span) : engine.parseSource source =
      .error (.positioned (Token.spanAt (scan source) fallback i).start kind) := by
    rw [engine.parseSource_eq_readWords source fallback, h]
    rfl
  cases htoken : (scan source)[i]? with
  | none =>
    -- Without a token at the index, the error would point wherever the fallback does.
    have htwo := (hsource ⟨0, 0⟩).symm.trans (hsource ⟨1, 1⟩)
    simp [Token.spanAt, htoken, Error.positioned] at htwo
  | some token =>
    refine ⟨token, rfl, ?_⟩
    simpa [Token.spanAt, Token.start, htoken] using hsource ⟨0, 0⟩

/-- Two results of reading agree up to the places of tokens: both are the same tree, or both are
errors of the same kind that point nowhere, or at tokens with the same index. -/
inductive Corresponds (tokens tokens' : List Token) :
    Except Error Expr → Except Error Expr → Prop where
  | tree (expr : Expr) : Corresponds tokens tokens' (.ok expr) (.ok expr)
  | unpositioned (kind : Error.Kind) :
      Corresponds tokens tokens' (.error (.unpositioned kind)) (.error (.unpositioned kind))
  | positioned (kind : Error.Kind) {i : Nat} {token token' : Token} :
      tokens[i]? = some token → tokens'[i]? = some token' →
      Corresponds tokens tokens' (.error (.positioned token.start kind))
        (.error (.positioned token'.start kind))

/-- Source texts with the same words are read alike. -/
theorem Corresponds.of_words {source source' : String}
    (h : (scan source).map word = (scan source').map word) (engine : Engine) :
    Corresponds (scan source) (scan source') (engine.parseSource source)
      (engine.parseSource source') := by
  cases hread : engine.readWords ((scan source).map word) with
  | ok expr =>
    rw [engine.parseSource_eq_readWords source ⟨0, 0⟩,
      engine.parseSource_eq_readWords source' ⟨0, 0⟩, ← h, hread]
    exact .tree expr
  | error error =>
    obtain ⟨kind, position⟩ := error
    cases position with
    | none =>
      rw [engine.parseSource_eq_readWords source ⟨0, 0⟩,
        engine.parseSource_eq_readWords source' ⟨0, 0⟩, ← h, hread]
      exact .unpositioned kind
    | some i =>
      obtain ⟨token, htoken, hparse⟩ := Engine.exists_of_readWords hread
      obtain ⟨token', htoken', hparse'⟩ := Engine.exists_of_readWords (h ▸ hread)
      rw [hparse, hparse']
      exact .positioned kind htoken htoken'

end Reckoner
