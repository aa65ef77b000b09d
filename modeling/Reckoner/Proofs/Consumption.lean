import Reckoner.Proofs.Reading

/-!
What a reading consumes, and how far it looks.

A reading takes tokens from the front of a list and stops in front of the next one.
All the activations that end together stop in front of the same token, each at its
own threshold, so that token is all a reading can know of what it leaves.

* `StopsAlike` — the tokens left may be exchanged for others at which climbing stops
  wherever it did: for none at all, or for any that begin with the same token.
* `Reads.exists_consumed` — after such an exchange the same tokens are consumed, and
  the same tree is read from them.
* `ReadsEach.exists_consumed` — so it is for readings one after the other.
* `expression_consumed` — the same, said of places in a list of tokens.
-/

namespace Reckoner.Climbing

variable {table : Table}

/-! ### One token of lookahead -/

/-- Wherever climbing stops in front of `rest`, it stops in front of `more`. -/
def StopsAlike (table : Table) (rest more : List Token) : Prop :=
  ∀ threshold, Stops table threshold rest → Stops table threshold more

namespace StopsAlike

/-- At the end of the input, climbing stops at any threshold. -/
theorem nil (rest : List Token) : StopsAlike table rest [] :=
  fun _ _ => trivial

/-- Climbing sees no more than the next token. -/
theorem of_head? {rest more : List Token} (h : more.head? = rest.head?) :
    StopsAlike table rest more := by
  intro threshold hstops
  cases more with
  | nil => trivial
  | cons token more =>
    cases rest with
    | nil => cases h
    | cons other rest =>
      cases h
      exact hstops

/-- The lookahead of a reading: nothing, or any tokens that begin as those left do. -/
theorem of_lookahead {rest more : List Token} (h : more = [] ∨ more.head? = rest.head?) :
    StopsAlike table rest more := by
  rcases h with rfl | hhead
  · exact .nil rest
  · exact .of_head? hhead

/-- What comes first hides what comes after it. -/
theorem append {rest more : List Token} (h : StopsAlike table rest more) (tokens : List Token) :
    StopsAlike table (tokens ++ rest) (tokens ++ more) := by
  cases tokens with
  | nil => exact h
  | cons token tokens => exact .of_head? rfl

end StopsAlike

/-! ### One reading -/

/-- The tokens that a reading consumes give the same tree in front of any others at which climbing
stops alike. An activation that ends earlier than the whole reading has consumed tokens in front of
it, so what it sees does not change at all. -/
theorem Reads.exists_consumed {threshold : Power} {operand : Option Expr}
    {tokens rest : List Token} {expr : Expr} (h : Reads table threshold operand tokens expr rest) :
    ∃ consumed, tokens = consumed ++ rest ∧ (operand = none → consumed ≠ []) ∧
      ∀ more, StopsAlike table rest more →
        Reads table threshold operand (consumed ++ more) expr more := by
  induction h with
  | @operand threshold token tokens first expr rest hatom _ ih =>
    obtain ⟨consumed, rfl, -, hmore⟩ := ih
    refine ⟨token :: consumed, rfl, nofun, ?_⟩
    intro more halike
    exact .operand hatom (hmore more halike)
  | @operator threshold token tokens entry operand middle expr rest hatom _ _ ih ih' =>
    obtain ⟨inner, rfl, -, hinner⟩ := ih
    obtain ⟨outer, rfl, -, houter⟩ := ih'
    refine ⟨token :: (inner ++ outer), by simp, nofun, ?_⟩
    intro more halike
    rw [List.cons_append, List.append_assoc]
    exact .operator hatom (hinner _ (halike.append outer)) (houter more halike)
  | @group threshold token tokens start inner close middle expr rest hatom _ hclose _ ih ih' =>
    obtain ⟨inside, rfl, -, hinside⟩ := ih
    obtain ⟨outer, rfl, -, houter⟩ := ih'
    refine ⟨token :: (inside ++ close :: outer), by simp, nofun, ?_⟩
    intro more halike
    rw [List.cons_append, List.append_assoc, List.cons_append]
    exact .group hatom (hinside _ (halike.append (close :: outer))) hclose (houter more halike)
  | stop hstops =>
    refine ⟨[], rfl, nofun, ?_⟩
    intro more halike
    exact .stop (halike _ hstops)
  | @binary threshold token tokens entry left right middle expr rest hentry hle _ _ ih ih' =>
    obtain ⟨inner, rfl, -, hinner⟩ := ih
    obtain ⟨outer, rfl, -, houter⟩ := ih'
    refine ⟨token :: (inner ++ outer), by simp, nofun, ?_⟩
    intro more halike
    rw [List.cons_append, List.append_assoc]
    exact .binary hentry hle (hinner _ (halike.append outer)) (houter more halike)

/-! ### Readings one after the other -/

/-- `ReadsEach table thresholds tokens exprs rest`: expressions are read from one list, each from
where the one before it ended, with the given thresholds. -/
inductive ReadsEach (table : Table) :
    List Power → List Token → List Expr → List Token → Prop where
  | nil {tokens} : ReadsEach table [] tokens [] tokens
  | cons {threshold thresholds tokens expr exprs rest} :
      (expression table threshold tokens).result = .ok expr →
      ReadsEach table thresholds (expression table threshold tokens).rest exprs rest →
      ReadsEach table (threshold :: thresholds) tokens (expr :: exprs) rest

/-- A reading goes before others. -/
theorem ReadsEach.of_reads {threshold : Power} {thresholds : List Power}
    {tokens middle rest : List Token} {expr : Expr} {exprs : List Expr}
    (h : Reads table threshold none tokens expr middle)
    (hnext : ReadsEach table thresholds middle exprs rest) :
    ReadsEach table (threshold :: thresholds) tokens (expr :: exprs) rest := by
  obtain ⟨hresult, rfl⟩ := h.read_eq
  exact .cons hresult hnext

/-- Several readings consume at least one token each, and know no more of what they leave than one
of them. -/
theorem ReadsEach.exists_consumed {thresholds : List Power} {tokens rest : List Token}
    {exprs : List Expr} (h : ReadsEach table thresholds tokens exprs rest) :
    ∃ consumed, tokens = consumed ++ rest ∧ thresholds.length ≤ consumed.length ∧
      ∀ more, StopsAlike table rest more →
        ReadsEach table thresholds (consumed ++ more) exprs more := by
  induction h with
  | nil => exact ⟨[], rfl, Nat.le_refl 0, fun _ _ => .nil⟩
  | @cons threshold thresholds tokens expr exprs rest hresult _ ih =>
    have hreads := Reads.of_read threshold none tokens hresult
    obtain ⟨first, htokens, hne, hfirst⟩ := hreads.exists_consumed
    obtain ⟨others, hrest, hlength, hothers⟩ := ih
    rw [read_none, hrest] at htokens hfirst
    have hpos := List.length_pos_iff.mpr (hne rfl)
    refine ⟨first ++ others, by rw [htokens, List.append_assoc], ?_, ?_⟩
    · rw [List.length_append, List.length_cons]
      omega
    · intro more halike
      rw [List.append_assoc]
      exact .of_reads (hfirst _ (halike.append others)) (hothers more halike)

/-! ### Places in a list -/

/-- In front of a place, climbing stops at a token there that is no operator or holds too
loosely. -/
theorem stops_drop_iff {threshold : Power} {tokens : List Token} {k : Nat} :
    Stops table threshold (tokens.drop k) ↔
      ∀ token entry, tokens[k]? = some token → table.binaryFor? token = some entry →
        ¬ threshold ≤ entry.left := by
  rw [← List.head?_drop]
  cases tokens.drop k with
  | nil => simp [Stops]
  | cons token rest =>
    constructor
    · rintro hstops _ entry ⟨⟩ hentry
      exact Int.not_le.mpr (hstops entry hentry)
    · intro hloose entry hentry
      exact Int.not_le.mp (hloose token entry rfl hentry)

/-- What is consumed from a place on lies between that place and a later one. -/
theorem places_of_drop {tokens consumed rest : List Token} {k : Nat}
    (h : tokens.drop k = consumed ++ rest) :
    (tokens.take (k + consumed.length)).drop k = consumed ∧
      tokens.drop (k + consumed.length) = rest ∧ tokens[k + consumed.length]? = rest.head? := by
  have hdrop : tokens.drop (k + consumed.length) = rest := by
    rw [← List.drop_drop, h, List.drop_left]
  refine ⟨?_, hdrop, ?_⟩
  · rw [List.drop_take, Nat.add_sub_cancel_left, h, List.take_left]
  · rw [← hdrop, List.head?_drop]

theorem Reads.exists_place {threshold : Power} {tokens rest : List Token} {k : Nat} {expr : Expr}
    (h : Reads table threshold none (tokens.drop k) expr rest) :
    ∃ k', k < k' ∧ k' ≤ tokens.length ∧ rest = tokens.drop k' ∧
      ∀ more, more = [] ∨ more.head? = tokens[k']? →
        Reads table threshold none ((tokens.take k').drop k ++ more) expr more := by
  obtain ⟨consumed, htokens, hne, hmore⟩ := h.exists_consumed
  obtain ⟨htake, hdrop, hhead⟩ := places_of_drop htokens
  have hpos := List.length_pos_iff.mpr (hne rfl)
  have hlength := congrArg List.length htokens
  rw [List.length_drop, List.length_append] at hlength
  refine ⟨k + consumed.length, by omega, by omega, hdrop.symm, ?_⟩
  intro more hlookahead
  rw [hhead] at hlookahead
  rw [htake]
  exact hmore more (.of_lookahead hlookahead)

theorem ReadsEach.exists_place {thresholds : List Power} {tokens rest : List Token} {k : Nat}
    {exprs : List Expr} (h : ReadsEach table thresholds (tokens.drop k) exprs rest) :
    ∃ k', k + thresholds.length ≤ k' ∧ rest = tokens.drop k' ∧
      ∀ more, more = [] ∨ more.head? = tokens[k']? →
        ReadsEach table thresholds ((tokens.take k').drop k ++ more) exprs more := by
  obtain ⟨consumed, htokens, hlength, hmore⟩ := h.exists_consumed
  obtain ⟨htake, hdrop, hhead⟩ := places_of_drop htokens
  refine ⟨k + consumed.length, by omega, hdrop.symm, ?_⟩
  intro more hlookahead
  rw [hhead] at hlookahead
  rw [htake]
  exact hmore more (.of_lookahead hlookahead)

/-- **A reading knows its own tokens and one more.** Let an expression be read with any table and
threshold from place `k` of a list of tokens. It ends at a later place `k'`, in front of no operator
that reaches the threshold. From the tokens between the two places, followed by nothing or by any
tokens that begin with the one at `k'`, the same tree is read, and just those tokens are consumed.
The same holds for readings one after the other. -/
theorem expression_consumed (table : Table) (tokens : List Token) (k : Nat) :
    (∀ threshold expr, (expression table threshold (tokens.drop k)).result = .ok expr →
      ∃ k', k < k' ∧ k' ≤ tokens.length ∧
        (expression table threshold (tokens.drop k)).rest = tokens.drop k' ∧
        (∀ token entry, tokens[k']? = some token → table.binaryFor? token = some entry →
          ¬ threshold ≤ entry.left) ∧
        ∀ more, more = [] ∨ more.head? = tokens[k']? →
          (expression table threshold ((tokens.take k').drop k ++ more)).result = .ok expr ∧
            (expression table threshold ((tokens.take k').drop k ++ more)).rest = more) ∧
      ∀ thresholds exprs rest, ReadsEach table thresholds (tokens.drop k) exprs rest →
        ∃ k', k + thresholds.length ≤ k' ∧ rest = tokens.drop k' ∧
          ∀ more, more = [] ∨ more.head? = tokens[k']? →
            ReadsEach table thresholds ((tokens.take k').drop k ++ more) exprs more := by
  constructor
  · intro threshold expr hresult
    have hreads := Reads.of_read threshold none (tokens.drop k) hresult
    rw [read_none] at hreads
    obtain ⟨k', hlt, hle, hrest, hmore⟩ := hreads.exists_place
    have hstops := hreads.stops
    rw [hrest] at hstops
    refine ⟨k', hlt, hle, hrest, stops_drop_iff.mp hstops, ?_⟩
    intro more hlookahead
    exact (hmore more hlookahead).read_eq
  · intro thresholds exprs rest hreads
    exact hreads.exists_place

/-- The tokens of `1 + 2 * 3 - 4`. -/
def productBetweenSums : List Token :=
  [⟨.number, "1", ⟨0, 1⟩⟩, ⟨.operator, "+", ⟨2, 3⟩⟩, ⟨.number, "2", ⟨4, 5⟩⟩,
    ⟨.operator, "*", ⟨6, 7⟩⟩, ⟨.number, "3", ⟨8, 9⟩⟩, ⟨.operator, "-", ⟨10, 11⟩⟩,
    ⟨.number, "4", ⟨12, 13⟩⟩]

/-- What `+` takes as its right operand in `1 + 2 * 3 - 4` is the product, which is read from its
own three tokens and from any that go on with the `-`. What is left can be read next, with the `-`
in front of its operand. -/
theorem consumed_productBetweenSums :
    let tokens := productBetweenSums
    let product := Expr.binary "*" (.literal 2) (.literal 3)
    ((expression .standard 10 (tokens.drop 2)).result = .ok product ∧
      (expression .standard 10 (tokens.drop 2)).rest = tokens.drop 5 ∧
      ∀ more, more = [] ∨ more.head? = tokens[5]? →
        (expression .standard 10 ((tokens.take 5).drop 2 ++ more)).result = .ok product ∧
          (expression .standard 10 ((tokens.take 5).drop 2 ++ more)).rest = more) ∧
      ReadsEach .standard [10, .group] (tokens.drop 2) [product, .unary "-" (.literal 4)] [] ∧
      ∃ k', 4 ≤ k' ∧ [] = tokens.drop k' ∧ ∀ more, more = [] ∨ more.head? = tokens[k']? →
        ReadsEach .standard [10, .group] ((tokens.take k').drop 2 ++ more)
          [product, .unary "-" (.literal 4)] more := by
  intro tokens product
  have hminus : Table.standard.binaryFor? ⟨.operator, "-", ⟨10, 11⟩⟩ =
      some ⟨"-", 9, 10, Arithmetic.subtract⟩ := rfl
  have hstops {threshold : Power} (h : 9 < threshold) :
      Stops .standard threshold (tokens.drop 5) := by
    intro entry hentry
    cases hminus.symm.trans hentry
    exact h
  have hproduct : Reads .standard 10 none (tokens.drop 2) product (tokens.drop 5) :=
    .operand rfl <| .binary rfl (by decide) (.operand rfl (.stop (hstops (by decide))))
      (.stop (hstops (by decide)))
  have hnegation : Reads .standard .group none (tokens.drop 5) (.unary "-" (.literal 4)) [] :=
    .operator rfl (.operand rfl (.stop trivial)) (.stop trivial)
  have heach := ReadsEach.of_reads hproduct (.of_reads hnegation .nil)
  obtain ⟨hone, hall⟩ := expression_consumed .standard tokens 2
  obtain ⟨k', -, hle, hrest, -, hmore⟩ := hone 10 product hproduct.read_eq.1
  have hk : k' = 5 := by
    have hlength := congrArg List.length (hrest.symm.trans hproduct.read_eq.2)
    simp only [List.length_drop] at hlength
    change k' ≤ 7 at hle
    change 7 - k' = 2 at hlength
    omega
  subst hk
  exact ⟨⟨hproduct.read_eq.1, hrest, hmore⟩, heach, hall _ _ _ heach⟩

end Reckoner.Climbing
