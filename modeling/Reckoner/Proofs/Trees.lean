import Reckoner.Proofs.Reading

/-!
What trees are made of.

A vocabulary says which literals and which operators, by arity, a tree may have.
`Reads.over` bounds the vocabulary of what the recursive engine reads: literals
are the values of number tokens, and operators are those of the table.
-/

namespace Reckoner

/-- The literals and operators that a tree may have. -/
structure Vocabulary where
  literal : Int64 → Prop
  unary : String → Prop
  binary : String → Prop

/-- Every literal and every operator of the tree is in the vocabulary. -/
def Expr.Over (words : Vocabulary) : Expr → Prop
  | .literal value => words.literal value
  | .unary operator operand => words.unary operator ∧ operand.Over words
  | .binary operator left right => words.binary operator ∧ left.Over words ∧ right.Over words

/-- A tree over a vocabulary is over every larger one. -/
theorem Expr.Over.mono {words more : Vocabulary}
    (hliteral : ∀ value, words.literal value → more.literal value)
    (hunary : ∀ operator, words.unary operator → more.unary operator)
    (hbinary : ∀ operator, words.binary operator → more.binary operator) {expr : Expr}
    (h : expr.Over words) : expr.Over more := by
  induction expr with
  | literal value => exact hliteral value h
  | unary operator operand ih => exact ⟨hunary operator h.1, ih h.2⟩
  | binary operator left right ihLeft ihRight =>
    exact ⟨hbinary operator h.1, ihLeft h.2.1, ihRight h.2.2⟩

namespace Climbing

variable {table : Table}

/-- A reading takes tokens from the front. -/
theorem Reads.suffix {threshold : Power} {operand : Option Expr} {tokens rest : List Token}
    {expr : Expr} (h : Reads table threshold operand tokens expr rest) : rest <:+ tokens := by
  induction h with
  | operand _ _ ih => exact ih.trans (List.suffix_cons _ _)
  | operator _ _ _ ih ih' => exact (ih'.trans ih).trans (List.suffix_cons _ _)
  | group _ _ _ _ ih ih' =>
    exact ((ih'.trans (List.suffix_cons _ _)).trans ih).trans (List.suffix_cons _ _)
  | stop _ => exact List.suffix_refl _
  | binary _ _ _ _ ih ih' => exact (ih'.trans ih).trans (List.suffix_cons _ _)

/-- What is read has the operators of the table and the values of the number tokens. -/
theorem Reads.over {words : Vocabulary} (hunary : ∀ entry ∈ table.unary, words.unary entry.symbol)
    (hbinary : ∀ entry ∈ table.binary, words.binary entry.symbol) {threshold : Power}
    {operand : Option Expr} {tokens rest : List Token} {expr : Expr}
    (h : Reads table threshold operand tokens expr rest)
    (hliteral : ∀ token ∈ tokens, ∀ value, table.atom token = .ok (.operand (.literal value)) →
      words.literal value)
    (hoperand : ∀ left ∈ operand, left.Over words) : expr.Over words := by
  induction h with
  | operand hatom _ ih =>
    obtain ⟨_, value, _, rfl⟩ := Table.atom_eq_operand_iff.mp hatom
    have hvalue : words.literal value := hliteral _ List.mem_cons_self value hatom
    refine ih (fun token hmem => hliteral token (List.mem_cons_of_mem _ hmem)) ?_
    rintro left ⟨⟩
    exact hvalue
  | operator hatom hread _ ih ih' =>
    have hrest := List.forall_mem_cons.mp hliteral |>.2
    have hentry := (Table.mem_of_atom_operator hatom).2.1
    refine ih' (fun token hmem => hrest token (hread.suffix.subset hmem)) ?_
    rintro left ⟨⟩
    exact ⟨hunary _ hentry, ih hrest (by simp)⟩
  | group _ hread _ _ ih ih' =>
    have hrest := List.forall_mem_cons.mp hliteral |>.2
    refine ih' (fun token hmem =>
      hrest token (hread.suffix.subset (List.mem_cons_of_mem _ hmem))) ?_
    rintro left ⟨⟩
    exact ih hrest (by simp)
  | stop _ => exact hoperand _ rfl
  | binary hentry _ hread _ ih ih' =>
    have hrest := List.forall_mem_cons.mp hliteral |>.2
    have hmem := (Table.mem_of_binaryFor? hentry).2.1
    refine ih' (fun token hmem => hrest token (hread.suffix.subset hmem)) ?_
    rintro left ⟨⟩
    exact ⟨hbinary _ hmem, hoperand _ rfl, ih hrest (by simp)⟩

end Climbing

end Reckoner
