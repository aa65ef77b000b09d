import Reckoner.Token.Role

/-!
Tables as they are built.

A table is built from the empty one by registering operators, in any order and
with any powers. Registering replaces, so a built table has at most one entry for
each symbol and arity, and looking a symbol up finds every entry of the lists:

* `Built.binary?_of_mem`, `Built.unary?_of_mem` — an entry of a built table is
  the one that its own symbol is looked up to;
* `mem_of_binary?`, `mem_of_unary?` — what is looked up is an entry, under the
  symbol that was asked for.

`Grouped` is the condition under which a `(` keeps every operator inside it:
no operator between operands holds looser than a group.
-/

namespace Reckoner

theorem Power.base_lt_group : Power.base < Power.group := by
  decide

theorem Power.group_le_primary : Power.group ≤ Power.primary := by
  decide

/-! ### Entries with one symbol each -/

namespace Entry

variable {Meaning : Type}

/-- No two entries of the list have the same symbol. -/
def Distinct (entries : List (Entry Meaning)) : Prop :=
  entries.Pairwise fun a b => a.symbol ≠ b.symbol

/-- Putting an entry in the place of the one with its symbol keeps symbols apart. -/
theorem Distinct.replace {entries : List (Entry Meaning)} (h : Distinct entries)
    (entry : Entry Meaning) :
    Distinct (entry :: entries.filter (·.symbol != entry.symbol)) := by
  refine List.pairwise_cons.mpr ⟨?_, h.filter _⟩
  intro other hmem
  have hne := (List.mem_filter.mp hmem).2
  simpa [bne_iff_ne, ne_comm] using hne

/-- Among entries with one symbol each, the look-up of a symbol finds its entry. -/
theorem Distinct.find?_of_mem {entries : List (Entry Meaning)} (h : Distinct entries)
    {entry : Entry Meaning} (hmem : entry ∈ entries) :
    entries.find? (·.symbol == entry.symbol) = some entry := by
  induction entries with
  | nil => simp at hmem
  | cons first rest ih =>
    obtain ⟨hfirst, hrest⟩ := List.pairwise_cons.mp h
    rcases List.mem_cons.mp hmem with rfl | hmem
    · simp
    · have hne : (first.symbol == entry.symbol) = false := by
        simpa using hfirst entry hmem
      rw [List.find?_cons_of_neg (by simp [hne])]
      exact ih hrest hmem

end Entry

namespace Table

/-! ### Building -/

/-- The tables that registering operators makes of the empty one. -/
inductive Built : Table → Prop where
  | empty : Built empty
  | addBinary {table : Table} (entry : BinaryEntry) : Built table → Built (table.addBinary entry)
  | addUnary {table : Table} (entry : UnaryEntry) : Built table → Built (table.addUnary entry)

/-- A built table has at most one entry for each symbol and arity. -/
theorem Built.distinct {table : Table} (built : table.Built) :
    Entry.Distinct table.binary ∧ Entry.Distinct table.unary := by
  induction built with
  | empty => exact ⟨.nil, .nil⟩
  | addBinary entry _ ih => exact ⟨ih.1.replace entry, ih.2⟩
  | addUnary entry _ ih => exact ⟨ih.1, ih.2.replace entry⟩

theorem Built.binary?_of_mem {table : Table} (built : table.Built) {entry : BinaryEntry}
    (hmem : entry ∈ table.binary) : table.binary? entry.symbol = some entry :=
  built.distinct.1.find?_of_mem hmem

theorem Built.unary?_of_mem {table : Table} (built : table.Built) {entry : UnaryEntry}
    (hmem : entry ∈ table.unary) : table.unary? entry.symbol = some entry :=
  built.distinct.2.find?_of_mem hmem

theorem Built.foldl_addBinary {table : Table} (built : table.Built) (entries : List BinaryEntry) :
    (entries.foldl Table.addBinary table).Built := by
  induction entries generalizing table with
  | nil => exact built
  | cons entry entries ih => exact ih (built.addBinary entry)

theorem Built.foldl_addUnary {table : Table} (built : table.Built) (entries : List UnaryEntry) :
    (entries.foldl Table.addUnary table).Built := by
  induction entries generalizing table with
  | nil => exact built
  | cons entry entries ih => exact ih (built.addUnary entry)

/-- The table of the calculator is built like any other. -/
theorem built_standard : standard.Built :=
  (Built.empty.foldl_addBinary _).foldl_addUnary _

/-! ### Looking up -/

theorem mem_of_lookup {table : Table} {symbol : String} {arity : Arity}
    {entry : Entry arity.Meaning} (h : table.lookup symbol arity = some entry) :
    entry ∈ table.entries arity ∧ entry.symbol = symbol := by
  refine ⟨List.mem_of_find?_eq_some h, ?_⟩
  simpa using List.find?_some h

theorem mem_of_binary? {table : Table} {symbol : String} {entry : BinaryEntry}
    (h : table.binary? symbol = some entry) : entry ∈ table.binary ∧ entry.symbol = symbol :=
  mem_of_lookup h

theorem mem_of_unary? {table : Table} {symbol : String} {entry : UnaryEntry}
    (h : table.unary? symbol = some entry) : entry ∈ table.unary ∧ entry.symbol = symbol :=
  mem_of_lookup h

/-! ### Roles -/

/-- The operands are the numbers in range. -/
theorem atom_eq_operand_iff {table : Table} {token : Token} {expr : Expr} :
    table.atom token = .ok (.operand expr) ↔
      token.kind = .number ∧ ∃ value,
        (Text.readInt? token.text).bind Arithmetic.narrow? = some value ∧
          expr = .literal value := by
  cases hkind : token.kind <;> simp only [atom, hkind, Token.literal]
  case number =>
    cases (Text.readInt? token.text).bind Arithmetic.narrow? <;> simp [Except.map, eq_comm]
  case operator => cases table.unaryFor token <;> simp [Except.map]
  all_goals simp

theorem atom_eq_group_iff {table : Table} {token : Token} {start : Nat} :
    table.atom token = .ok (.group start) ↔ token.kind = .openParen ∧ token.start = start := by
  cases hkind : token.kind <;> simp only [atom, hkind]
  case number => cases token.literal <;> simp [Except.map]
  case operator => cases table.unaryFor token <;> simp [Except.map]
  all_goals simp

theorem atom_eq_operator_iff {table : Table} {token : Token} {entry : UnaryEntry} :
    table.atom token = .ok (.operator entry) ↔
      token.kind = .operator ∧ table.unary? token.text = some entry := by
  cases hkind : token.kind <;> simp only [atom, hkind, unaryFor]
  case number => cases token.literal <;> simp [Except.map]
  case operator => cases table.unary? token.text <;> simp [Except.map]
  all_goals simp

/-- A token that stands for an operator in front of an operand spells the symbol of an entry. -/
theorem mem_of_atom_operator {table : Table} {token : Token} {entry : UnaryEntry}
    (h : table.atom token = .ok (.operator entry)) :
    token.kind = .operator ∧ entry ∈ table.unary ∧ entry.symbol = token.text := by
  obtain ⟨hkind, hentry⟩ := atom_eq_operator_iff.mp h
  exact ⟨hkind, mem_of_unary? hentry⟩

/-- Why a token stands for no operand. -/
inductive Fault (table : Table) (token : Token) : Error.Kind → Prop where
  | number : token.kind = .number →
      (Text.readInt? token.text).bind Arithmetic.narrow? = none →
      Fault table token (.unreadableNumber token.text)
  | operator : token.kind = .operator → table.unary? token.text = none →
      Fault table token (.unknownUnary token.text)
  | closeParen : token.kind = .closeParen → Fault table token .strayRightParen
  | invalid : token.kind = .invalid → Fault table token (.unrecognised token.text)

/-- A token that stands for no operand is blamed for a fault of its own. -/
theorem exists_fault_of_atom {table : Table} {token : Token} {error : Error}
    (h : table.atom token = .error error) :
    ∃ kind, error = .positioned token.start kind ∧ table.Fault token kind := by
  unfold atom at h
  cases hkind : token.kind with
  | number =>
    simp only [hkind, Token.literal] at h
    split at h
    · cases h
    · next hnone =>
      cases h
      exact ⟨_, rfl, .number hkind hnone⟩
  | openParen => simp [hkind] at h
  | operator =>
    simp only [hkind, unaryFor] at h
    split at h
    · cases h
    · next hnone =>
      cases h
      exact ⟨_, rfl, .operator hkind hnone⟩
  | closeParen =>
    simp only [hkind, Token.notAnOperand] at h
    cases h
    exact ⟨_, rfl, .closeParen hkind⟩
  | invalid =>
    simp only [hkind, Token.notAnOperand] at h
    cases h
    exact ⟨_, rfl, .invalid hkind⟩

/-- A token stands for an operator between operands if it is an operator and its text is looked
up. -/
theorem binaryFor?_eq_some_iff {table : Table} {token : Token} {entry : BinaryEntry} :
    table.binaryFor? token = some entry ↔
      token.kind = .operator ∧ table.binary? token.text = some entry := by
  by_cases hkind : token.kind = .operator <;> simp [binaryFor?, hkind]

/-- A token that stands for an operator between operands spells the symbol of an entry. -/
theorem mem_of_binaryFor? {table : Table} {token : Token} {entry : BinaryEntry}
    (h : table.binaryFor? token = some entry) :
    token.kind = .operator ∧ entry ∈ table.binary ∧ entry.symbol = token.text := by
  obtain ⟨hkind, hentry⟩ := binaryFor?_eq_some_iff.mp h
  exact ⟨hkind, mem_of_binary? hentry⟩

/-! ### Groups -/

/-- Every operator between operands holds at least as tightly as a group, so that none takes an
operand out of its parentheses. -/
def Grouped (table : Table) : Prop :=
  ∀ entry ∈ table.binary, Power.group ≤ entry.left

instance (table : Table) : Decidable table.Grouped :=
  inferInstanceAs (Decidable (∀ entry ∈ table.binary, Power.group ≤ entry.left))

theorem grouped_standard : standard.Grouped := by
  decide

/-- The bottom of a stack waits below every group, and no operator lies between. -/
theorem Grouped.lt_base_iff {table : Table} (grouped : table.Grouped) :
    ∀ entry ∈ table.binary, entry.left < Power.base ↔ entry.left < Power.group := by
  intro entry hmem
  constructor
  · intro hlt
    exact Int.lt_trans hlt Power.base_lt_group
  · intro hlt
    exact absurd hlt (Int.not_lt.mpr (grouped entry hmem))

/-! ### Probes

A few tokens suffice to tell tables apart: a literal, a `(`, and operators with symbols of the
table. -/

end Table

namespace Token

def one : Token :=
  ⟨.number, "1", ⟨0, 1⟩⟩

def leftParen : Token :=
  ⟨.openParen, "(", ⟨0, 1⟩⟩

def sign (symbol : String) : Token :=
  ⟨.operator, symbol, ⟨0, 0⟩⟩

end Token

namespace Table

variable {table : Table}

@[simp] theorem atom_one : table.atom .one = .ok (.operand (.literal 1)) := by
  rfl

@[simp] theorem atom_leftParen : table.atom .leftParen = .ok (.group 0) := by
  rfl

theorem atom_sign {entry : UnaryEntry} (h : table.unary? entry.symbol = some entry) :
    table.atom (.sign entry.symbol) = .ok (.operator entry) :=
  atom_eq_operator_iff.mpr ⟨rfl, h⟩

@[simp] theorem binaryFor?_one : table.binaryFor? .one = none := by
  rfl

theorem binaryFor?_sign {entry : BinaryEntry} (h : table.binary? entry.symbol = some entry) :
    table.binaryFor? (.sign entry.symbol) = some entry :=
  binaryFor?_eq_some_iff.mpr ⟨rfl, h⟩

end Table

end Reckoner
