import Mathlib.Data.List.Destutter
import Mathlib.Data.List.Sort
import Reckoner.Proofs.Table

/-!
The symbols of a table as alternatives.

The order of alternatives is strict and total, so there is exactly one list that
has given symbols in this order, however they were found (`Ordered.eq_of_mem_iff`).
Inserting one symbol after the other makes it (`ordered_symbols`), and so does
sorting them all and dropping what is repeated (`ordered_arranged`).

A symbol comes before its own proper beginnings, since it has more bytes. So where
several symbols start a text, the first one of the list is the longest
(`Ordered.exists_find?`).
-/

namespace Reckoner.Table

/-! ### The order of alternatives -/

theorem comesBefore_irrefl (a : String) : ¬ comesBefore a a = true := by
  simp only [comesBefore, Bool.or_eq_true, Bool.and_eq_true, decide_eq_true_eq, beq_iff_eq]
  rintro (hlt | ⟨_, hlt⟩)
  · exact Nat.lt_irrefl _ hlt
  · exact String.lt_irrefl a hlt

theorem comesBefore_trans {a b c : String} (hab : comesBefore a b = true)
    (hbc : comesBefore b c = true) : comesBefore a c = true := by
  simp only [comesBefore, Bool.or_eq_true, Bool.and_eq_true, decide_eq_true_eq, beq_iff_eq]
    at hab hbc ⊢
  rcases hab with hab | ⟨hab, hlt⟩ <;> rcases hbc with hbc | ⟨hbc, hlt'⟩
  · exact .inl (Nat.lt_trans hbc hab)
  · exact .inl (hbc ▸ hab)
  · exact .inl (hab ▸ hbc)
  · exact .inr ⟨hab.trans hbc, String.lt_trans hlt hlt'⟩

theorem comesBefore_asymm {a b : String} (hab : comesBefore a b = true) :
    ¬ comesBefore b a = true :=
  fun hba => comesBefore_irrefl a (comesBefore_trans hab hba)

/-- Of two different symbols, one comes before the other. -/
theorem comesBefore_total {a b : String} (hne : a ≠ b) :
    comesBefore a b = true ∨ comesBefore b a = true := by
  simp only [comesBefore, Bool.or_eq_true, Bool.and_eq_true, decide_eq_true_eq, beq_iff_eq]
  rcases Nat.lt_trichotomy a.utf8ByteSize b.utf8ByteSize with hlt | heq | hlt
  · exact .inr (.inl hlt)
  · -- With as many bytes each, the texts decide.
    rcases String.le_total a b with hle | hle
    · have hlt := String.not_le.mp fun hge => hne (String.le_antisymm hle hge)
      exact .inl (.inr ⟨heq, hlt⟩)
    · have hlt := String.not_le.mp fun hge => hne (String.le_antisymm hge hle)
      exact .inr (.inr ⟨heq.symm, hlt⟩)
  · exact .inl (.inl hlt)

/-- A symbol that does not come later comes earlier or is the same. -/
theorem not_comesBefore_iff {a b : String} :
    (!comesBefore b a) = true ↔ a = b ∨ comesBefore a b = true := by
  rw [Bool.not_eq_true', ← Bool.not_eq_true]
  constructor
  · intro hnot
    by_cases heq : a = b
    · exact .inl heq
    · exact .inr ((comesBefore_total heq).resolve_right hnot)
  · rintro (rfl | hlt)
    · exact comesBefore_irrefl a
    · exact comesBefore_asymm hlt

/-- A text comes before its own beginnings. -/
theorem comesBefore_of_starts {a b : String} (h : b.toList <+: a.toList) (hne : b ≠ a) :
    comesBefore a b = true := by
  obtain ⟨rest, hrest⟩ := h
  have happend : a = b ++ String.ofList rest := by
    rw [← String.toList_inj, String.toList_append, String.toList_ofList, hrest]
  have hpos : 0 < (String.ofList rest).utf8ByteSize := by
    rw [Nat.pos_iff_ne_zero, Ne, String.utf8ByteSize_eq_zero_iff]
    intro hempty
    rw [hempty, String.append_empty] at happend
    exact hne happend.symm
  have hsize : b.utf8ByteSize < a.utf8ByteSize := by
    rw [happend, String.utf8ByteSize_append]
    omega
  simp [comesBefore, hsize]

/-! ### Lists in this order -/

/-- Every symbol of the list comes before those after it. -/
def Ordered (symbols : List String) : Prop :=
  symbols.Pairwise fun a b => comesBefore a b = true

namespace Ordered

variable {symbols others : List String}

theorem nodup (h : Ordered symbols) : symbols.Nodup := by
  refine List.Pairwise.imp ?_ h
  rintro a b hlt rfl
  exact comesBefore_irrefl a hlt

/-- The order leaves one way to list given symbols. -/
theorem eq_of_mem_iff (h : Ordered symbols) (h' : Ordered others)
    (hmem : ∀ symbol, symbol ∈ symbols ↔ symbol ∈ others) : symbols = others := by
  have hperm := (List.perm_ext_iff_of_nodup h.nodup h'.nodup).mpr hmem
  refine hperm.eq_of_pairwise ?_ h h'
  intro a b _ _ hab hba
  exact absurd hba (comesBefore_asymm hab)

/-- The first symbol that starts a text is the longest: every other one that does is a beginning of
it. -/
theorem exists_find? (h : Ordered symbols) {text : List Char}
    (hsome : ∃ symbol ∈ symbols, symbol.toList <+: text) :
    ∃ symbol ∈ symbols, symbols.find? (·.toList.isPrefixOf text) = some symbol ∧
      symbol.toList <+: text ∧
      ∀ other ∈ symbols, other.toList <+: text → other.toList <+: symbol.toList := by
  obtain ⟨found, hfound⟩ : ∃ found, symbols.find? (·.toList.isPrefixOf text) = some found := by
    rw [← Option.isSome_iff_exists, List.find?_isSome]
    simpa using hsome
  obtain ⟨hstarts, before, after, rfl, hbefore⟩ := List.find?_eq_some_iff_append.mp hfound
  rw [List.isPrefixOf_iff_prefix] at hstarts
  refine ⟨found, List.mem_of_find?_eq_some hfound, hfound, hstarts, ?_⟩
  intro other hmem hother
  rcases List.mem_append.mp hmem with hmem | hmem
  · have hnot := hbefore other hmem
    simp [List.isPrefixOf_iff_prefix.mpr hother] at hnot
  · rcases List.mem_cons.mp hmem with rfl | hmem
    · exact List.prefix_rfl
    · -- Both start the text; if the one found were the shorter, it would come later.
      rcases List.prefix_or_prefix_of_prefix hother hstarts with hle | hle
      · exact hle
      · have hlater : comesBefore found other = true :=
          (List.pairwise_cons.mp (List.pairwise_append.mp h).2.1).1 other hmem
        by_cases heq : found = other
        · exact heq ▸ List.prefix_rfl
        · exact absurd hlater (comesBefore_asymm (comesBefore_of_starts hle heq))

end Ordered

/-! ### Inserting -/

theorem mem_insertSymbol {symbol other : String} {symbols : List String} :
    other ∈ insertSymbol symbol symbols ↔ other = symbol ∨ other ∈ symbols := by
  induction symbols with
  | nil => simp [insertSymbol]
  | cons first rest ih =>
    unfold insertSymbol
    split
    · exact List.mem_cons
    · split
      · next heq => simp [heq]
      · rw [List.mem_cons, ih, List.mem_cons, or_left_comm]

theorem Ordered.insertSymbol {symbols : List String} (h : Ordered symbols) (symbol : String) :
    Ordered (insertSymbol symbol symbols) := by
  induction symbols with
  | nil => exact List.pairwise_singleton _ _
  | cons first rest ih =>
    obtain ⟨hfirst, hrest⟩ := List.pairwise_cons.mp h
    unfold Table.insertSymbol
    split
    · next hlt =>
      refine List.pairwise_cons.mpr ⟨?_, h⟩
      intro other hmem
      rcases List.mem_cons.mp hmem with rfl | hmem
      · exact hlt
      · exact comesBefore_trans hlt (hfirst other hmem)
    · next hnot =>
      split
      · exact h
      · next hne =>
        refine List.pairwise_cons.mpr ⟨?_, ih hrest⟩
        intro other hmem
        rcases mem_insertSymbol.mp hmem with rfl | hmem
        · exact (comesBefore_total hne).resolve_left hnot
        · exact hfirst other hmem

theorem mem_foldr_insertSymbol {symbol : String} {symbols : List String} :
    symbol ∈ symbols.foldr insertSymbol [] ↔ symbol ∈ symbols := by
  induction symbols with
  | nil => rfl
  | cons first rest ih => rw [List.foldr_cons, mem_insertSymbol, ih, List.mem_cons]

theorem ordered_foldr_insertSymbol (symbols : List String) :
    Ordered (symbols.foldr insertSymbol []) := by
  induction symbols with
  | nil => exact List.Pairwise.nil
  | cons first rest ih => exact ih.insertSymbol first

/-! ### Sorting and dropping what is repeated -/

/-- The symbols sorted, without those that are the same as the one before. -/
def arranged (symbols : List String) : List String :=
  (symbols.mergeSort fun a b => !comesBefore b a).destutter (· ≠ ·)

/-- Dropping what is repeated drops no symbol. -/
theorem mem_destutter'_ne {symbol first : String} {rest : List String}
    (h : symbol ∈ first :: rest) : symbol ∈ rest.destutter' (· ≠ ·) first := by
  induction rest generalizing first with
  | nil => exact h
  | cons next rest ih =>
    rw [List.destutter'_cons]
    split
    · rcases List.mem_cons.mp h with rfl | h
      · exact List.mem_cons_self
      · exact List.mem_cons_of_mem _ (ih h)
    · next heq =>
      obtain rfl := not_not.mp heq
      rcases List.mem_cons.mp h with rfl | h
      · exact ih List.mem_cons_self
      · exact ih h

theorem mem_arranged {symbol : String} {symbols : List String} :
    symbol ∈ arranged symbols ↔ symbol ∈ symbols := by
  rw [arranged, ← List.mem_mergeSort (a := symbol) (l := symbols)]
  constructor
  · exact fun h => (List.destutter_sublist _ _).subset h
  · intro h
    cases hsorted : symbols.mergeSort fun a b => !comesBefore b a with
    | nil => simp [hsorted] at h
    | cons first rest => exact mem_destutter'_ne (hsorted ▸ h)

theorem ordered_arranged (symbols : List String) : Ordered (arranged symbols) := by
  have hsorted : (symbols.mergeSort fun a b => !comesBefore b a).Pairwise
      fun a b => (!comesBefore b a) = true := by
    apply List.pairwise_mergeSort
    · intro a b c hab hbc
      rw [not_comesBefore_iff] at hab hbc ⊢
      rcases hab with rfl | hab
      · exact hbc
      · rcases hbc with rfl | hbc
        · exact .inr hab
        · exact .inr (comesBefore_trans hab hbc)
    · intro a b
      rw [Bool.or_eq_true, not_comesBefore_iff, not_comesBefore_iff]
      by_cases heq : a = b
      · exact .inl (.inl heq)
      · exact (comesBefore_total heq).imp .inr .inr
  have hweak := (hsorted.sublist (List.destutter_sublist (· ≠ ·) _)).isChain
  have hne := List.isChain_destutter (· ≠ ·) (symbols.mergeSort fun a b => !comesBefore b a)
  have hchain : (arranged symbols).IsChain fun a b => comesBefore a b = true := by
    rw [List.isChain_iff_getElem] at hweak hne ⊢
    intro i hi
    exact (not_comesBefore_iff.mp (hweak i hi)).resolve_left (hne i hi)
  have : Trans (fun a b => comesBefore a b = true) (fun a b => comesBefore a b = true)
      (fun a b => comesBefore a b = true) := ⟨comesBefore_trans⟩
  exact hchain.pairwise

/-! ### Registered symbols -/

inductive Registration where
  | binary (entry : BinaryEntry)
  | unary (entry : UnaryEntry)

def Registration.symbol : Registration → String
  | binary entry => entry.symbol
  | unary entry => entry.symbol

def register (table : Table) : Registration → Table
  | .binary entry => table.addBinary entry
  | .unary entry => table.addUnary entry

/-- The table that registering operators one after the other makes of the empty one. -/
def ofRegistrations (registrations : List Registration) : Table :=
  registrations.foldl register empty

/-- The symbol has an operator, between operands or in front of one. -/
def Has (table : Table) (symbol : String) : Prop :=
  (table.binary? symbol).isSome ∨ (table.unary? symbol).isSome

theorem has_iff_mem {table : Table} {symbol : String} :
    table.Has symbol ↔ symbol ∈ table.binary.map (·.symbol) ++ table.unary.map (·.symbol) := by
  simp [Has, binary?, unary?, lookup, entries]

/-- Replacing the entry of a symbol adds at most this symbol and takes none away. -/
theorem mem_map_replace {Meaning : Type} {entry : Entry Meaning} {entries : List (Entry Meaning)}
    {symbol : String} :
    symbol ∈ (entry :: entries.filter (·.symbol != entry.symbol)).map (·.symbol) ↔
      symbol = entry.symbol ∨ symbol ∈ entries.map (·.symbol) := by
  simp only [List.map_cons, List.mem_cons, List.mem_map, List.mem_filter, bne_iff_ne]
  constructor
  · rintro (heq | ⟨other, ⟨hmem, _⟩, heq⟩)
    · exact .inl heq
    · exact .inr ⟨other, hmem, heq⟩
  · rintro (heq | ⟨other, hmem, rfl⟩)
    · exact .inl heq
    · by_cases heq : other.symbol = entry.symbol
      · exact .inl heq
      · exact .inr ⟨other, ⟨hmem, heq⟩, rfl⟩

theorem has_register {table : Table} {registration : Registration} {symbol : String} :
    (table.register registration).Has symbol ↔
      symbol = registration.symbol ∨ table.Has symbol := by
  cases registration with
  | binary entry =>
    simp only [has_iff_mem, register, addBinary, List.mem_append, mem_map_replace, or_assoc]
    rfl
  | unary entry =>
    simp only [has_iff_mem, register, addUnary, List.mem_append, mem_map_replace]
    exact or_left_comm

theorem has_foldl_register {table : Table} {registrations : List Registration} {symbol : String} :
    (registrations.foldl register table).Has symbol ↔
      table.Has symbol ∨ ∃ registration ∈ registrations, registration.symbol = symbol := by
  induction registrations generalizing table with
  | nil => simp
  | cons registration registrations ih =>
    rw [List.foldl_cons, ih, has_register, @eq_comm _ symbol]
    simp only [List.mem_cons, or_and_right, exists_or, exists_eq_left]
    rw [or_assoc, or_left_comm]

theorem has_ofRegistrations {registrations : List Registration} {symbol : String} :
    (ofRegistrations registrations).Has symbol ↔
      ∃ registration ∈ registrations, registration.symbol = symbol := by
  rw [ofRegistrations, has_foldl_register]
  simp [Has, empty, binary?, unary?, lookup, entries]

theorem mem_symbols_iff {table : Table} {symbol : String} :
    symbol ∈ table.symbols ↔ table.Has symbol := by
  rw [symbols, mem_foldr_insertSymbol, has_iff_mem]

theorem ordered_symbols (table : Table) : Ordered table.symbols :=
  ordered_foldr_insertSymbol _

/-- **The symbols of a table are those that were registered, and the first that starts a text is the
longest.** The list does not depend on the order in which the symbols of either arity are found:
sorting them and dropping what is repeated always makes it. No symbol is in it twice, it has exactly
the symbols of the registrations, and if any of them starts a text, so does the first in the list
that is found to, of which all the others that do are beginnings. -/
theorem symbols_ofRegistrations (registrations : List Registration) :
    (∀ binary unary : List String,
        (∀ symbol, symbol ∈ binary ↔ ((ofRegistrations registrations).binary? symbol).isSome) →
        (∀ symbol, symbol ∈ unary ↔ ((ofRegistrations registrations).unary? symbol).isSome) →
        arranged (binary ++ unary) = (ofRegistrations registrations).symbols) ∧
      (ofRegistrations registrations).symbols.Nodup ∧
      (∀ symbol, symbol ∈ (ofRegistrations registrations).symbols ↔
        ∃ registration ∈ registrations, registration.symbol = symbol) ∧
      ∀ text : String,
        (∃ registration ∈ registrations, registration.symbol.toList <+: text.toList) →
        ∃ longest ∈ registrations,
          (ofRegistrations registrations).symbols.find? (·.toList.isPrefixOf text.toList) =
            some longest.symbol ∧
          longest.symbol.toList <+: text.toList ∧
          ∀ other ∈ registrations, other.symbol.toList <+: text.toList →
            other.symbol.toList <+: longest.symbol.toList := by
  have hordered := ordered_symbols (ofRegistrations registrations)
  have hmem : ∀ symbol, symbol ∈ (ofRegistrations registrations).symbols ↔
      ∃ registration ∈ registrations, registration.symbol = symbol := by
    intro symbol
    rw [mem_symbols_iff, has_ofRegistrations]
  refine ⟨?_, hordered.nodup, hmem, ?_⟩
  · intro binary unary hbinary hunary
    refine (ordered_arranged _).eq_of_mem_iff hordered ?_
    intro symbol
    rw [mem_arranged, List.mem_append, hbinary, hunary, mem_symbols_iff, Has]
  · rintro text ⟨registration, hregistered, hstarts⟩
    obtain ⟨symbol, hsymbol, hfound, hstarts, hlongest⟩ :=
      hordered.exists_find? ⟨_, (hmem _).mpr ⟨registration, hregistered, rfl⟩, hstarts⟩
    obtain ⟨longest, hlongestMem, rfl⟩ := (hmem symbol).mp hsymbol
    refine ⟨longest, hlongestMem, hfound, hstarts, ?_⟩
    intro other hother
    exact hlongest _ ((hmem _).mpr ⟨other, hother, rfl⟩)

end Reckoner.Table
