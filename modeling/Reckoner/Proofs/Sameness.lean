import Reckoner.Expr

/-!
Comparing trees with a list of pending pairs.

Two trees are the same if they have the same label at every place. The comparison
does not go down the trees to see this: it takes a pair from a list, looks at the
two roots, and puts the pairs of their operands back. `Compares` follows it from
pair to pair.

* `exists_compares` — the comparison comes to an end, with at most one pair for each
  node of the left tree.
* `Compares.verdict_iff` — its verdict is whether every pending pair is a pair of equal
  trees, whatever is pending.
* `Compares.mem_taken_iff` — if the verdict is yes, every pair of subtrees in the same
  place has been looked at.
-/

namespace Reckoner.Expr

/-! ### Labels and places -/

/-- What a node shows without its operands. -/
inductive Label where
  | literal (value : Int64)
  | unary (operator : String)
  | binary (operator : String)
deriving DecidableEq, Repr

def label : Expr → Label
  | literal value => .literal value
  | unary operator _ => .unary operator
  | binary operator _ _ => .binary operator

/-- The operands of the root, from left to right. -/
def operands : Expr → List Expr
  | literal _ => []
  | unary _ operand => [operand]
  | binary _ left right => [left, right]

/-- The subtree in a place, which is given by the number of the operand to go to at each node on
the way. -/
def at? (expr : Expr) : List Nat → Option Expr
  | [] => some expr
  | i :: path => expr.operands[i]?.bind (·.at? path)

def operandPairs (a b : Expr) : List (Expr × Expr) :=
  a.operands.zip b.operands

/-- Trees are equal if their roots and their operands are. -/
theorem eq_iff_label {a b : Expr} :
    a = b ↔ a.label = b.label ∧ ∀ pair ∈ operandPairs a b, pair.1 = pair.2 := by
  cases a <;> cases b <;> simp [label, operands, operandPairs]

/-- A common place of two trees is that of the roots, or one in a pair of operands. -/
theorem exists_at?_iff {a b x y : Expr} :
    (∃ path, a.at? path = some x ∧ b.at? path = some y) ↔
      (x, y) = (a, b) ∨ ∃ pair ∈ operandPairs a b, ∃ path,
        pair.1.at? path = some x ∧ pair.2.at? path = some y := by
  constructor
  · rintro ⟨path, hx, hy⟩
    cases path with
    | nil =>
      cases hx
      cases hy
      exact .inl rfl
    | cons i path =>
      obtain ⟨c, hc, hx⟩ := Option.bind_eq_some_iff.mp hx
      obtain ⟨d, hd, hy⟩ := Option.bind_eq_some_iff.mp hy
      have hpair : (operandPairs a b)[i]? = some (c, d) := List.getElem?_zip_eq_some.mpr ⟨hc, hd⟩
      exact .inr ⟨(c, d), List.mem_of_getElem? hpair, path, hx, hy⟩
  · rintro (hroot | ⟨⟨c, d⟩, hmem, path, hx, hy⟩)
    · cases hroot
      exact ⟨[], rfl, rfl⟩
    · obtain ⟨i, hpair⟩ := List.mem_iff_getElem?.mp hmem
      obtain ⟨hc, hd⟩ := List.getElem?_zip_eq_some.mp hpair
      exact ⟨i :: path, Option.bind_eq_some_iff.mpr ⟨c, hc, hx⟩,
        Option.bind_eq_some_iff.mpr ⟨d, hd, hy⟩⟩

theorem size_pos (expr : Expr) : 0 < expr.size := by
  cases expr <;> exact Nat.succ_pos _

theorem size_lt_of_mem_operands {expr operand : Expr} (h : operand ∈ expr.operands) :
    operand.size < expr.size := by
  cases expr <;> simp only [operands, List.mem_cons, List.not_mem_nil, or_false] at h
  case unary =>
    subst h
    exact Nat.lt_succ_self _
  case binary =>
    rcases h with rfl | rfl <;> simp only [size] <;> omega

/-- Trees with the same label in every place are equal. -/
theorem eq_of_labels {a b : Expr}
    (h : ∀ path, (a.at? path).map label = (b.at? path).map label) : a = b := by
  have hroot : a.label = b.label := by simpa [at?] using h []
  refine eq_iff_label.mpr ⟨hroot, ?_⟩
  rintro ⟨c, d⟩ hmem
  obtain ⟨i, hpair⟩ := List.mem_iff_getElem?.mp hmem
  obtain ⟨hc, hd⟩ := List.getElem?_zip_eq_some.mp hpair
  have hsmaller := size_lt_of_mem_operands (List.mem_of_getElem? hc)
  apply eq_of_labels
  intro path
  simpa [at?, hc, hd] using h (i :: path)
termination_by a.size

/-! ### One pair -/

theorem leftSize_append (pairs more : List (Expr × Expr)) :
    leftSize (pairs ++ more) = leftSize pairs + leftSize more := by
  induction pairs with
  | nil => simp [leftSize]
  | cons pair pairs ih => simp [leftSize, ih, Nat.add_assoc]

theorem leftSize_operandPairs {a b : Expr} (h : a.label = b.label) :
    leftSize (operandPairs a b).reverse + 1 = a.size := by
  cases a <;> cases b <;> simp [label, leftSize, size, operands, operandPairs] at h ⊢
  omega

/-- A pair goes on with the pairs of its operands, the last one first, if its roots have the same
label. -/
theorem allSame_cons (a b : Expr) (rest : List (Expr × Expr)) :
    allSame ((a, b) :: rest) =
      (a.label = b.label && allSame ((operandPairs a b).reverse ++ rest)) := by
  cases a <;> cases b <;> simp [allSame, label, operands, operandPairs]

/-! ### All pairs -/

/-- The comparison of the pending pairs takes the pairs `taken` one after the other and ends with
the verdict. -/
inductive Compares : List (Expr × Expr) → List (Expr × Expr) → Bool → Prop where
  /-- Nothing is pending. -/
  | agree : Compares [] [] true
  | differ {a b : Expr} {rest : List (Expr × Expr)} :
      a.label ≠ b.label → Compares ((a, b) :: rest) [(a, b)] false
  | goOn {a b : Expr} {rest taken : List (Expr × Expr)} {verdict : Bool} :
      a.label = b.label → Compares ((operandPairs a b).reverse ++ rest) taken verdict →
      Compares ((a, b) :: rest) ((a, b) :: taken) verdict

/-- The comparison ends, after at most one pair for each node on the left. -/
theorem exists_compares (pairs : List (Expr × Expr)) :
    ∃ taken, Compares pairs taken (allSame pairs) ∧ taken.length ≤ leftSize pairs := by
  match pairs with
  | [] =>
    rw [allSame]
    exact ⟨[], .agree, Nat.le_refl 0⟩
  | (a, b) :: rest =>
    rw [allSame_cons, leftSize]
    by_cases hlabel : a.label = b.label
    · have hsize : leftSize ((operandPairs a b).reverse ++ rest) + 1 = a.size + leftSize rest := by
        rw [leftSize_append, ← leftSize_operandPairs hlabel]
        omega
      obtain ⟨taken, hcompares, hlength⟩ := exists_compares ((operandPairs a b).reverse ++ rest)
      rw [decide_eq_true hlabel, Bool.true_and]
      refine ⟨(a, b) :: taken, .goOn hlabel hcompares, ?_⟩
      rw [List.length_cons]
      omega
    · have hpos := size_pos a
      rw [decide_eq_false hlabel, Bool.false_and]
      refine ⟨[(a, b)], .differ hlabel, ?_⟩
      rw [List.length_singleton]
      omega
termination_by leftSize pairs
decreasing_by
  rw [leftSize]
  omega

namespace Compares

variable {pairs taken : List (Expr × Expr)} {verdict : Bool}

/-- No pending pair is skipped: the verdict is whether all of them are equal. -/
theorem verdict_iff (h : Compares pairs taken verdict) :
    verdict = true ↔ ∀ pair ∈ pairs, pair.1 = pair.2 := by
  induction h with
  | agree => simp
  | @differ a b rest hlabel =>
    have hne : a ≠ b := fun heq => hlabel (heq ▸ rfl)
    simp [hne]
  | @goOn a b rest taken verdict hlabel _ ih =>
    rw [ih, List.forall_mem_append, List.forall_mem_cons, eq_iff_label]
    simp [hlabel]

/-- A comparison that ends well has looked at every pair of subtrees in the same place, and at no
other pair. -/
theorem mem_taken_iff (h : Compares pairs taken verdict) (hverdict : verdict = true) {x y : Expr} :
    (x, y) ∈ taken ↔ ∃ pair ∈ pairs, ∃ path, pair.1.at? path = some x ∧
      pair.2.at? path = some y := by
  induction h with
  | agree => simp
  | differ _ => cases hverdict
  | @goOn a b rest taken verdict _ _ ih =>
    rw [List.mem_cons, ih hverdict]
    simp only [List.mem_append, List.mem_reverse, List.mem_cons, or_and_right, exists_or,
      exists_eq_left]
    rw [@exists_at?_iff a b, or_assoc]

end Compares

/-! ### Two trees -/

/-- The comparison of two trees is whether they are equal. -/
theorem same_iff_eq {a b : Expr} : same a b = true ↔ a = b := by
  obtain ⟨taken, hcompares, _⟩ := exists_compares [(a, b)]
  rw [same, hcompares.verdict_iff]
  simp

/-- **The comparison of two trees ends, and finds out whether they are identical.** It takes at most
as many pairs as the left tree has nodes. Its verdict is yes exactly if the trees have the same
label in every place, and then the pairs that it took are those of the subtrees in a common place.
So it is an equivalence; and with more than one pair pending, none is left out of the verdict. -/
theorem same_iff_identical :
    (∀ a b : Expr,
        (∃ taken, Compares [(a, b)] taken (same a b) ∧ taken.length ≤ a.size ∧
          (same a b = true → ∀ x y, (x, y) ∈ taken ↔
            ∃ path, a.at? path = some x ∧ b.at? path = some y)) ∧
        (same a b = true ↔ ∀ path, (a.at? path).map label = (b.at? path).map label) ∧
        (same a b = true ↔ a = b)) ∧
      Equivalence (fun a b : Expr => same a b = true) ∧
      ∀ pairs, allSame pairs = true ↔ ∀ pair ∈ pairs, pair.1 = pair.2 := by
  refine ⟨?_, ?_, ?_⟩
  · intro a b
    refine ⟨?_, ?_, same_iff_eq⟩
    · obtain ⟨taken, hcompares, hlength⟩ := exists_compares [(a, b)]
      refine ⟨taken, hcompares, hlength, ?_⟩
      intro hverdict x y
      rw [hcompares.mem_taken_iff hverdict]
      simp
    · constructor
      · intro hsame path
        rw [same_iff_eq.mp hsame]
      · intro hlabels
        exact same_iff_eq.mpr (eq_of_labels hlabels)
  · simp only [same_iff_eq]
    exact ⟨Eq.refl, Eq.symm, Eq.trans⟩
  · intro pairs
    obtain ⟨taken, hcompares, _⟩ := exists_compares pairs
    exact hcompares.verdict_iff

end Reckoner.Expr
