import Mathlib.Data.List.SplitBy
import Mathlib.Data.List.TakeWhile
import Reckoner.Proofs.Patterns

/-!
Tokens by runs of characters.

A character belongs to a word, is a blank, or is a sign, and a text falls into
maximal runs of one class. What the tokens are can be read off the runs: a word is
one token, signs are cut from left to right, and blanks yield nothing
(`tokensOfRuns`).

* `lexeme?_pair`, `lexeme?_sign` — among signs, two that make up an operator are
  cut off together, any other sign alone.
* `cut_run` — a run is cut into its own tokens, and nothing of what comes after it.
* `cut_eq_tokensOfRuns`, `scan_eq_tokensOfRuns` — hence so is a text.
-/

namespace Reckoner.Token

open Text (isBlank)
open WordClass (isWord)

/-! ### Runs -/

inductive Class where
  | word
  | blank
  | sign
deriving DecidableEq, Repr

/-! ### Tokens of runs -/

/-- The operators of two characters. -/
def pairs : List (List Char) :=
  [['*', '*'], ['<', '<'], ['>', '>']]

def singles : List Char :=
  ['%', '&', '*', '+', '-', '/', '^', '|', '~']

def kindOfSign (c : Char) : Kind :=
  if c ∈ singles then .operator
  else if c = '(' then .openParen
  else if c = ')' then .closeParen
  else .invalid

/-- Signs, cut from left to right: an operator of two characters where there is one, and else a
single sign. -/
def piecesOfSigns : List Char → List (Kind × List Char)
  | [] => []
  | [a] => [(kindOfSign a, [a])]
  | a :: b :: cs =>
    if [a, b] ∈ pairs then (.operator, [a, b]) :: piecesOfSigns cs
    else (kindOfSign a, [a]) :: piecesOfSigns (b :: cs)

/-- Pieces as tokens, side by side from the offset on. -/
def lay (offset : Nat) : List (Kind × List Char) → List Token
  | [] => []
  | (kind, text) :: pieces =>
    ⟨kind, String.ofList text, ⟨offset, offset + text.length⟩⟩ :: lay (offset + text.length) pieces

/-! ### Operators of two characters and of one -/

theorem operatorTexts_eq_pairs_append : operatorTexts = pairs ++ singles.map ([·]) := by
  decide

/-- Where there is no operator of two characters, there can be one of a single character. -/
theorem operatorLength?_of_not_pair {a : Char} {cs : List Char}
    (hnext : ∀ b ∈ cs.head?, [a, b] ∉ pairs) :
    operatorLength? (a :: cs) = if a ∈ singles then some 1 else none := by
  have hpairs : pairs.find? (·.isPrefixOf (a :: cs)) = none := by
    refine List.find?_eq_none.mpr fun text hmem hstarts => ?_
    have hlength : ∀ text ∈ pairs, text.length = 2 := by decide
    have htake := List.prefix_iff_eq_take.mp (List.isPrefixOf_iff_prefix.mp hstarts)
    rw [hlength text hmem] at htake
    cases cs with
    | nil =>
      have := hlength text hmem
      simp [htake] at this
    | cons b cs => exact hnext b rfl (by simpa [htake] using hmem)
  have hsingles : (fun text : List Char => text.isPrefixOf (a :: cs)) ∘ ([·]) = (· == a) := by
    funext c
    simp [List.isPrefixOf]
  rw [operatorLength?, operatorTexts_eq_pairs_append, List.find?_append, hpairs, Option.none_or,
    List.find?_map, hsingles, Option.map_map]
  split_ifs with hmem
  · have hsome : (singles.find? (· == a)).isSome = true :=
      List.find?_isSome.mpr ⟨a, hmem, beq_self_eq_true a⟩
    obtain ⟨c, hfind⟩ := Option.isSome_iff_exists.mp hsome
    rw [hfind]
    rfl
  · have hnone : singles.find? (· == a) = none := by
      refine List.find?_eq_none.mpr fun c hc heq => hmem ?_
      rwa [← eq_of_beq heq]
    rw [hnone]
    rfl

variable [WordClass]

/-! ### Classes -/

def classOf (c : Char) : Class :=
  if isWord c then .word else if isBlank c then .blank else .sign

def sameClass (a b : Char) : Bool :=
  classOf a = classOf b

/-- The maximal runs of characters of one class. -/
def runs (cs : List Char) : List (List Char) :=
  cs.splitBy sameClass

/-- What a run is cut into: a word is one piece, a number if it has only digits. -/
def piecesOfRun (run : List Char) : List (Kind × List Char) :=
  match run.head?.map classOf with
  | some .word => [(if run.all Char.isDigit then .number else .invalid, run)]
  | some .sign => piecesOfSigns run
  | some .blank | none => []

/-- The tokens of runs, side by side from the offset on. -/
def tokensOfRuns (offset : Nat) : List (List Char) → List Token
  | [] => []
  | run :: runs => lay offset (piecesOfRun run) ++ tokensOfRuns (offset + run.length) runs



theorem classOf_eq_word_iff {c : Char} : classOf c = .word ↔ isWord c = true := by
  unfold classOf
  split_ifs <;> simp_all

theorem classOf_eq_blank_iff {c : Char} : classOf c = .blank ↔ isBlank c = true := by
  unfold classOf
  split_ifs with hword hblank
  · have hnot : isBlank c ≠ true := fun hblank => by simp [WordClass.isWord_blank c hblank] at hword
    simp [hnot]
  · simp [hblank]
  · simp [hblank]

theorem classOf_eq_sign_iff {c : Char} :
    classOf c = .sign ↔ isWord c = false ∧ isBlank c = false := by
  unfold classOf
  split_ifs <;> simp_all

/-- A run comes first among the runs of a text that goes on with another class. -/
theorem runs_append {run rest : List Char} {k : Class} (hne : run ≠ [])
    (hrun : ∀ c ∈ run, classOf c = k) (hrest : ∀ c ∈ rest.head?, classOf c ≠ k) :
    runs (run ++ rest) = run :: runs rest := by
  have hsame : run.Pairwise fun a b => sameClass a b = true := by
    refine List.pairwise_of_forall_mem_list fun a ha b hb => ?_
    rw [sameClass, decide_eq_true_eq, hrun a ha, hrun b hb]
  have hchange : ∀ a ∈ run.getLast?, ∀ b ∈ rest.head?, sameClass a b = false := by
    intro a ha b hb
    rw [sameClass, decide_eq_false_iff_not, hrun a (List.mem_of_mem_getLast? ha)]
    exact (hrest b hb).symm
  rw [runs, List.splitBy_append hchange, List.splitBy_of_isChain hne hsame.isChain]
  rfl

/-! ### Signs -/

theorem classOf_of_mem_pairs : ∀ text ∈ pairs, ∀ c ∈ text, classOf c = .sign := by
  intro text hmem c hc
  have htext : text ∈ operatorTexts :=
    operatorTexts_eq_pairs_append ▸ List.mem_append_left _ hmem
  exact classOf_eq_sign_iff.mpr ⟨isWord_of_mem_operatorTexts text htext c hc,
    isBlank_of_mem_operatorTexts text htext c hc⟩

theorem lexeme?_pair {a b : Char} (h : [a, b] ∈ pairs) (cs : List Char) :
    lexeme? a (b :: cs) = some (.operator, 2) := by
  simp only [pairs, List.mem_cons, List.cons.injEq, and_true, List.not_mem_nil, or_false] at h
  rcases h with ⟨rfl, rfl⟩ | ⟨rfl, rfl⟩ | ⟨rfl, rfl⟩ <;>
    simp [lexeme?, operatorLength?, operatorTexts_eq, List.isPrefixOf]

theorem lexeme?_sign {a : Char} (h : classOf a = .sign) {cs : List Char}
    (hnext : ∀ b ∈ cs.head?, [a, b] ∉ pairs) : lexeme? a cs = some (kindOfSign a, 1) := by
  obtain ⟨hword, hblank⟩ := classOf_eq_sign_iff.mp h
  have hnumber := numberLength?_eq_none (isDigit_of_not_isWord hword) cs
  simp only [lexeme?, operatorLength?_of_not_pair hnext, hnumber, hword, hblank, kindOfSign,
    Bool.false_eq_true, if_false]
  split_ifs <;> rfl

/-- A piece that is cut off comes in front of the pieces after it. -/
theorem cut_piece {kind : Kind} {text more rest : List Char} {pieces : List (Kind × List Char)}
    {offset n : Nat} (hlexes : Lexes kind text more)
    (hmore : cut (offset + text.length) more =
      lay (offset + text.length) pieces ++ cut (offset + text.length + n) rest) :
    cut offset (text ++ more) =
      lay offset ((kind, text) :: pieces) ++ cut (offset + (text.length + n)) rest := by
  rw [cut_of_lexes hlexes, hmore, Nat.add_assoc]
  rfl

/-- Signs are cut off as their pieces, up to a character that is no sign. -/
theorem cut_signs {run rest : List Char} (hrun : ∀ c ∈ run, classOf c = .sign)
    (hrest : ∀ c ∈ rest.head?, classOf c ≠ .sign) (offset : Nat) :
    cut offset (run ++ rest) =
      lay offset (piecesOfSigns run) ++ cut (offset + run.length) rest := by
  fun_induction piecesOfSigns run generalizing offset with
  | case1 => rfl
  | case2 a =>
    have hnext : ∀ b ∈ rest.head?, [a, b] ∉ pairs := by
      intro b hb hmem
      exact hrest b hb (classOf_of_mem_pairs _ hmem b (by simp))
    have hlexes : Lexes (kindOfSign a) [a] rest :=
      ⟨a, [], rfl, lexeme?_sign (hrun a List.mem_cons_self) hnext⟩
    exact cut_of_lexes hlexes offset
  | case3 a b cs hpair ih =>
    have hcs : ∀ c ∈ cs, classOf c = .sign := fun c hc => hrun c (by simp [hc])
    have hlexes : Lexes .operator [a, b] (cs ++ rest) := ⟨a, [b], rfl, lexeme?_pair hpair _⟩
    have hlength : (a :: b :: cs).length = [a, b].length + cs.length := by
      simp only [List.length_cons, List.length_nil]
      omega
    rw [hlength]
    exact cut_piece hlexes (ih hcs _)
  | case4 a b cs hpair ih =>
    have hcs : ∀ c ∈ b :: cs, classOf c = .sign := fun c hc => hrun c (List.mem_cons_of_mem a hc)
    have hnext : ∀ c ∈ (b :: cs ++ rest).head?, [a, c] ∉ pairs := by
      rintro _ ⟨⟩
      exact hpair
    have hlexes : Lexes (kindOfSign a) [a] (b :: cs ++ rest) :=
      ⟨a, [], rfl, lexeme?_sign (hrun a List.mem_cons_self) hnext⟩
    have hlength : (a :: b :: cs).length = [a].length + (b :: cs).length := by
      simp only [List.length_cons, List.length_nil]
      omega
    rw [hlength]
    exact cut_piece hlexes (ih hcs _)

/-! ### Runs, one after the other -/

/-- A word is cut off as a whole. -/
theorem cut_word {run rest : List Char} (hne : run ≠ []) (hrun : ∀ c ∈ run, classOf c = .word)
    (hrest : ∀ c ∈ rest.head?, classOf c ≠ .word) (offset : Nat) :
    cut offset (run ++ rest) =
      lay offset [(if run.all Char.isDigit then .number else .invalid, run)] ++
        cut (offset + run.length) rest := by
  have hword : ∀ c ∈ run, isWord c = true := fun c hc => classOf_eq_word_iff.mp (hrun c hc)
  have hstop : ∀ c ∈ rest.head?, isWord c = false := by
    intro c hc
    simpa [classOf_eq_word_iff] using hrest c hc
  have hlexes : Lexes (if run.all Char.isDigit then .number else .invalid) run rest := by
    split_ifs with hdigits
    · exact lexes_number hne (List.all_eq_true.mp hdigits) hstop
    · obtain ⟨c, cs, rfl⟩ := List.exists_cons_of_ne_nil hne
      have hwhole : (c :: cs).takeWhile isWord = c :: cs := List.takeWhile_eq_self_iff.mpr hword
      have hnumber : numberLength? (c :: cs) = none := by
        rw [numberLength?_eq_of_word, hwhole, if_neg (fun h => hdigits h.2)]
      have hlexes := lexes_word hnumber (hword c List.mem_cons_self) hstop
      rwa [List.takeWhile_eq_self_iff.mpr fun d hd => hword d (List.mem_cons_of_mem c hd)] at hlexes
  exact cut_of_lexes hlexes offset

/-- A run is cut into its own pieces, whatever comes after it. -/
theorem cut_run {run rest : List Char} {k : Class} (hne : run ≠ [])
    (hrun : ∀ c ∈ run, classOf c = k) (hrest : ∀ c ∈ rest.head?, classOf c ≠ k) (offset : Nat) :
    cut offset (run ++ rest) =
      lay offset (piecesOfRun run) ++ cut (offset + run.length) rest := by
  have hclass : run.head?.map classOf = some k := by
    obtain ⟨c, cs, rfl⟩ := List.exists_cons_of_ne_nil hne
    simp [hrun c List.mem_cons_self]
  rw [piecesOfRun, hclass]
  cases k with
  | word => exact cut_word hne hrun hrest offset
  | blank =>
    have hblank : run.all isBlank = true :=
      List.all_eq_true.mpr fun c hc => classOf_eq_blank_iff.mp (hrun c hc)
    exact cut_blanks hblank offset rest
  | sign => exact cut_signs hrun hrest offset

/-- The scanner cuts a text into the tokens of its runs. -/
theorem cut_eq_tokensOfRuns (offset : Nat) (cs : List Char) :
    cut offset cs = tokensOfRuns offset (runs cs) := by
  match cs with
  | [] => exact cut_nil offset
  | c :: cs =>
    have hsplit : c :: cs = (c :: cs.takeWhile (sameClass c)) ++ cs.dropWhile (sameClass c) := by
      rw [List.cons_append, List.takeWhile_append_dropWhile]
    have hrun : ∀ d ∈ c :: cs.takeWhile (sameClass c), classOf d = classOf c := by
      refine List.forall_mem_cons.mpr ⟨rfl, fun d hd => ?_⟩
      exact (of_decide_eq_true (List.all_eq_true.mp List.all_takeWhile d hd)).symm
    have hrest : ∀ d ∈ (cs.dropWhile (sameClass c)).head?, classOf d ≠ classOf c := by
      intro d hd
      have hhead := List.head?_dropWhile_not (sameClass c) cs
      rw [hd] at hhead
      exact Ne.symm (by simpa [sameClass] using hhead)
    rw [hsplit, runs_append (List.cons_ne_nil _ _) hrun hrest,
      cut_run (List.cons_ne_nil _ _) hrun hrest, cut_eq_tokensOfRuns _ (cs.dropWhile (sameClass c))]
    rfl
termination_by cs.length
decreasing_by
  have hle := (List.dropWhile_suffix (sameClass c) (l := cs)).length_le
  simp only [List.length_cons]
  omega

/-- **The tokens of a text are those of its runs.** Looking for the first match of the patterns, from
left to right, gives exactly the tokens that the maximal runs of the text fall into, and so does the
scanner: every word is one token, signs are cut by the longest operator, and blanks yield nothing. -/
theorem scan_eq_tokensOfRuns (source : String) :
    scan source = tokensOfRuns 0 (runs source.toList) ∧
      ∀ tokens, Found none 0 source.toList tokens ↔ tokens = tokensOfRuns 0 (runs source.toList) := by
  have hcut := cut_eq_tokensOfRuns 0 source.toList
  refine ⟨(scan_eq_cut source).trans hcut, fun tokens => ?_⟩
  rw [found_iff, hcut]

end Reckoner.Token
