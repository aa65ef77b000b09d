import Mathlib.Data.List.SplitBy
import Mathlib.Data.List.TakeWhile
import Reckoner.Line

/-!
Lines of a text.

A text is one line without a newline, or a line in front of a text, so what holds of
all texts is shown by going from line to line (`lines_induction`). The search for an
offset counts lines and characters from the start of the text; `lineFrom` counts the
offset from the start of the line instead, and finds the same (`lineAt_eq_lineFrom`).
An offset inside the text is found on its line, which is counted by the newlines before
it (`lineFrom_of_lt`) and by the lines before it, whose characters make up the offset
(`exists_lines_eq_append`); every other offset is the end of the last line
(`lineFrom_of_length_le`).
-/

namespace Reckoner

/-! ### Cutting into lines -/

/-- The last line without its newline. -/
def lastLine (cs : List Char) : List Char :=
  ((lines cs).getLast?.getD []).takeWhile (· != '\n')

/-- What holds of a line without a newline, and of a line in front of a text of which it holds,
holds of all texts. -/
@[elab_as_elim]
theorem lines_induction {motive : List Char → Prop}
    (last : ∀ content, '\n' ∉ content → motive content)
    (line : ∀ content rest, '\n' ∉ content → motive rest → motive (content ++ '\n' :: rest))
    (cs : List Char) : motive cs := by
  have hcontent : '\n' ∉ cs.takeWhile (· != '\n') := by
    intro hmem
    simpa using List.all_eq_true.mp List.all_takeWhile _ hmem
  have hsplit := List.takeWhile_append_dropWhile (p := (· != '\n')) (l := cs)
  cases hrest : cs.dropWhile (· != '\n') with
  | nil =>
    rw [hrest, List.append_nil] at hsplit
    exact last cs (hsplit ▸ hcontent)
  | cons newline rest =>
    have hnewline : newline = '\n' := by
      have hhead := List.head?_dropWhile_not (· != '\n') cs
      simpa [hrest] using hhead
    rw [hrest, hnewline] at hsplit
    have hshorter : rest.length < cs.length := by
      rw [← hsplit, List.length_append, List.length_cons]
      omega
    rw [← hsplit]
    exact line _ rest hcontent (lines_induction last line rest)
termination_by cs.length
decreasing_by exact hshorter

theorem bne_newline_of_not_mem {content : List Char} (h : '\n' ∉ content) :
    ∀ c ∈ content, (c != '\n') = true := by
  intro c hc
  simpa using fun heq : c = '\n' => h (heq ▸ hc)

section

variable {content : List Char} (hcontent : '\n' ∉ content)
include hcontent

theorem isChain_of_content : content.IsChain fun a _ => (a != '\n') = true := by
  refine (List.pairwise_of_forall_mem_list fun a ha _ _ => ?_).isChain
  exact bne_newline_of_not_mem hcontent a ha

theorem lines_of_content (hne : content ≠ []) : lines content = [content] :=
  List.splitBy_of_isChain hne (isChain_of_content hcontent)

theorem lines_append (rest : List Char) :
    lines (content ++ '\n' :: rest) = (content ++ ['\n']) :: lines rest := by
  have hchain : (content ++ ['\n']).IsChain fun a _ => (a != '\n') = true := by
    refine List.isChain_append.mpr ⟨isChain_of_content hcontent, List.isChain_singleton _, ?_⟩
    intro a ha _ _
    exact bne_newline_of_not_mem hcontent a (List.mem_of_mem_getLast? ha)
  have hchange : ∀ a ∈ (content ++ ['\n']).getLast?, ∀ b ∈ rest.head?, (a != '\n') = false := by
    intro a ha _ _
    rw [List.getLast?_concat] at ha
    cases ha
    rfl
  rw [← List.singleton_append, ← List.append_assoc, lines, List.splitBy_append hchange,
    List.splitBy_of_isChain (by simp) hchain]
  rfl

theorem lastLine_of_content : lastLine content = content := by
  have hself := List.takeWhile_eq_self_iff.mpr (bne_newline_of_not_mem hcontent)
  cases hempty : content with
  | nil => rfl
  | cons c cs =>
    have hne : content ≠ [] := by simp [hempty]
    rw [← hempty, lastLine, lines_of_content hcontent hne]
    exact hself

theorem lastLine_append (rest : List Char) :
    lastLine (content ++ '\n' :: rest) = if rest = [] then content else lastLine rest := by
  rw [lastLine, lines_append hcontent]
  split_ifs with hrest
  · have htake : (content ++ ['\n']).takeWhile (· != '\n') = content := by
      simp [List.takeWhile_append_of_pos (bne_newline_of_not_mem hcontent)]
    rw [hrest]
    exact htake
  · have hne : lines rest ≠ [] := List.splitBy_ne_nil.mpr hrest
    rw [List.getLast?_cons_of_ne_nil hne, lastLine]

end

/-- Rows that are each ended by a newline are the lines of the text they make up. -/
theorem lines_flatMap {rows : List (List Char)} (h : ∀ row ∈ rows, '\n' ∉ row) :
    lines (rows.flatMap (· ++ ['\n'])) = rows.map (· ++ ['\n']) := by
  induction rows with
  | nil => rfl
  | cons row rows ih =>
    obtain ⟨hrow, hrows⟩ := List.forall_mem_cons.mp h
    rw [List.flatMap_cons, List.append_assoc, List.singleton_append, lines_append hrow, ih hrows,
      List.map_cons]

/-- The pieces are what newlines cut the text into: one after the other they make up the text, none
is empty, a newline stands at the end of a piece only, and no piece but the last is without one. -/
structure Segmented (cs : List Char) (pieces : List (List Char)) : Prop where
  flatten_eq : pieces.flatten = cs
  ne_nil : ∀ piece ∈ pieces, piece ≠ []
  newline_last : ∀ piece ∈ pieces, '\n' ∉ piece.dropLast
  ended : ∀ piece ∈ pieces.dropLast, piece.getLast? = some '\n'

theorem segmented_lines (cs : List Char) : Segmented cs (lines cs) where
  flatten_eq := List.flatten_splitBy _ cs
  ne_nil _ hmem := List.ne_nil_of_mem_splitBy hmem
  newline_last := by
    induction cs using lines_induction with
    | last content hcontent =>
      intro piece hmem hnewline
      have hne : content ≠ [] := by
        rintro rfl
        cases hmem
      rw [lines_of_content hcontent hne, List.mem_singleton] at hmem
      exact hcontent (hmem ▸ (List.dropLast_sublist piece).subset hnewline)
    | line content rest hcontent ih =>
      intro piece hmem
      rw [lines_append hcontent] at hmem
      rcases List.mem_cons.mp hmem with rfl | hmem
      · rwa [List.dropLast_concat]
      · exact ih piece hmem
  ended := by
    induction cs using lines_induction with
    | last content hcontent =>
      intro piece hmem
      by_cases hne : content = []
      · cases hne
        cases hmem
      · rw [lines_of_content hcontent hne] at hmem
        cases hmem
    | line content rest hcontent ih =>
      intro piece hmem
      rw [lines_append hcontent] at hmem
      cases hrest : lines rest with
      | nil =>
        rw [hrest] at hmem
        cases hmem
      | cons first others =>
        rw [hrest, List.dropLast_cons_cons, ← hrest] at hmem
        rcases List.mem_cons.mp hmem with rfl | hmem
        · exact List.getLast?_concat
        · exact ih piece hmem

/-! ### Finding a line -/

/-- The line at an offset into the characters, the first of which begin the line with the given
number. -/
def lineFrom (number : Nat) (cs : List Char) (offset : Nat) : Line :=
  let content := cs.takeWhile (· != '\n')
  match h : cs.dropWhile (· != '\n') with
  | [] => ⟨number, content, min offset content.length⟩
  | newline :: rest =>
    if offset ≤ content.length then ⟨number, content ++ [newline], offset⟩
    else if rest.isEmpty then ⟨number, content, content.length⟩
    else lineFrom (number + 1) rest (offset - (content.length + 1))
termination_by cs.length
decreasing_by
  have := (List.dropWhile_suffix (· != '\n') : cs.dropWhile (· != '\n') <:+ cs).length_le
  simp [h] at this
  omega

section

variable {content : List Char} (hcontent : '\n' ∉ content)
include hcontent

theorem lineFrom_of_content (number offset : Nat) :
    lineFrom number content offset = ⟨number, content, min offset content.length⟩ := by
  have hnot := bne_newline_of_not_mem hcontent
  have htake : content.takeWhile (· != '\n') = content := List.takeWhile_eq_self_iff.mpr hnot
  have hdrop : content.dropWhile (· != '\n') = [] := List.dropWhile_eq_nil_iff.mpr hnot
  rw [lineFrom]
  split
  · rw [htake]
  · next hcons => simp [hdrop] at hcons

/-- The first line holds the offsets up to its newline. The others are on the lines after it, if
there are any. -/
theorem lineFrom_append (number offset : Nat) (rest : List Char) :
    lineFrom number (content ++ '\n' :: rest) offset =
      if offset ≤ content.length then ⟨number, content ++ ['\n'], offset⟩
      else if rest = [] then ⟨number, content, content.length⟩
      else lineFrom (number + 1) rest (offset - (content.length + 1)) := by
  have hnot := bne_newline_of_not_mem hcontent
  have htake : (content ++ '\n' :: rest).takeWhile (· != '\n') = content := by
    simp [List.takeWhile_append_of_pos hnot]
  have hdrop : (content ++ '\n' :: rest).dropWhile (· != '\n') = '\n' :: rest := by
    simp [List.dropWhile_append_of_pos hnot]
  rw [lineFrom]
  split
  · next hnil => simp [hdrop] at hnil
  · next newline after hcons =>
    rw [hdrop] at hcons
    cases hcons
    simp only [htake, List.isEmpty_iff]

end

/-! ### Searching line by line -/

section

variable {content : List Char} (hcontent : '\n' ∉ content)
include hcontent

theorem trimNewlines_of_content : trimNewlines content = content := by
  have hfirst : content.reverse.dropWhile (· == '\n') = content.reverse := by
    refine List.dropWhile_eq_self_iff.mpr fun hpos hnewline => ?_
    have hmem := List.mem_reverse.mp (List.getElem_mem hpos)
    exact hcontent (eq_of_beq hnewline ▸ hmem)
  rw [trimNewlines, hfirst, List.reverse_reverse]

theorem trimNewlines_concat : trimNewlines (content ++ ['\n']) = content := by
  rw [trimNewlines, List.reverse_concat, List.dropWhile_cons_of_pos rfl, ← trimNewlines,
    trimNewlines_of_content hcontent]

end

/-- The search for an offset among lines finds what the offset from the first of them leads to. -/
theorem lineAmong_lines {cs : List Char} (hne : cs ≠ []) {offset start number : Nat}
    (hstart : start ≤ offset) (hnumber : 0 < number) :
    lineAmong ((lines cs).getLast?.getD []) offset start number (lines cs) =
      lineFrom number cs (offset - start) := by
  induction cs using lines_induction generalizing start number with
  | last content hcontent =>
    rw [lines_of_content hcontent hne, List.getLast?_singleton, Option.getD_some,
      lineFrom_of_content hcontent, lineAmong]
    split_ifs with hin
    · rw [Nat.min_eq_left (by omega)]
    · rw [lineAmong, trimNewlines_of_content hcontent, Nat.min_eq_right (by omega),
        Nat.add_sub_cancel, Nat.max_eq_left hnumber]
  | line content rest hcontent ih =>
    rw [lines_append hcontent, lineFrom_append hcontent, lineAmong, List.length_append,
      List.length_singleton]
    by_cases hin : offset - start ≤ content.length
    · rw [if_pos hin, if_pos (by omega)]
    · rw [if_neg hin, if_neg (by omega)]
      split_ifs with hrest
      · have hlines : lines rest = [] := hrest ▸ rfl
        rw [hlines, List.getLast?_singleton, Option.getD_some, lineAmong,
          trimNewlines_concat hcontent, Nat.add_sub_cancel, Nat.max_eq_left hnumber]
      · have hlines : lines rest ≠ [] := List.splitBy_ne_nil.mpr hrest
        rw [List.getLast?_cons_of_ne_nil hlines, ih hrest (by omega) (Nat.succ_pos number),
          Nat.sub_add_eq]

theorem lineAt_eq_lineFrom (source : String) (offset : Nat) :
    lineAt source offset = lineFrom 1 source.toList offset := by
  rw [lineAt]
  by_cases hne : source.toList = []
  · rw [hne, lineFrom_of_content List.not_mem_nil, List.length_nil, Nat.min_zero]
    rfl
  · exact lineAmong_lines hne (Nat.zero_le offset) Nat.one_pos

/-! ### Counting -/

/-- An offset inside the text is on the line after as many newlines as come before it, and the
character there is the one of the text. -/
theorem lineFrom_of_lt (number : Nat) {cs : List Char} {offset : Nat} (h : offset < cs.length) :
    (lineFrom number cs offset).number = number + (cs.take offset).count '\n' ∧
      (lineFrom number cs offset).text[(lineFrom number cs offset).offset]? = cs[offset]? := by
  induction cs using lines_induction generalizing number offset with
  | last content hcontent =>
    have hnone : '\n' ∉ content.take offset := fun hmem => hcontent (List.mem_of_mem_take hmem)
    rw [lineFrom_of_content hcontent, Nat.min_eq_left (Nat.le_of_lt h), List.count_eq_zero.mpr hnone]
    exact ⟨rfl, rfl⟩
  | line content rest hcontent ih =>
    rw [lineFrom_append hcontent]
    by_cases hle : offset ≤ content.length
    · have hnone : '\n' ∉ content.take offset := fun hmem => hcontent (List.mem_of_mem_take hmem)
      rw [if_pos hle, List.take_append_of_le_length hle, List.count_eq_zero.mpr hnone]
      have hlt : offset < (content ++ ['\n']).length := by
        rw [List.length_append, List.length_singleton]
        omega
      have hsplit : content ++ '\n' :: rest = (content ++ ['\n']) ++ rest := by simp
      rw [hsplit, List.getElem?_append_left hlt]
      exact ⟨rfl, rfl⟩
    · -- The offset is after the newline, which counts once, and is one into the rest.
      obtain ⟨k, rfl⟩ := Nat.exists_eq_add_of_lt (Nat.not_le.mp hle)
      have hk : k < rest.length := by
        rw [List.length_append, List.length_cons] at h
        omega
      have hne : rest ≠ [] := List.ne_nil_of_length_pos (Nat.zero_lt_of_lt hk)
      obtain ⟨hnumber, hchar⟩ := ih (number + 1) hk
      have hrest : content.length + k + 1 - (content.length + 1) = k := by omega
      rw [if_neg hle, if_neg hne, hrest, hnumber, hchar, Nat.add_assoc content.length,
        List.take_length_add_append, List.count_append, List.count_eq_zero.mpr hcontent,
        List.take_succ_cons, List.count_cons_self, List.getElem?_append_right (Nat.le_add_right _ _),
        Nat.add_sub_cancel_left, List.getElem?_cons_succ]
      exact ⟨by omega, rfl⟩

/-- An offset at the end of the text or after it is the end of the last line. -/
theorem lineFrom_of_length_le (number : Nat) {cs : List Char} {offset : Nat}
    (h : cs.length ≤ offset) :
    lineFrom number cs offset =
      ⟨number + ((lines cs).length - 1), lastLine cs, (lastLine cs).length⟩ := by
  induction cs using lines_induction generalizing number offset with
  | last content hcontent =>
    have hone : (lines content).length - 1 = 0 := by
      by_cases hne : content = []
      · rw [hne]
        rfl
      · rw [lines_of_content hcontent hne]
        rfl
    rw [lineFrom_of_content hcontent, Nat.min_eq_right h, hone, lastLine_of_content hcontent]
    rfl
  | line content rest hcontent ih =>
    rw [List.length_append, List.length_cons] at h
    rw [lineFrom_append hcontent, lines_append hcontent, lastLine_append hcontent,
      if_neg (by omega)]
    split_ifs with hrest
    · rw [hrest]
      rfl
    · have hpos : 0 < (lines rest).length :=
        List.length_pos_iff.mpr (List.splitBy_ne_nil.mpr hrest)
      have hnumber : number + 1 + ((lines rest).length - 1) =
          number + (((content ++ ['\n']) :: lines rest).length - 1) := by
        rw [List.length_cons]
        omega
      rw [ih (number + 1) (by omega), hnumber]

/-- A line has its newline at the end, if at all. -/
theorem exists_text_lineFrom (number : Nat) (cs : List Char) (offset : Nat) :
    ∃ content, '\n' ∉ content ∧ ((lineFrom number cs offset).text = content ∨
      (lineFrom number cs offset).text = content ++ ['\n']) := by
  induction cs using lines_induction generalizing number offset with
  | last content hcontent =>
    rw [lineFrom_of_content hcontent]
    exact ⟨content, hcontent, .inl rfl⟩
  | line content rest hcontent ih =>
    rw [lineFrom_append hcontent]
    split_ifs
    · exact ⟨content, hcontent, .inr rfl⟩
    · exact ⟨content, hcontent, .inl rfl⟩
    · exact ih _ _

/-! ### The place of an offset -/

/-- The line found for an offset inside the text is one of its lines. Those before it give its
number, and their characters, with those before the place on it, make up the offset. -/
theorem exists_lines_eq_append (number : Nat) {cs : List Char} {offset : Nat}
    (h : offset < cs.length) :
    ∃ before after, lines cs = before ++ (lineFrom number cs offset).text :: after ∧
      (lineFrom number cs offset).number = number + before.length ∧
      before.flatten.length + (lineFrom number cs offset).offset = offset ∧
      (lineFrom number cs offset).offset < (lineFrom number cs offset).text.length := by
  induction cs using lines_induction generalizing number offset with
  | last content hcontent =>
    have hne : content ≠ [] := List.ne_nil_of_length_pos (Nat.zero_lt_of_lt h)
    rw [lineFrom_of_content hcontent, lines_of_content hcontent hne,
      Nat.min_eq_left (Nat.le_of_lt h)]
    exact ⟨[], [], rfl, rfl, Nat.zero_add offset, h⟩
  | line content rest hcontent ih =>
    rw [lineFrom_append hcontent, lines_append hcontent]
    by_cases hle : offset ≤ content.length
    · have hlt : offset < (content ++ ['\n']).length := by
        rw [List.length_append, List.length_singleton]
        omega
      rw [if_pos hle]
      exact ⟨[], lines rest, rfl, rfl, Nat.zero_add offset, hlt⟩
    · have hrest : offset - (content.length + 1) < rest.length := by
        rw [List.length_append, List.length_cons] at h
        omega
      have hne : rest ≠ [] := List.ne_nil_of_length_pos (Nat.zero_lt_of_lt hrest)
      rw [if_neg hle, if_neg hne]
      obtain ⟨before, after, hlines, hnumber, hoffset, hlt⟩ := ih (number + 1) hrest
      refine ⟨(content ++ ['\n']) :: before, after, ?_, ?_, ?_, hlt⟩
      · rw [hlines, List.cons_append]
      · rw [hnumber, List.length_cons]
        omega
      · rw [List.flatten_cons, List.length_append, List.length_append, List.length_singleton]
        omega

/-- The line is that of an offset inside the text, and its place is that of the offset. -/
structure Line.IsAt (line : Line) (cs : List Char) (offset : Nat) : Prop where
  number_eq : line.number = 1 + (cs.take offset).count '\n'
  getElem?_lines : (lines cs)[line.number - 1]? = some line.text
  offset_lt : line.offset < line.text.length
  offset_eq : ((lines cs).take (line.number - 1)).flatten.length + line.offset = offset
  getElem?_text : line.text[line.offset]? = cs[offset]?

/-- **Every offset is found on its line.** The lines are what newlines cut the text into. An offset
inside the text is on the line with as many lines before it as there are newlines before the offset,
at the place that is left when the characters of those lines are taken off, where the line has the
character of the text. Any other offset is the end of the last line, given without its newline; an
empty text counts as one line. -/
theorem lineAt_isAt (source : String) (offset : Nat) :
    Segmented source.toList (lines source.toList) ∧
      (offset < source.length → (lineAt source offset).IsAt source.toList offset) ∧
      (source.length ≤ offset → lineAt source offset =
        ⟨max 1 (lines source.toList).length, lastLine source.toList,
          (lastLine source.toList).length⟩) := by
  rw [← String.length_toList, lineAt_eq_lineFrom]
  refine ⟨segmented_lines source.toList, ?_, ?_⟩
  · intro h
    obtain ⟨hcount, hchar⟩ := lineFrom_of_lt 1 h
    obtain ⟨before, after, hlines, hnumber, hoffset, hlt⟩ := exists_lines_eq_append 1 h
    have hbefore : (lineFrom 1 source.toList offset).number - 1 = before.length := by omega
    refine ⟨hcount, ?_, hlt, ?_, hchar⟩
    · rw [hbefore, hlines, List.getElem?_append_right (Nat.le_refl _), Nat.sub_self,
        List.getElem?_cons_zero]
    · rw [hbefore, hlines, List.take_left, hoffset]
  · intro h
    have hmax : 1 + ((lines source.toList).length - 1) = max 1 (lines source.toList).length := by
      omega
    rw [lineFrom_of_length_le 1 h, hmax]

end Reckoner
