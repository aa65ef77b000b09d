import Reckoner.Proofs.Diagnosis
import Reckoner.Proofs.Lines
import Reckoner.Proofs.Tiling
import Reckoner.Report
import Reckoner.Token.UnicodeWords

/-!
What a report shows of a source text.

The caret of a report stands in a row of its own, so what it points at is found by
column in the row above. Both rows have a margin, which is as wide as the number of
the line, and the same spaces are left out of both. What comes out is right because
an error points at the start of a token, which is no blank, or at the end of the
text: neither is among the spaces that are left out.

* `Report.lines_render` — a report has four rows, whatever the source.
* `Report.caretAt_caretRow` — the caret is as far from the margin as the place is from
  the spaces that are left out.
* `Shows` — what the row above shows there, for an error that points at a place and
  for one that does not.
* `Engine.exists_lines_render` — hence every error of every engine is shown.
-/

namespace Reckoner

open Text (isBlank trimEnd showNat)
open Token (scan)

/-! ### Trimmed ends -/

theorem Text.exists_blanks (cs : List Char) :
    ∃ blanks, cs = trimEnd cs ++ blanks ∧ ∀ c ∈ blanks, isBlank c = true := by
  refine ⟨(cs.reverse.takeWhile isBlank).reverse, ?_, ?_⟩
  · rw [trimEnd, ← List.reverse_append, List.takeWhile_append_dropWhile, List.reverse_reverse]
  · intro c hc
    exact List.all_eq_true.mp List.all_takeWhile c (List.mem_reverse.mp hc)

/-- Trimming leaves what is not blank in its place. -/
theorem Text.getElem?_trimEnd {cs : List Char} {k : Nat} {c : Char} (h : cs[k]? = some c)
    (hc : isBlank c = false) : (trimEnd cs)[k]? = some c := by
  obtain ⟨blanks, hsplit, hblanks⟩ := exists_blanks cs
  by_cases hk : k < (trimEnd cs).length
  · rwa [hsplit, List.getElem?_append_left hk] at h
  · rw [hsplit, List.getElem?_append_right (Nat.not_lt.mp hk)] at h
    simp [hblanks c (List.mem_of_getElem? h)] at hc

theorem Text.trimEnd_concat_newline (cs : List Char) : trimEnd (cs ++ ['\n']) = trimEnd cs := by
  have hnewline : isBlank '\n' = true := by decide
  rw [trimEnd, List.reverse_concat, List.dropWhile_cons_of_pos hnewline, trimEnd]

theorem Text.trimEnd_subset (cs : List Char) : trimEnd cs ⊆ cs := by
  obtain ⟨blanks, hsplit, -⟩ := exists_blanks cs
  intro c hc
  rw [hsplit]
  exact List.mem_append_left _ hc

/-! ### Rows -/

namespace Report

/-- What stands before the text of a line. -/
def label (number : Nat) : List Char :=
  (showNat number).toList ++ " | ".toList

def lineRow (line : Line) : List Char :=
  label line.number ++ (shown line).toList

def caretRow (line : Line) : List Char :=
  (margin (showNat line.number)).toList ++ ' ' :: (pointer line).toList

def caretColumn (line : Line) : Nat :=
  (label line.number).length + (line.offset - indent line)

/-- The row has a caret in the column and in no other. -/
def CaretAt (row : List Char) (column : Nat) : Prop :=
  ∀ k, row[k]? = some '^' ↔ k = column

theorem caretAt_concat {front : List Char} (h : '^' ∉ front) :
    CaretAt (front ++ ['^']) front.length := by
  intro k
  rcases Nat.lt_trichotomy k front.length with hlt | heq | hgt
  · rw [List.getElem?_append_left hlt]
    exact iff_of_false (fun hk => h (List.mem_of_getElem? hk)) (Nat.ne_of_lt hlt)
  · simp [heq]
  · have hnone : (front ++ ['^'])[k]? = none := by
      rw [List.getElem?_eq_none_iff, List.length_append, List.length_singleton]
      omega
    simp [hnone, Nat.ne_of_gt hgt]

/-- The caret is as far from the margin as the place from the spaces that are left out. -/
theorem caretAt_caretRow (line : Line) : CaretAt (caretRow line) (caretColumn line) := by
  let front := List.replicate ((showNat line.number).length + 1) ' ' ++ ['|', ' '] ++
    List.replicate (line.offset - indent line) '-'
  have hrow : caretRow line = front ++ ['^'] := by
    simp [front, caretRow, margin, pointer]
  have hfront : '^' ∉ front := by simp [front]
  have hcolumn : caretColumn line = front.length := by
    simp [front, caretColumn, label, String.length_toList]
    omega
  rw [hrow, hcolumn]
  exact caretAt_concat hfront

theorem newline_not_mem_showNat (n : Nat) : '\n' ∉ (showNat n).toList := by
  intro hmem
  rw [showNat, String.toList_ofList] at hmem
  have hdigit := Nat.isDigit_of_mem_toDigits (by decide) (by decide) hmem
  simp [Char.isDigit] at hdigit

theorem newline_not_mem_shown (number : Nat) (cs : List Char) (offset : Nat) :
    '\n' ∉ (shown (lineFrom number cs offset)).toList := by
  obtain ⟨content, hcontent, htext⟩ := exists_text_lineFrom number cs offset
  have hrest : '\n' ∉ trimEnd (content.dropWhile (· == ' ')) := fun hmem =>
    hcontent ((List.dropWhile_sublist _).subset (Text.trimEnd_subset _ hmem))
  rw [shown, String.toList_ofList]
  rcases htext with htext | htext
  · rwa [htext]
  · -- The newline of a line is a blank at its end, so it is trimmed.
    have hdrop : (content ++ ['\n']).dropWhile (· == ' ') =
        content.dropWhile (· == ' ') ++ ['\n'] := by
      rw [List.dropWhile_append]
      split_ifs with hempty
      · rw [List.isEmpty_iff.mp hempty]
        rfl
      · rfl
    rwa [htext, hdrop, Text.trimEnd_concat_newline]

/-- A report has four rows, if its heading has one. -/
theorem lines_render {error : Error} (h : '\n' ∉ (heading error.kind).toList) {source : String}
    {line : Line} (hline : lineOf error source = line) :
    lines (render error source).toList =
      [(heading error.kind).toList, (margin (showNat line.number)).toList, lineRow line,
        caretRow line].map (· ++ ['\n']) := by
  have hrows : (render error source).toList =
      [(heading error.kind).toList, (margin (showNat line.number)).toList, lineRow line,
        caretRow line].flatMap (· ++ ['\n']) := by
    simp [render, hline, lineRow, label, caretRow]
  have hmargin : '\n' ∉ (margin (showNat line.number)).toList := by simp [margin]
  have hrow : '\n' ∉ lineRow line := by
    have hshown : '\n' ∉ (shown line).toList := by
      rw [← hline, lineOf, lineAt_eq_lineFrom]
      exact newline_not_mem_shown _ _ _
    simp [lineRow, label, newline_not_mem_showNat, hshown]
  have hcaret : '\n' ∉ caretRow line := by simp [caretRow, pointer, hmargin]
  rw [hrows, lines_flatMap (by simp [h, hmargin, hrow, hcaret])]

theorem indent_add_length (line : Line) :
    indent line + (line.text.dropWhile (· == ' ')).length = line.text.length := by
  rw [indent, ← List.length_append, List.takeWhile_append_dropWhile]

/-- A character that is no space is as far into the shown line as it is from the spaces that are
left out. -/
theorem getElem?_shown {line : Line} {c : Char} (h : line.text[line.offset]? = some c)
    (hc : isBlank c = false) :
    indent line ≤ line.offset ∧ (shown line).toList[line.offset - indent line]? = some c := by
  have hsplit := List.takeWhile_append_dropWhile (p := (· == ' ')) (l := line.text)
  have hle : indent line ≤ line.offset := by
    refine Nat.not_lt.mp fun hlt => ?_
    rw [← hsplit, List.getElem?_append_left hlt] at h
    have hspace := List.all_eq_true.mp List.all_takeWhile c (List.mem_of_getElem? h)
    rw [beq_iff_eq.mp hspace] at hc
    exact absurd hc (by decide)
  refine ⟨hle, ?_⟩
  rw [← hsplit, List.getElem?_append_right hle] at h
  rw [shown, String.toList_ofList]
  exact Text.getElem?_trimEnd h hc

end Report

/-! ### Headings -/

theorem Report.newline_not_mem_heading {kind : Error.Kind}
    (h : ∀ tip ∈ kind.tip, '\n' ∉ tip.toList) : '\n' ∉ (heading kind).toList := by
  have hname : '\n' ∉ kind.name.toList := by
    cases kind <;> simp [Error.Kind.name]
  unfold heading
  split
  · next tip htip => simp [hname, h tip htip]
  · simp [hname]

theorem Explained.newline_not_mem_heading {before : List Token} {text : String} {kind : Error.Kind}
    (h : Explained before text kind) : '\n' ∉ (Report.heading kind).toList := by
  refine Report.newline_not_mem_heading ?_
  intro tip htip
  cases h with
  | unknownUnary hsymbol _ =>
    have hsymbols : ∀ symbol ∈ Table.standard.symbols, '\n' ∉ symbol.toList := by decide
    cases htip
    simp [hsymbols text hsymbol]
  | unreadableNumber _ hdigits _ =>
    have htext : '\n' ∉ text.toList := fun hmem => absurd (hdigits _ hmem) (by decide)
    cases htip
    simp [htext]
  | strayRightParen | unclosedLeftParen | expectedOperator | expectedOperatorOrRightParen =>
    cases htip
    simp

/-! ### What is shown -/

/-- `Shows source row column position`: a column of a row shows a place in a source. -/
inductive Shows (source : String) (row : List Char) (column : Nat) : Option Nat → Prop where
  /-- The row is numbered as the line of the position, and has its character in the column. -/
  | character {position : Nat} {c : Char} : source.toList[position]? = some c →
      isBlank c = false →
      Report.label (1 + (source.toList.take position).count '\n') <+: row →
      row[column]? = some c → Shows source row column (some position)
  /-- The row is the last line, without the spaces before it and the blanks at its end. The column
  is where it ends with those blanks. -/
  | ending {label text : List Char} : label = Report.label (max 1 (lines source.toList).length) →
      text = (lastLine source.toList).dropWhile (· == ' ') → row = label ++ trimEnd text →
      column = label.length + text.length → Shows source row column none

/-! ### Places of errors -/

section

variable [WordClass]

/-- A token starts with a character that is not blank. -/
theorem Token.exists_getElem?_start {source : String} {token : Token} (h : token ∈ scan source) :
    ∃ c, source.toList[token.start]? = some c ∧ isBlank c = false := by
  rw [scan_eq_cut] at h
  have hlaid := laid_cut 0 source.toList
  obtain ⟨i, j, hholds⟩ := hlaid.holds token h
  have hspan := hholds.span
  have hstart : token.start = i := by simp [start, hspan]
  have hi : i < source.toList.length := Nat.lt_of_lt_of_le hholds.lt hholds.le
  have hchar := List.getElem?_eq_getElem hi
  rw [hstart]
  refine ⟨_, hchar, Bool.eq_false_iff.mpr fun hblank => ?_⟩
  refine (hlaid.blank_iff i _ hchar).mp hblank token h ?_
  rw [hspan]
  exact ⟨Nat.le_refl _, Nat.add_lt_add_left hholds.lt 0⟩

/-- An error that points at a place points at a token. -/
theorem Engine.exists_token_of_error {engine : Engine} {source : String} {error : Error}
    (h : engine.parseSource source = .error error) {position : Nat}
    (hposition : error.position = some position) :
    ∃ token ∈ scan source, token.start = position := by
  rcases parseSource_eq_error_iff.mp h with htokenize | ⟨hvalid, hparse⟩
  · obtain ⟨before, token, after, hsplit, -, -, rfl⟩ := Token.exists_of_tokenize_error htokenize
    exact ⟨token, by simp [hsplit], Option.some.inj hposition⟩
  · rcases explained_of_parse hvalid hparse with rfl | ⟨before, token, after, hsplit, hstart, -, -⟩
    · cases hposition
    · exact ⟨token, by simp [hsplit], Option.some.inj (hstart.symm.trans hposition)⟩

theorem Engine.newline_not_mem_heading {engine : Engine} {source : String} {error : Error}
    (h : engine.parseSource source = .error error) :
    '\n' ∉ (Report.heading error.kind).toList := by
  rcases parseSource_eq_error_iff.mp h with htokenize | ⟨hvalid, hparse⟩
  · obtain ⟨before, token, after, -, -, -, rfl⟩ := Token.exists_of_tokenize_error htokenize
    exact Report.newline_not_mem_heading nofun
  · rcases explained_of_parse hvalid hparse with rfl | ⟨before, token, after, -, -, -, hexplained⟩
    · refine Report.newline_not_mem_heading ?_
      rintro tip ⟨⟩
      simp
    · exact hexplained.newline_not_mem_heading

open Report in
/-- The row of the line has the place of the error over the caret. -/
theorem Engine.shows_of_error {engine : Engine} {source : String} {error : Error}
    (h : engine.parseSource source = .error error) {line : Line}
    (hline : lineOf error source = line) :
    indent line ≤ line.offset ∧
      Shows source (lineRow line) (caretColumn line) error.position := by
  cases hposition : error.position with
  | some position =>
    -- No blank starts a token, so the place is neither in front of the shown text nor trimmed.
    obtain ⟨token, hmem, rfl⟩ := exists_token_of_error h hposition
    obtain ⟨c, hchar, hblank⟩ := Token.exists_getElem?_start hmem
    obtain ⟨hnumber, htext⟩ := lineFrom_of_lt 1 (List.getElem?_eq_some_iff.mp hchar).1
    rw [lineOf, hposition, Option.getD_some, lineAt_eq_lineFrom] at hline
    rw [hline] at hnumber htext
    obtain ⟨hle, hshown⟩ := getElem?_shown (htext.trans hchar) hblank
    refine ⟨hle, .character hchar hblank ?_ ?_⟩
    · rw [lineRow, hnumber]
      exact List.prefix_append _ _
    · rw [lineRow, caretColumn, List.getElem?_append_right (Nat.le_add_right _ _),
        Nat.add_sub_cancel_left]
      exact hshown
  | none =>
    -- The place is the end of the last line, and the shown text may be trimmed before it.
    have hend : source.toList.length ≤ source.length := Nat.le_of_eq String.length_toList
    rw [lineOf, hposition, Option.getD_none, lineAt_eq_lineFrom,
      lineFrom_of_length_le 1 hend] at hline
    have hnumber : line.number = max 1 (lines source.toList).length := by
      simp only [← hline]
      omega
    have htext : line.text = lastLine source.toList := by rw [← hline]
    have hoffset : line.offset = line.text.length := by rw [← hline]
    have hlength := indent_add_length line
    rw [← hoffset] at hlength
    refine ⟨Nat.le.intro hlength, .ending (congrArg label hnumber) (congrArg _ htext) ?_ ?_⟩
    · rw [lineRow, shown, String.toList_ofList]
    · rw [caretColumn, ← hlength, Nat.add_sub_cancel_left]

/-- **A report shows where its error is.** Let an engine fail on a source. The report of the error
has four rows, and the caret of the last one is under the character that the error points at, on
the line after as many newlines as are before it. If the error points nowhere, the caret is after
the last line. No place is among the spaces that are left out before it. -/
theorem Engine.exists_lines_render {engine : Engine} {source : String} {error : Error}
    (h : engine.parseSource source = .error error) :
    ∃ first second third fourth column,
      lines (Report.render error source).toList =
        [first, second, third, fourth].map (· ++ ['\n']) ∧
      Report.CaretAt fourth column ∧ Shows source third column error.position ∧
      Report.indent (Report.lineOf error source) ≤ (Report.lineOf error source).offset := by
  obtain ⟨hindent, hshows⟩ := shows_of_error h rfl
  exact ⟨_, _, _, _, _, Report.lines_render (newline_not_mem_heading h) rfl,
    Report.caretAt_caretRow _, hshows, hindent⟩

end

/-- In the second line of this text, the caret is under the `3`, which no operator precedes. -/
theorem Engine.lines_render_missing_operator :
    Engine.frames.parseSource "1 +\n  2 3\n" = .error (.positioned 8 .expectedOperator) ∧
      ∃ first second third fourth column,
        lines (Report.render (.positioned 8 .expectedOperator) "1 +\n  2 3\n").toList =
          [first, second, third, fourth].map (· ++ ['\n']) ∧
        Report.CaretAt fourth column ∧ third[column]? = some '3' ∧ Report.label 2 <+: third := by
  have hparse : Engine.frames.parseSource "1 +\n  2 3\n" =
      .error (.positioned 8 .expectedOperator) := by
    decide +kernel
  refine ⟨hparse, ?_⟩
  obtain ⟨first, second, third, fourth, column, hlines, hcaret, hshows, -⟩ :=
    Engine.exists_lines_render hparse
  refine ⟨first, second, third, fourth, column, hlines, hcaret, ?_⟩
  cases hshows with
  | character hchar _ hlabel hthird =>
    have hthree : "1 +\n  2 3\n".toList[8]? = some '3' := by decide +kernel
    have hnumber : 1 + ("1 +\n  2 3\n".toList.take 8).count '\n' = 2 := by decide +kernel
    rw [← hchar, hthree] at hthird
    rw [hnumber] at hlabel
    exact ⟨hthird, hlabel⟩

end Reckoner
