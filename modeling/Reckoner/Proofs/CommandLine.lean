import Reckoner.Cli
import Reckoner.Proofs.Source

/-!
What the calculator answers on its command line.

The engines agree on every source text, so their answers differ in their names
only (`exists_answer`), and all of them together succeed or fail. Choosing an engine
takes nothing else from the arguments, wherever the choice stands among them
(`Plan.ofArgs_of_choice`).
-/

namespace Reckoner

/-- All engines make the same of a source text. -/
theorem Engine.parseSource_eq [WordClass] (engine other : Engine) (source : String) :
    engine.parseSource source = other.parseSource source := by
  simp only [parseSource, parse_standard]

namespace Cli

/-! ### Answers -/

/-- The answers of the engines to a source text begin with their names and go on alike. They are
fine if the text has a tree and the tree has a value. -/
theorem exists_answer [WordClass] (source : String) :
    ∃ answer : Output,
      (∀ engine : Engine,
        evaluate source engine = { answer with out := engine.name ++ answer.out }) ∧
      ∀ engine : Engine, answer.ok = true ↔
        ∃ expr value, engine.parseSource source = .ok expr ∧ expr.eval = .ok value := by
  have hagree (engine : Engine) := engine.parseSource_eq .climbing source
  cases hparse : Engine.climbing.parseSource source with
  | error error =>
    refine ⟨⟨" errored: " ++ error.message ++ "\n", Report.render error source, false⟩, ?_, ?_⟩
    · intro engine
      simp [evaluate, hagree, hparse, String.append_assoc]
    · intro engine
      simp [hagree, hparse]
  | ok expr =>
    cases hvalue : expr.eval with
    | error error =>
      refine ⟨⟨" errored: " ++ error.message ++ "\n" ++ ("   s-exp: " ++ expr.sexpr ++ "\n"), "",
        false⟩, ?_, ?_⟩
      · intro engine
        simp [evaluate, hagree, hparse, hvalue, String.append_assoc]
      · intro engine
        simp [hagree, hparse, hvalue]
    | ok value =>
      refine ⟨⟨" evaluated to " ++ Text.showInt value.toInt ++ "\n" ++
        ("   s-exp: " ++ expr.sexpr ++ "\n"), "", true⟩, ?_, ?_⟩
      · intro engine
        simp [evaluate, hagree, hparse, hvalue, String.append_assoc]
      · intro engine
        simp [hagree, hparse, hvalue]

theorem code_eq_zero_iff (output : Output) : output.code = 0 ↔ output.ok = true := by
  cases hok : output.ok <;> simp [Output.code, hok]

/-! ### Plans -/

theorem Plan.ofWords_of_ne_nil {words : List String} (hne : words ≠ []) (engines : List Engine) :
    ofWords engines words = .evaluate engines (" ".intercalate words) := by
  simp [ofWords, hne]

/-- No word of the arguments before a choice ends the search for it. -/
theorem bne_strategy_of_not_mem {words : List String} (hplain : "--strategy" ∉ words) :
    ∀ word ∈ words, (word != "--strategy") = true := by
  intro word hmem
  exact bne_iff_ne.mpr fun heq => hplain (heq ▸ hmem)

/-- Arguments without a choice are an expression for all engines. -/
theorem Plan.ofArgs_of_not_mem {args : List String} (hne : args ≠ [])
    (hplain : "--strategy" ∉ args) :
    Plan.ofArgs args = .evaluate Engine.all (" ".intercalate args) := by
  have hdrop : (args ++ []).dropWhile (· != "--strategy") = [] :=
    List.dropWhile_append_of_pos (bne_strategy_of_not_mem hplain)
  rw [List.append_nil] at hdrop
  simp only [ofArgs, hdrop]
  exact ofWords_of_ne_nil hne _

/-- A choice of an engine is taken out of the arguments, which are an expression for that engine
alone. -/
theorem Plan.ofArgs_of_choice {before after : List String} (hne : before ++ after ≠ [])
    (hplain : "--strategy" ∉ before) {word : String} {engine : Engine}
    (hword : Engine.ofKeyword? word = some engine) :
    Plan.ofArgs (before ++ "--strategy" :: word :: after) =
      .evaluate [engine] (" ".intercalate (before ++ after)) := by
  have hbefore := bne_strategy_of_not_mem hplain
  have htake : (before ++ "--strategy" :: word :: after).takeWhile (· != "--strategy") =
      before := by
    simp [List.takeWhile_append_of_pos hbefore]
  have hdrop : (before ++ "--strategy" :: word :: after).dropWhile (· != "--strategy") =
      "--strategy" :: word :: after := by
    simp [List.dropWhile_append_of_pos hbefore]
  simp only [ofArgs, htake, hdrop, hword]
  exact ofWords_of_ne_nil hne _

/-! ### Runs -/

def choices : List (String × Engine) :=
  [("recursive", .climbing), ("iterative", .frames), ("shunting-yard", .shuntingYard)]

theorem ofKeyword?_of_mem_choices :
    ∀ choice ∈ choices, Engine.ofKeyword? choice.1 = some choice.2 := by
  decide

/-- **The engines answer alike, together and one by one.** Let arguments be given, and no choice of
an engine among them. Then the output is the answer of each engine in turn, the same but for its
name; the error output is the same report three times; and the exit code is 0 exactly if the
arguments, joined by spaces, have a tree and it has a value. With a choice of an engine anywhere
among the arguments, the output is the answer of that engine, the error output is the report
once, and the exit code is the same. Lines that are entered have no say in any of it. -/
theorem run_args_eq_answers [WordClass] {args : List String} (hne : args ≠ [])
    (hplain : "--strategy" ∉ args) (lines : List String) :
    ∃ tail report : String,
      (runOn args lines).out =
          Engine.climbing.name ++ tail ++ (Engine.frames.name ++ tail) ++
            (Engine.shuntingYard.name ++ tail) ∧
        (runOn args lines).err = report ++ report ++ report ∧
        (∀ engine : Engine, (runOn args lines).code = 0 ↔
          ∃ expr value, engine.parseSource (" ".intercalate args) = .ok expr ∧
            expr.eval = .ok value) ∧
        ∀ choice ∈ choices, ∀ i ≤ args.length,
          let chosen := runOn (args.take i ++ ["--strategy", choice.1] ++ args.drop i) lines
          chosen.out = choice.2.name ++ tail ∧ chosen.err = report ∧
            chosen.code = (runOn args lines).code := by
  obtain ⟨answer, hanswer, hok⟩ := exists_answer (" ".intercalate args)
  have hrun : runOn args lines =
      ⟨Engine.climbing.name ++ answer.out ++ (Engine.frames.name ++ answer.out) ++
        (Engine.shuntingYard.name ++ answer.out), answer.err ++ answer.err ++ answer.err,
        answer.ok⟩ := by
    simp [runOn, Plan.ofArgs_of_not_mem hne hplain, evaluateAll, hanswer, Output.concat,
      Output.append, Engine.all]
  refine ⟨answer.out, answer.err, ?_, ?_, ?_, ?_⟩
  · rw [hrun]
  · rw [hrun]
  · intro engine
    rw [code_eq_zero_iff, hrun]
    exact hok engine
  · intro choice hmem i _
    have hword := ofKeyword?_of_mem_choices choice hmem
    have hsplit : args.take i ++ args.drop i = args := List.take_append_drop i args
    have hbefore : "--strategy" ∉ args.take i := fun h => hplain (List.mem_of_mem_take h)
    have hplan := Plan.ofArgs_of_choice (hsplit.symm ▸ hne) hbefore hword
    have hchosen : runOn (args.take i ++ ["--strategy", choice.1] ++ args.drop i) lines =
        { answer with out := choice.2.name ++ answer.out } := by
      rw [List.append_assoc, List.cons_append, List.singleton_append, runOn, hplan, hsplit]
      simp [evaluateAll, hanswer, Output.concat, Output.append]
    rw [hchosen, hrun]
    exact ⟨rfl, rfl, rfl⟩

/-- For `(1 +`, which misses an operand, the choice of an engine may stand between the two words. -/
theorem run_unfinished_words :
    ["(1", "+"] ≠ [] ∧ "--strategy" ∉ ["(1", "+"] ∧
      ∃ report, (run ["(1", "+"] "").err = report ++ report ++ report ∧
        (run ["(1", "--strategy", "iterative", "+"] "").err = report := by
  have hne : ["(1", "+"] ≠ [] := by decide
  have hplain : "--strategy" ∉ ["(1", "+"] := by decide
  obtain ⟨tail, report, _, herr, _, hchosen⟩ := run_args_eq_answers hne hplain []
  have hchoice : ("iterative", .frames) ∈ choices := by decide
  exact ⟨hne, hplain, report, herr, (hchosen _ hchoice 1 (by decide)).2.1⟩

end Cli

end Reckoner
