import SumExpr.Proofs.Arguments.Phrase
import SumExpr.Proofs.Session.Outcome
import SumExpr.Proofs.Text.Lines

/-! # Expressions as arguments and as lines

The same expressions may be given behind the bare `--` or as lines of the input. With the same
settings otherwise, there is no difference in what the run prints, how it ends and what it records:
a run depends on its expressions only through the list of them (`execute_congr`). -/
namespace SumExpr.Session
open Arguments (parse separator closing Phrase Name Item Settings Invocation)

/-- A phrase that sets something, but neither is an expression nor asks for the input. -/
structure SetsOnly (p : Phrase) : Prop where
  no_expression : p.expression? = none
  no_stdin : p.switch? ≠ some .stdin

/-- The long name as it is. -/
def wholeName (o : Arguments.Choice) : Name o where
  stem := o.name
  ne_nil := by cases o <;> decide
  start := List.prefix_refl o.name

/-- The option that asks for the input, in full. -/
def stdinPhrase : Phrase := .switch .stdin (wholeName .stdin)

theorem execute_congr {inv other : Invocation} {input piped : Input}
    (htable : inv.settings.table = other.settings.table)
    (hlimit : inv.settings.maxLength = other.settings.maxLength)
    (hchosen : chosen inv input = chosen other piped) :
    execute inv input = execute other piped := by
  simp only [execute, htable, hlimit, hchosen]

variable {phrases : List Phrase}

theorem parse_arguments (h : ∀ p ∈ phrases, SetsOnly p) (exprs : List Text) :
    parse (phrases.flatMap Phrase.tokens ++ separator :: exprs) =
      .ok ⟨.ofItems (phrases.map Phrase.item), exprs⟩ := by
  have hnone : phrases.filterMap Phrase.expression? = [] :=
    List.filterMap_eq_nil_iff.mpr fun p hp => (h p hp).no_expression
  have hparse := Phrase.parse_phrases phrases (some exprs)
  rw [hnone] at hparse
  exact hparse

/-- The option for the input adds nothing to the settings but what it is for. -/
theorem parse_stdin (h : ∀ p ∈ phrases, SetsOnly p) :
    parse (phrases.flatMap Phrase.tokens ++ ["--stdin".toList]) =
      .ok ⟨{ Settings.ofItems (phrases.map Phrase.item) with stdin := true }, []⟩ := by
  have hnone : (phrases ++ [stdinPhrase]).filterMap Phrase.expression? = [] := by
    refine List.filterMap_eq_nil_iff.mpr ?_
    intro p hp
    rcases List.mem_append.mp hp with hp | hp
    · exact (h p hp).no_expression
    · obtain rfl := List.mem_singleton.mp hp
      rfl
  have hsettings : Settings.ofItems ((phrases ++ [stdinPhrase]).map Phrase.item) =
      { Settings.ofItems (phrases.map Phrase.item) with stdin := true } := by
    simp [Settings.ofItems, stdinPhrase, Phrase.item, Item.switchesOn, Item.limit?,
      Arguments.Switch.choice, List.filterMap_append]
  have htokens : (phrases ++ [stdinPhrase]).flatMap Phrase.tokens ++ closing none =
      phrases.flatMap Phrase.tokens ++ ["--stdin".toList] := by
    rw [closing, List.append_nil, List.flatMap_append]
    rfl
  have hparse := Phrase.parse_phrases (phrases ++ [stdinPhrase]) none
  rw [htokens, hnone, hsettings] at hparse
  exact hparse

theorem stdin_off (h : ∀ p ∈ phrases, SetsOnly p) :
    (Settings.ofItems (phrases.map Phrase.item)).stdin = false := by
  rw [← Bool.not_eq_true]
  intro hon
  obtain ⟨p, hp, hstdin⟩ := (Phrase.any_switchesOn_iff phrases .stdin).mp hon
  exact (h p hp).no_stdin hstdin

/-- Expressions behind the bare `--` are chosen, and the input is not looked at. -/
theorem chosen_arguments (h : ∀ p ∈ phrases, SetsOnly p) {exprs : List Text} (hne : exprs ≠ [])
    (input : Input) :
    chosen ⟨Settings.ofItems (phrases.map Phrase.item), exprs⟩ input = .ok exprs := by
  simp [chosen, stdin_off h, hne]

/-- Expressions behind the bare `--` and an input with these lines make the same run. -/
theorem single_arguments_eq_stdin (h : ∀ p ∈ phrases, SetsOnly p) {exprs : List Text}
    (hne : exprs ≠ []) {text : Text} (hlines : text.lines = exprs) (input : Input) :
    single (phrases.flatMap Phrase.tokens ++ separator :: exprs) input =
      single (phrases.flatMap Phrase.tokens ++ ["--stdin".toList]) (.text text) := by
  rw [single_of_ok (parse_arguments h exprs), single_of_ok (parse_stdin h)]
  have hexecute : execute ⟨Settings.ofItems (phrases.map Phrase.item), exprs⟩ input =
      execute ⟨{ Settings.ofItems (phrases.map Phrase.item) with stdin := true }, []⟩
        (.text text) := by
    refine execute_congr rfl rfl ?_
    rw [chosen_arguments h hne, chosen, if_pos rfl, Input.lines_text, hlines]
  rw [hexecute]
  rfl

/-- **Arguments and lines agree.** Expressions without line feeds may be given behind the bare `--`,
or in the input, each ended by a carriage return and a line feed: the runs print the same, return
the same and record the same. With line feeds alone it is so if no expression ends in a carriage
return. -/
theorem arguments_and_lines_agree (phrases : List Phrase) (h : ∀ p ∈ phrases, SetsOnly p)
    (exprs : List Text) (hne : exprs ≠ []) (hfeed : ∀ e ∈ exprs, '\n' ∉ e) (input : Input) :
    (∃ exit, (single (phrases.flatMap Phrase.tokens ++ separator :: exprs) input).ending =
      .returned exit) ∧
    single (phrases.flatMap Phrase.tokens ++ separator :: exprs) input =
      single (phrases.flatMap Phrase.tokens ++ ["--stdin".toList])
        (.text (exprs.flatMap (· ++ ['\r', '\n']))) ∧
    ((∀ e ∈ exprs, e.getLast? ≠ some '\r') →
      single (phrases.flatMap Phrase.tokens ++ separator :: exprs) input =
        single (phrases.flatMap Phrase.tokens ++ ["--stdin".toList])
          (.text (exprs.flatMap (· ++ ['\n'])))) := by
  have hcrlf := single_arguments_eq_stdin h hne (Text.lines_crlf hfeed) input
  refine ⟨?_, hcrlf, ?_⟩
  · have hread : (Input.text (exprs.flatMap (· ++ ['\r', '\n']))).lines = .ok exprs := by
      rw [Input.lines_text, Text.lines_crlf hfeed]
    obtain ⟨_, exit, hreturned, _⟩ :=
      single_of_limit (parse_stdin h) hread (Phrase.maxLength_ofItems phrases)
    exact ⟨exit, by rw [hcrlf, hreturned]⟩
  · intro hreturn
    exact single_arguments_eq_stdin h hne (Text.lines_ofLines_of_no_return hfeed hreturn) input

theorem arguments_and_lines_agree_sample :
    single
        (["--table", "-v", "--max-length", "3", "--", "-v", "", "1\r", "12345"].map String.toList)
        (.text []) =
      single (["--table", "-v", "--max-length", "3", "--stdin"].map String.toList)
        (.text "-v\r\n\r\n1\r\r\n12345\r\n".toList) :=
  (arguments_and_lines_agree
    [.switch .table (wholeName .table), .verbose 0,
      .limitApart (wholeName .maxLength) (.ofNat 3 (by decide))]
    (by
      intro p hp
      simp only [List.mem_cons, List.not_mem_nil, or_false] at hp
      rcases hp with rfl | rfl | rfl <;> exact ⟨rfl, by decide⟩)
    (["-v", "", "1\r", "12345"].map String.toList) (by decide) (by decide) (.text [])).2.1

end SumExpr.Session
