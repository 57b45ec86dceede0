import SumExpr.Proofs.Report.ReadBack
import SumExpr.Proofs.Scan.Mistake
import SumExpr.Proofs.Session.Agreement

/-! # One line for each expression

A report puts a line feed behind every result line. Whether that makes one line for each expression
is up to the expressions: they stand in their result lines as they are, line feeds included, so a
result line is printed as one line more than its expression holds line feeds. What is read as lines
of an input holds none. An argument may hold as many as it likes, and with them it makes up whole
result lines of its own (`resultLine_chained`). -/
namespace SumExpr

/-! ## Line feeds in result lines -/

theorem length_segments_resultLine (expr : Text) (valid : Bool) :
    (resultLine expr valid).segments.length = expr.count '\n' + 1 := by
  rw [Text.length_segments, count_feed_resultLine]

theorem feed_notMem_resultLines_iff {exprs : List Text} :
    (∀ l ∈ exprs.map (fun e => resultLine e (isValid e)), '\n' ∉ l) ↔ ∀ e ∈ exprs, '\n' ∉ e := by
  simp only [List.forall_mem_map, feed_mem_resultLine_iff]

theorem isValid_of_feed_mem {expr : Text} (h : '\n' ∈ expr) : isValid expr = false :=
  isValid_eq_false_of_other h rfl

/-! ## Whole reports -/

section Succeeding

variable {limit : Int} {exprs : List Text} (hok : (report limit exprs).exit = .ok)

include hok

theorem report_printed_of_ok :
    (report limit exprs).printed = .ofLines (exprs.map fun e => resultLine e (isValid e)) := by
  rw [Report.printed, report_lines, report_exit_eq_ok_iff.mp hok]

theorem consistsOf_printed :
    (report limit exprs).printed.ConsistsOf
      (exprs.flatMap fun e => (resultLine e (isValid e)).segments) := by
  have hsegments := Text.consistsOf_segments (exprs.map fun e => resultLine e (isValid e))
  rw [List.flatMap_map] at hsegments
  rwa [report_printed_of_ok hok]

theorem consistsOf_resultLines_iff :
    (report limit exprs).printed.ConsistsOf (exprs.map fun e => resultLine e (isValid e)) ↔
      ∀ e ∈ exprs, '\n' ∉ e := by
  rw [← feed_notMem_resultLines_iff]
  exact ⟨fun h => h.whole, fun h => ⟨report_printed_of_ok hok, h⟩⟩

/-- The number alone tells whether an expression has broken its line. -/
theorem exists_as_many_lines_iff :
    (∃ ls, (report limit exprs).printed.ConsistsOf ls ∧ ls.length = exprs.length) ↔
      ∀ e ∈ exprs, '\n' ∉ e := by
  have hmany := Text.exists_consistsOf_iff (exprs.map fun e => resultLine e (isValid e))
  rw [List.length_map, feed_notMem_resultLines_iff] at hmany
  rwa [report_printed_of_ok hok]

end Succeeding

/-! ## Result lines within an expression -/

/-- An expression that makes up result lines with these contents before that of `expr`. It begins
behind the opening of the first one and ends before the closing of the last. -/
def chained (expr : Text) : List (Text × Bool) → Text
  | [] => expr
  | r :: rs => r.1 ++ (resultClosing r.2 ++ '\n' :: (resultOpening ++ chained expr rs))

theorem resultLine_chained (expr : Text) (valid : Bool) (rs : List (Text × Bool)) :
    resultLine (chained expr rs) valid ++ ['\n'] =
      .ofLines ((rs ++ [(expr, valid)]).map fun r => resultLine r.1 r.2) := by
  induction rs with
  | nil => simp [chained, Text.ofLines]
  | cons r rs ih =>
    have hfirst : resultLine (chained expr (r :: rs)) valid =
        resultLine r.1 r.2 ++ '\n' :: resultLine (chained expr rs) valid := by
      simp [chained, resultLine_eq]
    rw [hfirst, List.append_assoc, List.cons_append, ih]
    simp [Text.ofLines]

theorem feed_mem_chained (expr : Text) {rs : List (Text × Bool)} (h : rs ≠ []) :
    '\n' ∈ chained expr rs := by
  obtain ⟨r, rs, rfl⟩ := List.exists_cons_of_ne_nil h
  simp [chained]

/-- Any result lines at all, with whatever verdicts, are what the report on one expression prints,
if the last of them says no. -/
theorem exists_expression_of_resultLines {rs : List (Text × Bool)} (h : rs ≠ []) (expr : Text) :
    ∃ f : Text, ∀ limit : Int, (f.length : Int) ≤ limit →
      (report limit [f]).exit = .ok ∧
        (report limit [f]).printed =
          .ofLines ((rs ++ [(expr, false)]).map fun r => resultLine r.1 r.2) := by
  refine ⟨chained expr rs, ?_⟩
  intro limit hfits
  have hinvalid := isValid_of_feed_mem (feed_mem_chained expr h)
  rw [report_cons_of_le hfits, ← resultLine_chained, hinvalid]
  exact ⟨rfl, List.flatMap_singleton _ _⟩

/-! ## Expressions behind the bare `--` -/

namespace Session
open Arguments (parse separator Phrase Invocation Settings)

/-- The limit that phrases set. -/
def limitOf (phrases : List Phrase) : Nat :=
  (phrases.filterMap Phrase.limit?).getLast?.getD Limit.standard

/-- Behind the bare `--` any list may stand, and if it is not empty it is reported on. -/
theorem single_arguments {phrases : List Phrase} (h : ∀ p ∈ phrases, SetsOnly p) {exprs : List Text}
    (hne : exprs ≠ []) (input : Input) :
    (single (phrases.flatMap Phrase.tokens ++ separator :: exprs) input).ending =
        .returned (report (limitOf phrases) exprs).exit ∧
      (single (phrases.flatMap Phrase.tokens ++ separator :: exprs) input).printed =
        tablePart ⟨.ofItems (phrases.map Phrase.item), exprs⟩ ++
          (report (limitOf phrases) exprs).printed := by
  rw [single_of_ok (parse_arguments h exprs)]
  simp only [Run.recorded, execute, chosen_arguments h hne, Phrase.maxLength_ofItems]
  exact ⟨rfl, rfl⟩

/-- What the lines of a report that succeeds have to do with its expressions. -/
structure LinesOf (limit : Int) (exprs : List Text) : Prop where
  /-- The result lines are the lines of the report. -/
  one_each_iff : (report limit exprs).printed.ConsistsOf
    (exprs.map fun e => resultLine e (isValid e)) ↔ ∀ e ∈ exprs, '\n' ∉ e
  as_many_iff : (∃ ls, (report limit exprs).printed.ConsistsOf ls ∧ ls.length = exprs.length) ↔
    ∀ e ∈ exprs, '\n' ∉ e
  segments : (report limit exprs).printed.ConsistsOf
    (exprs.flatMap fun e => (resultLine e (isValid e)).segments)
  /-- Each line feed makes a line more, in the result line of an expression that is not valid. -/
  line_more : ∀ e ∈ exprs, (resultLine e (isValid e)).segments.length = e.count '\n' + 1 ∧
    ('\n' ∈ e → isValid e = false)
  of_input : ∀ input : Input, input.lines = .ok exprs → ∀ e ∈ exprs, '\n' ∉ e
  /-- Any list of expressions may stand behind the bare `--`. -/
  of_arguments : ∀ (phrases : List Phrase) (input : Input), (∀ p ∈ phrases, SetsOnly p) →
    limitOf phrases = limit → exprs ≠ [] →
      (single (phrases.flatMap Phrase.tokens ++ separator :: exprs) input).ending = .returned .ok ∧
      (single (phrases.flatMap Phrase.tokens ++ separator :: exprs) input).printed =
        tablePart ⟨.ofItems (phrases.map Phrase.item), exprs⟩ ++ (report limit exprs).printed
  /-- One expression can make up any lines before the one that tells its verdict. -/
  made_up : ∀ (rs : List (Text × Bool)) (e : Text), rs ≠ [] →
    ∃ f : Text, ∀ enough : Int, f.length ≤ enough →
      (report enough [f]).exit = .ok ∧
      (report enough [f]).printed =
        .ofLines ((rs ++ [(e, false)]).map fun r => resultLine r.1 r.2)

/-- **There is one line for each expression just if no expression holds a line feed.** A report that
succeeds consists of the segments of its result lines, one after another. These are the result lines
themselves, or at least as many as the expressions, just if no expression holds a line feed. The
lines of an input hold none, but an argument may; and a single one can make up whatever result lines
and verdicts it likes, so long as the last one says no. -/
theorem one_line_per_expression_iff (limit : Int) (exprs : List Text)
    (hok : (report limit exprs).exit = .ok) : LinesOf limit exprs := by
  constructor
  case one_each_iff => exact consistsOf_resultLines_iff hok
  case as_many_iff => exact exists_as_many_lines_iff hok
  case segments => exact consistsOf_printed hok
  case line_more =>
    intro e _
    exact ⟨length_segments_resultLine e (isValid e), isValid_of_feed_mem⟩
  case of_input =>
    intro input hlines
    exact feed_notMem_input hlines
  case of_arguments =>
    intro phrases input h hlimit hne
    obtain ⟨hending, hprinted⟩ := single_arguments h hne input
    rw [hlimit] at hending hprinted
    exact ⟨by rw [hending, hok], hprinted⟩
  case made_up =>
    intro rs e h
    exact exists_expression_of_resultLines h e

/-- The second of these arguments is printed as two lines. -/
theorem one_line_per_expression_iff_sample :
    (report 5 ["1+2".toList, "3\n4".toList]).printed.ConsistsOf
      ["Is \"1+2\" a valid expression? Yes".toList, "Is \"3".toList,
        "4\" a valid expression? No".toList] ∧
    (¬ ∃ ls, (report 5 ["1+2".toList, "3\n4".toList]).printed.ConsistsOf ls ∧ ls.length = 2) ∧
    (single (["--max-length", "5", "--", "1+2", "3\n4"].map String.toList) (.text [])).ending =
      .returned .ok ∧
    ∃ f : Text, (report f.length [f]).printed =
      "Is \"1+2\" a valid expression? No\nIs \"3\" a valid expression? No\n".toList := by
  have hok : (report 5 ["1+2".toList, "3\n4".toList]).exit = .ok := by decide
  have hlines := one_line_per_expression_iff 5 _ hok
  have hsets : ∀ p ∈ [Phrase.limitApart (wholeName .maxLength) (.ofNat 5 (by decide))],
      SetsOnly p := by
    intro p hp
    obtain rfl := List.mem_singleton.mp hp
    exact ⟨rfl, by decide⟩
  refine ⟨hlines.segments, ?_, ?_, ?_⟩
  · exact fun h => hlines.as_many_iff.mp h "3\n4".toList (by decide) (by decide)
  · exact (hlines.of_arguments _ (.text []) hsets rfl (by decide)).1
  · obtain ⟨f, hf⟩ := hlines.made_up [("1+2".toList, false)] "3".toList (by decide)
    exact ⟨f, (hf f.length (Int.le_refl _)).2⟩

/-- An argument with a line feed in it has two lines printed for it, where there should be one. -/
theorem feed_in_argument_breaks_its_line :
    parse ["--".toList, "1\n2".toList] =
      .ok ⟨⟨false, false, false, .atMost 4096⟩, ["1\n2".toList]⟩ ∧
    (report 4096 ["1\n2".toList]).exit = .ok ∧
    (single ["--".toList, "1\n2".toList] (.text [])).printed =
      "Is \"1\n2\" a valid expression? No\n".toList ∧
    ¬ ∃ ls, (single ["--".toList, "1\n2".toList] (.text [])).printed.ConsistsOf ls ∧
      ls.length = 1 := by
  have hprinted : (single ["--".toList, "1\n2".toList] (.text [])).printed =
      "Is \"1\n2\" a valid expression? No\n".toList := by decide
  refine ⟨rfl, by decide, hprinted, ?_⟩
  rw [hprinted]
  rintro ⟨ls, h, hone⟩
  have hcount := h.length_eq
  rw [hone] at hcount
  revert hcount
  decide

end Session
end SumExpr
