import SumExpr.Proofs.Arguments.Items
import SumExpr.Proofs.Report
import SumExpr.Session

/-! # What a run prints and how it ends

A command line that was understood has its selected expressions reported on, behind the matrix if
that is asked for; one that was not is answered without a look at the input. In between is a limit
that was dropped (`DropsLimit`): no length can be compared with it, so the run breaks off at the
first expression. -/
namespace SumExpr.Session
open Arguments (parse head Invocation Stop DropsLimit)

/-! ## Runs by what was understood -/

theorem single_of_ok {argv : List Text} {inv : Invocation} (h : parse argv = .ok inv)
    (input : Input) :
    single argv input = (execute inv input).recorded (level inv.settings) := by
  rw [single, call, h]
  rfl

theorem single_of_error {argv : List Text} {stop : Stop} (h : parse argv = .error stop)
    (input : Input) : single argv input = .ofStop stop := by
  rw [single, call, h]

/-- What is checked if the input has these lines. Lines that are asked for go before expressions
that are given, and those before the samples. -/
def selected (inv : Invocation) (lines : List Text) : List Text :=
  if inv.settings.stdin then lines
  else if inv.expressions = [] then samples
  else inv.expressions

theorem chosen_of_lines {inv : Invocation} {input : Input} {lines : List Text}
    (h : input.lines = .ok lines) : chosen inv input = .ok (selected inv lines) := by
  unfold chosen selected
  split
  · exact h
  · rfl

/-- The matrix, if it is asked for. -/
def tablePart (inv : Invocation) : Text := if inv.settings.table then Matrix.printed else []

/-! ## Reports within a run -/

theorem reportOn_empty_printed (exprs : List Text) : (reportOn .empty exprs).printed = [] := by
  cases exprs <;> rfl

theorem reportOn_empty_ending (exprs : List Text) :
    (reportOn .empty exprs).ending = if exprs = [] then .returned .ok else .escaped .noLimit := by
  cases exprs with
  | nil => rfl
  | cons e rest => rw [if_neg (List.cons_ne_nil e rest)]; rfl

theorem report_exit_code (n : Nat) (exprs : List Text) :
    (report n exprs).exit.code = if fitting n exprs = exprs then 0 else 2 := by
  rw [report_exit]
  split <;> rfl

/-! ## Command lines that were understood -/

section Understood

variable {argv : List Text} {inv : Invocation} {input : Input} {lines : List Text}

theorem single_printed (hparse : parse argv = .ok inv) (hlines : input.lines = .ok lines) :
    (single argv input).printed =
      tablePart inv ++ (reportOn inv.settings.maxLength (selected inv lines)).printed := by
  rw [single_of_ok hparse]
  simp only [Run.recorded, execute, chosen_of_lines hlines, tablePart]

theorem single_ending (hparse : parse argv = .ok inv) (hlines : input.lines = .ok lines) :
    (single argv input).ending =
      (reportOn inv.settings.maxLength (selected inv lines)).ending := by
  rw [single_of_ok hparse]
  simp only [Run.recorded, execute, chosen_of_lines hlines]

/-- With a limit, the lines are those of the expressions before the first that is too long. -/
theorem single_of_limit (hparse : parse argv = .ok inv) (hlines : input.lines = .ok lines) {n : Nat}
    (hlimit : inv.settings.maxLength = .atMost n) :
    (single argv input).printed = tablePart inv ++
        (fitting n (selected inv lines)).flatMap (fun e => resultLine e (isValid e) ++ ['\n']) ∧
      ∃ exit, (single argv input).ending = .returned exit ∧
        exit.code = if fitting n (selected inv lines) = selected inv lines then 0 else 2 := by
  rw [single_printed hparse hlines, single_ending hparse hlines, hlimit]
  refine ⟨?_, (report n (selected inv lines)).exit, rfl, report_exit_code n _⟩
  show tablePart inv ++ (report n (selected inv lines)).printed = _
  rw [report_printed]

/-- Without one, not even the first expression is reported on. -/
theorem single_of_no_limit (hparse : parse argv = .ok inv) (hlines : input.lines = .ok lines)
    (hlimit : inv.settings.maxLength = .empty) :
    (single argv input).printed = tablePart inv ∧
      (single argv input).ending =
        if selected inv lines = [] then .returned .ok else .escaped .noLimit := by
  rw [single_printed hparse hlines, single_ending hparse hlines, hlimit, reportOn_empty_printed,
    reportOn_empty_ending, List.append_nil]
  exact ⟨rfl, rfl⟩

theorem single_returns_iff (hparse : parse argv = .ok inv) (hlines : input.lines = .ok lines) :
    (∃ exit, (single argv input).ending = .returned exit) ↔
      ¬ (DropsLimit (head argv) ∧ selected inv lines ≠ []) := by
  rw [← Arguments.maxLength_eq_empty_iff hparse]
  cases hlimit : inv.settings.maxLength with
  | atMost n =>
    obtain ⟨_, exit, hreturned, _⟩ := single_of_limit hparse hlines hlimit
    exact iff_of_true ⟨exit, hreturned⟩ (by simp)
  | empty =>
    obtain ⟨_, hending⟩ := single_of_no_limit hparse hlines hlimit
    rw [hending]
    by_cases hnil : selected inv lines = []
    · rw [if_pos hnil]
      exact iff_of_true ⟨.ok, rfl⟩ fun h => h.2 hnil
    · rw [if_neg hnil]
      exact iff_of_false (by simp) fun h => h ⟨rfl, hnil⟩

end Understood

/-! ## Command lines that were not -/

theorem single_of_stop {argv : List Text} {stop : Stop} (h : parse argv = .error stop)
    (input : Input) :
    (single argv input).ending = .help ∧ (single argv input).ending.code = 0 ∧
        (single argv input).printed = Arguments.help ∨
      (∃ e, (single argv input).ending = .usage e) ∧ (single argv input).ending.code = 2 ∧
        (single argv input).printed = [] := by
  rw [single_of_error h]
  cases stop with
  | help => exact .inl ⟨rfl, rfl, rfl⟩
  | usage e => exact .inr ⟨⟨e, rfl⟩, rfl, rfl⟩

/-! ## All command lines -/

/-- **What a run prints and how it ends.** A command line that was understood has the matrix printed
if that is asked for, and behind it the lines of the selected expressions up to the first that is
too long; the code says whether there was one, and nothing about the verdicts. The run returns a
code unless its last limit was dropped and there is an expression to compare with it: then it breaks
off behind the matrix. A command line that was not understood is answered with the help or with
nothing, whatever the input is. -/
theorem single_outcome (argv : List Text) (input : Input) :
    (∀ inv lines, parse argv = .ok inv → input.lines = .ok lines →
      (∀ n : Nat, inv.settings.maxLength = .atMost n →
        (single argv input).printed = tablePart inv ++
          (fitting n (selected inv lines)).flatMap (fun e => resultLine e (isValid e) ++ ['\n']) ∧
        ∃ exit, (single argv input).ending = .returned exit ∧
          exit.code = if fitting n (selected inv lines) = selected inv lines then 0 else 2) ∧
      (inv.settings.maxLength = .empty →
        (single argv input).printed = tablePart inv ∧
        (single argv input).ending =
          if selected inv lines = [] then .returned .ok else .escaped .noLimit) ∧
      ((∃ exit, (single argv input).ending = .returned exit) ↔
        ¬ (DropsLimit (head argv) ∧ selected inv lines ≠ []))) ∧
    (∀ stop, parse argv = .error stop →
      ((single argv input).ending = .help ∧ (single argv input).ending.code = 0 ∧
          (single argv input).printed = Arguments.help ∨
        (∃ e, (single argv input).ending = .usage e) ∧ (single argv input).ending.code = 2 ∧
          (single argv input).printed = []) ∧
      ∀ other, single argv other = single argv input) := by
  constructor
  · intro inv lines hparse hlines
    exact ⟨fun n => single_of_limit hparse hlines, single_of_no_limit hparse hlines,
      single_returns_iff hparse hlines⟩
  · intro stop hstop
    refine ⟨single_of_stop hstop input, ?_⟩
    intro other
    rw [single_of_error hstop, single_of_error hstop]

/-- The second expression is too long; and an option without its value makes no run of any input. -/
theorem single_outcome_sample :
    parse ["--max-length=3".toList, "1+2".toList, "12345".toList] =
        .ok ⟨⟨false, false, false, .atMost 3⟩, ["1+2".toList, "12345".toList]⟩ ∧
      (single ["--max-length=3".toList, "1+2".toList, "12345".toList] (.text [])).printed =
        "Is \"1+2\" a valid expression? Yes\n".toList ∧
      (∃ exit, (single ["--max-length=3".toList, "1+2".toList, "12345".toList] (.text [])).ending =
        .returned exit ∧ exit.code = 2) ∧
      parse ["--max-length".toList] = .error (.usage (.missingValue .maxLength)) ∧
      ∀ input,
        single ["--max-length".toList] input = single ["--max-length".toList] (.text []) := by
  have hrun := single_outcome ["--max-length=3".toList, "1+2".toList, "12345".toList] (.text [])
  have hstop := single_outcome ["--max-length".toList] (.text [])
  obtain ⟨hprinted, exit, hreturned, hcode⟩ := (hrun.1 _ [] rfl rfl).1 3 rfl
  exact ⟨rfl, hprinted.trans (by decide), ⟨exit, hreturned, hcode.trans (by decide)⟩, rfl,
    (hstop.2 _ rfl).2⟩

/-- A bare `--` as the value of the option drops the limit, and the first expression cannot be
compared with it. -/
theorem single_dropped_limit :
    parse ["--max-length=--".toList, "1".toList] =
        .ok ⟨⟨false, false, false, .empty⟩, ["1".toList]⟩ ∧
      (single ["--max-length=--".toList, "1".toList] (.text [])).ending = .escaped .noLimit :=
  ⟨rfl, rfl⟩

end SumExpr.Session
