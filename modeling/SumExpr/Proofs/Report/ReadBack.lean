import SumExpr.Catalog
import SumExpr.Proofs.Report
import SumExpr.Proofs.Text.Segments

/-! # A printed report is read back

A result line begins and ends in fixed texts. What stands between them is the expression as it is,
whatever it imitates, so the line is read from both ends and only result lines are
(`readLine?_eq_some_iff`). Where no expression holds a line feed, the lines of what was printed are
the result lines, and the whole report is read back (`readReport?_printed`). -/
namespace SumExpr

/-! ## One line -/

/-- What stands before the expression in a result line. -/
def resultOpening : Text := "Is \"".toList

/-- What stands behind it. -/
def resultClosing (valid : Bool) : Text :=
  "\" a valid expression? ".toList ++ (if valid then "Yes" else "No").toList

theorem resultLine_eq (expr : Text) (valid : Bool) :
    resultLine expr valid = resultOpening ++ (expr ++ resultClosing valid) := by
  unfold resultLine resultOpening resultClosing
  rw [List.append_assoc, List.append_assoc]

/-- The pattern that the program makes known gives the line, if it is filled in. -/
theorem fillFrom_resultPattern (expr : Text) (valid : Bool) :
    Catalog.fillFrom
      [("expr".toList, expr), ("answer".toList, (if valid then "Yes" else "No").toList)] none
      Catalog.resultPattern = some (resultLine expr valid) := by
  refine Eq.trans ?_ (congrArg some (resultLine_eq expr valid).symm)
  cases valid <;> rfl

theorem getLast?_append_closing (text : Text) (valid : Bool) :
    (text ++ resultClosing valid).getLast? = some (if valid then 's' else 'o') := by
  have hne : resultClosing valid ≠ [] := by cases valid <;> decide
  rw [List.getLast?_append_of_ne_nil text hne]
  cases valid <;> rfl

/-- The last characters of the two closings tell them apart. -/
theorem closing_unique {u v : Text} {a b : Bool}
    (h : u ++ resultClosing a = v ++ resultClosing b) : a = b := by
  have hlast := congrArg List.getLast? h
  rw [getLast?_append_closing, getLast?_append_closing] at hlast
  revert hlast
  cases a <;> cases b <;> decide

/-- The expression before a closing, and the verdict. -/
def readClosing? (rest : Text) : Option (Text × Bool) :=
  match rest.dropSuffix? (resultClosing true) with
  | some expr => some (expr, true)
  | none => (rest.dropSuffix? (resultClosing false)).map (·, false)

/-- The expression and the verdict of a result line. -/
def readLine? (line : Text) : Option (Text × Bool) :=
  (line.dropPrefix? resultOpening).bind readClosing?

theorem dropSuffix?_closing_iff {text expr : Text} {valid : Bool} :
    text.dropSuffix? (resultClosing valid) = some expr ↔ text = expr ++ resultClosing valid := by
  simp [List.dropSuffix?_eq_some_iff]

theorem readClosing?_eq_some_iff {rest expr : Text} {valid : Bool} :
    readClosing? rest = some (expr, valid) ↔ rest = expr ++ resultClosing valid := by
  unfold readClosing?
  constructor
  · intro h
    split at h
    · next hyes =>
      cases h
      exact dropSuffix?_closing_iff.mp hyes
    · obtain ⟨_, hno, h⟩ := Option.map_eq_some_iff.mp h
      cases h
      exact dropSuffix?_closing_iff.mp hno
  · rintro rfl
    split
    · next hyes =>
      have hsame := dropSuffix?_closing_iff.mp hyes
      obtain rfl := closing_unique hsame
      rw [List.append_cancel_right hsame]
    · next hyes =>
      cases valid with
      | true =>
        rw [dropSuffix?_closing_iff.mpr rfl] at hyes
        cases hyes
      | false => rw [dropSuffix?_closing_iff.mpr rfl, Option.map_some]

theorem readLine?_eq_some_iff {line expr : Text} {valid : Bool} :
    readLine? line = some (expr, valid) ↔ line = resultLine expr valid := by
  have hopening : ∀ rest : Text,
      line.dropPrefix? resultOpening = some rest ↔ line = resultOpening ++ rest := by
    simp [List.dropPrefix?_eq_some_iff]
  rw [readLine?, Option.bind_eq_some_iff, resultLine_eq]
  simp only [hopening, readClosing?_eq_some_iff, exists_eq_right]

theorem resultLine_injective {e f : Text} {a b : Bool} (h : resultLine e a = resultLine f b) :
    e = f ∧ a = b := by
  have hread := readLine?_eq_some_iff.mpr h
  rw [readLine?_eq_some_iff.mpr rfl] at hread
  simpa using hread

/-! ## Whole reports -/

/-- The expressions and verdicts of a report, line by line. -/
def readReport? (text : Text) : Option (List (Text × Bool)) := text.lines.mapM readLine?

theorem mapM_readLine? (rs : List (Text × Bool)) :
    (rs.map fun r => resultLine r.1 r.2).mapM readLine? = some rs := by
  induction rs with
  | nil => rfl
  | cons r rs ih =>
    rw [List.map_cons, List.mapM_cons, readLine?_eq_some_iff.mpr rfl, ih]
    rfl

/-- A result line has the line feeds of its expression and no others. -/
theorem count_feed_resultLine (expr : Text) (valid : Bool) :
    (resultLine expr valid).count '\n' = expr.count '\n' := by
  have hopening : resultOpening.count '\n' = 0 := by decide
  have hclosing : (resultClosing valid).count '\n' = 0 := by cases valid <;> decide
  rw [resultLine_eq, List.count_append, List.count_append, hopening, hclosing, Nat.zero_add,
    Nat.add_zero]

theorem feed_mem_resultLine_iff {expr : Text} {valid : Bool} :
    '\n' ∈ resultLine expr valid ↔ '\n' ∈ expr := by
  rw [← List.count_pos_iff, count_feed_resultLine, List.count_pos_iff]

theorem getLast?_resultLine_ne_return (expr : Text) (valid : Bool) :
    (resultLine expr valid).getLast? ≠ some '\r' := by
  rw [resultLine_eq, ← List.append_assoc, getLast?_append_closing]
  cases valid <;> decide

theorem readReport?_ofLines {rs : List (Text × Bool)} (h : ∀ r ∈ rs, '\n' ∉ r.1) :
    readReport? (.ofLines (rs.map fun r => resultLine r.1 r.2)) = some rs := by
  rw [readReport?, Text.lines_ofLines_of_no_return, mapM_readLine?]
  · intro line hline
    obtain ⟨r, hr, rfl⟩ := List.mem_map.mp hline
    exact feed_mem_resultLine_iff.not.mpr (h r hr)
  · intro line hline
    obtain ⟨r, _, rfl⟩ := List.mem_map.mp hline
    exact getLast?_resultLine_ne_return r.1 r.2

/-- Of a report just the expressions that fit are read back, with their verdicts. -/
theorem readReport?_printed (limit : Int) (exprs : List Text)
    (h : ∀ e ∈ fitting limit exprs, '\n' ∉ e) :
    readReport? (report limit exprs).printed =
      some ((fitting limit exprs).map fun e => (e, isValid e)) := by
  have hpairs : (report limit exprs).lines =
      ((fitting limit exprs).map fun e => (e, isValid e)).map fun r => resultLine r.1 r.2 := by
    rw [report_lines, List.map_map]
    rfl
  rw [Report.printed, hpairs]
  refine readReport?_ofLines ?_
  simpa using h

theorem readReport?_of_ok {limit : Int} {exprs : List Text} (h : ∀ e ∈ exprs, '\n' ∉ e)
    (hok : (report limit exprs).exit = .ok) :
    readReport? (report limit exprs).printed = some (exprs.map fun e => (e, isValid e)) := by
  have hall := report_exit_eq_ok_iff.mp hok
  have hread := readReport?_printed limit exprs
  rw [hall] at hread
  exact hread h

/-- No line of an input holds a line feed, however the input is given. -/
theorem feed_notMem_input {input : Input} {ls : List Text} (h : input.lines = .ok ls) :
    ∀ l ∈ ls, '\n' ∉ l := by
  intro l hl
  cases input with
  | text t =>
    rw [Input.lines_text] at h
    cases h
    exact Text.not_mem_of_mem_lines hl
  | bytes data =>
    cases hdecode : Text.Utf8.decode data with
    | error fault =>
      rw [Input.lines_bytes_of_error hdecode] at h
      cases h
    | ok t =>
      rw [Input.lines_bytes_of_ok hdecode] at h
      cases h
      exact Text.not_mem_of_mem_lines hl
  | failing given failure =>
    have hreads : (Input.failing given failure).reads =
        given.map .ok ++ .error failure :: [] := rfl
    rw [Input.lines_of_failure hreads] at h
    cases h

/-- **A printed report can be read back.** A result line is what is read as one, and no two pairs of
an expression and a verdict have the same line, since the expression stands in it as it is. If no
expression holds a line feed, as none from an input does, and the report succeeds, then what it
printed is read back as these expressions with their verdicts. So reports that print the same are on
the same expressions, whatever the limits. -/
theorem printed_report_read_back :
    (∀ (expr : Text) (valid : Bool) (line : Text),
      readLine? line = some (expr, valid) ↔
        line = resultOpening ++ (expr ++ resultClosing valid)) ∧
    (∀ (e f : Text) (a b : Bool), resultLine e a = resultLine f b → e = f ∧ a = b) ∧
    (∀ (input : Input) (ls : List Text), input.lines = .ok ls → ∀ l ∈ ls, '\n' ∉ l) ∧
    (∀ (limit : Int) (exprs : List Text), (∀ e ∈ exprs, '\n' ∉ e) →
      (report limit exprs).exit = .ok →
        readReport? (report limit exprs).printed = some (exprs.map fun e => (e, isValid e))) ∧
    ∀ (limit limit' : Int) (exprs exprs' : List Text),
      (∀ e ∈ exprs, '\n' ∉ e) → (∀ e ∈ exprs', '\n' ∉ e) →
      (report limit exprs).exit = .ok → (report limit' exprs').exit = .ok →
      (report limit exprs).printed = (report limit' exprs').printed →
        exprs = exprs' ∧ exprs.map isValid = exprs'.map isValid := by
  refine ⟨?_, ?_, ?_, ?_, ?_⟩
  · intro expr valid line
    rw [readLine?_eq_some_iff, resultLine_eq]
  · intro e f a b h
    exact resultLine_injective h
  · intro input ls h
    exact feed_notMem_input h
  · intro limit exprs h hok
    exact readReport?_of_ok h hok
  · intro limit limit' exprs exprs' h h' hok hok' hprinted
    have hread := readReport?_of_ok h hok
    rw [hprinted, readReport?_of_ok h' hok', Option.some.injEq] at hread
    have hexprs := congrArg (List.map Prod.fst) hread
    have hverdicts := congrArg (List.map Prod.snd) hread
    simp only [List.map_map, Function.comp_def, List.map_id'] at hexprs hverdicts
    exact ⟨hexprs.symm, hverdicts.symm⟩

/-- The second line has the shape of a result line about the first. -/
def imitation : List Text := ["1+2".toList, "Is \"1+2\" a valid expression? No".toList]

/-- What imitates a result line is read back as an expression, and no other list prints the same. -/
theorem printed_report_read_back_imitation :
    (Input.text (.ofLines imitation)).lines = .ok imitation ∧
    (report 40 imitation).exit = .ok ∧
    readReport? (report 40 imitation).printed = some (imitation.map fun e => (e, isValid e)) ∧
    imitation.map isValid = [true, false] ∧
    ∀ (limit : Int) (exprs : List Text), (∀ e ∈ exprs, '\n' ∉ e) →
      (report limit exprs).exit = .ok →
      (report limit exprs).printed = (report 40 imitation).printed → exprs = imitation := by
  have hlines : (Input.text (.ofLines imitation)).lines = .ok imitation := by decide
  have hok : (report 40 imitation).exit = .ok := by decide
  obtain ⟨_, _, hinput, hread, hsame⟩ := printed_report_read_back
  have hfeed := hinput _ _ hlines
  refine ⟨hlines, hok, hread 40 imitation hfeed hok, by decide, ?_⟩
  intro limit exprs h hok' hprinted
  exact (hsame limit 40 exprs imitation h hfeed hok' hok hprinted).1

end SumExpr
