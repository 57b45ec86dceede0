import Mathlib.Data.List.Infix
import Mathlib.Data.List.TakeDrop
import Mathlib.Data.List.TakeWhile
import SumExpr.Report

/-! # What is reported

A report is about the longest run of expressions at the head of the list that are short enough
(`fitting`): a line for each of them, and success if that is the whole list. The place where that
run ends decides all that can be observed (`report_up_to_firstTooLong`), so that a list may be
reported on piece by piece (`report_append`), and a greater limit only adds to what is printed. -/
namespace SumExpr

/-- The expressions before the first one that has more than `limit` characters. -/
def fitting (limit : Int) (exprs : List Text) : List Text :=
  exprs.takeWhile fun e => (e.length : Int) ≤ limit

theorem tooLong?_eq_none_iff {limit : Int} {expr : Text} :
    tooLong? limit expr = none ↔ (expr.length : Int) ≤ limit := by
  unfold tooLong?
  split
  · next h => simpa using h
  · next h => simpa using h

theorem fitting_cons_of_le {limit : Int} {expr : Text} {rest : List Text}
    (h : (expr.length : Int) ≤ limit) :
    fitting limit (expr :: rest) = expr :: fitting limit rest :=
  List.takeWhile_cons_of_pos (by simpa using h)

theorem fitting_cons_of_lt {limit : Int} {expr : Text} {rest : List Text}
    (h : limit < (expr.length : Int)) : fitting limit (expr :: rest) = [] :=
  List.takeWhile_cons_of_neg (by simpa using h)

/-- The first expression fits and is reported on before the rest. -/
theorem report_cons_of_le {limit : Int} {expr : Text} {rest : List Text}
    (h : (expr.length : Int) ≤ limit) :
    report limit (expr :: rest) =
      ⟨(report limit rest).exit, resultLine expr (isValid expr) :: (report limit rest).lines,
        Log.ofScan expr :: (report limit rest).events⟩ := by
  rw [report, tooLong?_eq_none_iff.mpr h]

/-- The first expression is too long, and the rest is not looked at. -/
theorem report_cons_of_lt {limit : Int} {expr : Text} {rest : List Text}
    (h : limit < (expr.length : Int)) :
    report limit (expr :: rest) = ⟨.tooLong, [], [.refused ⟨expr.length, limit⟩]⟩ := by
  rw [report, tooLong?, if_pos h]

theorem report_lines (limit : Int) (exprs : List Text) :
    (report limit exprs).lines = (fitting limit exprs).map fun e => resultLine e (isValid e) := by
  induction exprs with
  | nil => rfl
  | cons expr rest ih =>
    by_cases h : (expr.length : Int) ≤ limit
    · rw [report_cons_of_le h, fitting_cons_of_le h, List.map_cons, ih]
    · rw [report_cons_of_lt (Int.not_le.mp h), fitting_cons_of_lt (Int.not_le.mp h), List.map_nil]

theorem report_exit (limit : Int) (exprs : List Text) :
    (report limit exprs).exit = if fitting limit exprs = exprs then .ok else .tooLong := by
  induction exprs with
  | nil => rfl
  | cons expr rest ih =>
    by_cases h : (expr.length : Int) ≤ limit
    · rw [report_cons_of_le h, fitting_cons_of_le h, ih]
      simp only [List.cons.injEq, true_and]
    · rw [report_cons_of_lt (Int.not_le.mp h), fitting_cons_of_lt (Int.not_le.mp h),
        if_neg (List.cons_ne_nil expr rest).symm]

theorem report_exit_eq_ok_iff {limit : Int} {exprs : List Text} :
    (report limit exprs).exit = .ok ↔ fitting limit exprs = exprs := by
  rw [report_exit]
  split
  · next h => exact iff_of_true rfl h
  · next h => exact iff_of_false (by decide) h

theorem report_printed (limit : Int) (exprs : List Text) :
    (report limit exprs).printed =
      (fitting limit exprs).flatMap fun e => resultLine e (isValid e) ++ ['\n'] := by
  rw [Report.printed, Text.ofLines, report_lines, List.flatMap_map]

/-- What a report records in detail is one scan for each of its lines. -/
theorem report_details (limit : Int) (exprs : List Text) :
    (report limit exprs).events.filter (·.level = .debug) =
      (fitting limit exprs).map Log.ofScan := by
  induction exprs with
  | nil => rfl
  | cons expr rest ih =>
    by_cases h : (expr.length : Int) ≤ limit
    · rw [report_cons_of_le h, fitting_cons_of_le h, List.map_cons, ← ih]
      rfl
    · rw [report_cons_of_lt (Int.not_le.mp h), fitting_cons_of_lt (Int.not_le.mp h)]
      rfl

/-! ## The first expression that is too long -/

/-- The place of the first expression that is too long, or the length of the list. -/
def firstTooLong (limit : Int) (exprs : List Text) : Nat :=
  exprs.findIdx fun e => limit < e.length

theorem fitting_eq_take (limit : Int) (exprs : List Text) :
    fitting limit exprs = exprs.take (firstTooLong limit exprs) := by
  rw [fitting, firstTooLong, List.takeWhile_eq_take_findIdx_not]
  simp only [← decide_not, Int.not_le]

theorem firstTooLong_cons_of_le {limit : Int} {expr : Text} {rest : List Text}
    (h : (expr.length : Int) ≤ limit) :
    firstTooLong limit (expr :: rest) = firstTooLong limit rest + 1 := by
  rw [firstTooLong, List.findIdx_cons, decide_eq_false (Int.not_lt.mpr h), cond_false, firstTooLong]

theorem firstTooLong_cons_of_lt {limit : Int} {expr : Text} {rest : List Text}
    (h : limit < (expr.length : Int)) : firstTooLong limit (expr :: rest) = 0 := by
  rw [firstTooLong, List.findIdx_cons, decide_eq_true h, cond_true]

theorem length_le_of_mem_fitting {limit : Int} {exprs : List Text} {e : Text}
    (h : e ∈ fitting limit exprs) : (e.length : Int) ≤ limit := by
  simpa using List.mem_takeWhile_imp h

theorem fitting_eq_self_iff {limit : Int} {exprs : List Text} :
    fitting limit exprs = exprs ↔ ¬ firstTooLong limit exprs < exprs.length := by
  rw [fitting_eq_take, List.take_eq_self_iff, Nat.not_lt]

/-- What a report records: a scan for each of its lines, and the refusal that ended it. -/
theorem report_events (limit : Int) (exprs : List Text) :
    (report limit exprs).events =
      (fitting limit exprs).map Log.ofScan ++
        (exprs[firstTooLong limit exprs]?.map fun e => .refused ⟨e.length, limit⟩).toList := by
  induction exprs with
  | nil => rfl
  | cons expr rest ih =>
    by_cases h : (expr.length : Int) ≤ limit
    · rw [report_cons_of_le h, fitting_cons_of_le h, firstTooLong_cons_of_le h, ih,
        List.getElem?_cons_succ, List.map_cons, List.cons_append]
    · have hlt := Int.not_le.mp h
      rw [report_cons_of_lt hlt, fitting_cons_of_lt hlt, firstTooLong_cons_of_lt hlt]
      rfl

theorem report_events_ne_nil (limit : Int) {exprs : List Text} (h : exprs ≠ []) :
    (report limit exprs).events ≠ [] := by
  obtain ⟨expr, rest, rfl⟩ := List.exists_cons_of_ne_nil h
  by_cases hfits : (expr.length : Int) ≤ limit
  · rw [report_cons_of_le hfits]
    exact List.cons_ne_nil _ _
  · rw [report_cons_of_lt (Int.not_le.mp hfits)]
    exact List.cons_ne_nil _ _

/-! ## Reports on parts of a list -/

/-- A report and the one behind it as one. -/
def Report.followedBy (r next : Report) : Report :=
  ⟨next.exit, r.lines ++ next.lines, r.events ++ next.events⟩

theorem report_append_of_ok {limit : Int} {exprs : List Text} (h : (report limit exprs).exit = .ok)
    (more : List Text) :
    report limit (exprs ++ more) = (report limit exprs).followedBy (report limit more) := by
  induction exprs with
  | nil => rfl
  | cons expr rest ih =>
    by_cases hfits : (expr.length : Int) ≤ limit
    · rw [report_cons_of_le hfits] at h ⊢
      rw [List.cons_append, report_cons_of_le hfits, ih h]
      rfl
    · rw [report_cons_of_lt (Int.not_le.mp hfits)] at h
      cases h

/-- Behind an expression that is too long nothing is looked at. -/
theorem report_append_of_not_ok {limit : Int} {exprs : List Text}
    (h : (report limit exprs).exit ≠ .ok) (more : List Text) :
    report limit (exprs ++ more) = report limit exprs := by
  induction exprs with
  | nil => exact absurd rfl h
  | cons expr rest ih =>
    by_cases hfits : (expr.length : Int) ≤ limit
    · rw [report_cons_of_le hfits] at h ⊢
      rw [List.cons_append, report_cons_of_le hfits, ih h]
    · rw [List.cons_append, report_cons_of_lt (Int.not_le.mp hfits),
        report_cons_of_lt (Int.not_le.mp hfits)]

/-- A list may be reported on piece by piece. -/
theorem report_append (limit : Int) (exprs more : List Text) :
    report limit (exprs ++ more) =
      if (report limit exprs).exit = .ok then
        (report limit exprs).followedBy (report limit more)
      else report limit exprs := by
  split
  · next h => exact report_append_of_ok h more
  · next h => exact report_append_of_not_ok h more

theorem printed_followedBy (r next : Report) :
    (r.followedBy next).printed = r.printed ++ next.printed :=
  List.flatMap_append

/-- Where there is more to look at, a report that goes on leaves a record of it. -/
theorem report_events_append_iff {limit : Int} {exprs more : List Text} (hmore : more ≠ []) :
    (report limit (exprs ++ more)).events =
        (report limit exprs).events ++ (report limit more).events ↔
      (report limit exprs).exit = .ok := by
  constructor
  · intro hevents
    by_contra h
    rw [report_append_of_not_ok h] at hevents
    exact report_events_ne_nil limit hmore (List.self_eq_append_right.mp hevents)
  · intro h
    rw [report_append_of_ok h]
    rfl

/-- A report goes on just if it has not ended early. -/
theorem report_append_iff {limit : Int} {exprs more : List Text} :
    report limit (exprs ++ more) = (report limit exprs).followedBy (report limit more) ↔
      (report limit exprs).exit = .ok := by
  constructor
  · intro happend
    by_cases hmore : more = []
    · -- nothing is behind it, and that succeeds
      subst hmore
      rw [List.append_nil] at happend
      exact congrArg Report.exit happend
    · exact (report_events_append_iff hmore).mp (congrArg Report.events happend)
  · intro h
    exact report_append_of_ok h more

/-- Under a greater limit the same expressions fit, and maybe more. -/
theorem fitting_prefix_of_le {limit greater : Int} (h : limit ≤ greater) (exprs : List Text) :
    fitting limit exprs <+: fitting greater exprs := by
  have hboth : fitting limit exprs = fitting limit (fitting greater exprs) := by
    rw [fitting, fitting, fitting, List.takeWhile_takeWhile]
    congr 1
    funext e
    exact decide_eq_decide.mpr (by simp only [decide_eq_true_eq]; omega)
  rw [hboth]
  exact List.takeWhile_prefix _

theorem report_exit_eq (limit : Int) (exprs : List Text) :
    (report limit exprs).exit =
      if firstTooLong limit exprs < exprs.length then .tooLong else .ok := by
  simp only [report_exit, fitting_eq_self_iff, ite_not]

theorem report_printed_prefix_of_le {limit greater : Int} (h : limit ≤ greater)
    (exprs : List Text) :
    (report limit exprs).printed <+: (report greater exprs).printed := by
  rw [report_printed, report_printed]
  exact List.IsPrefix.flatMap (fitting_prefix_of_le h exprs) _

/-- What stands behind the first expression that is too long has no part in a report. -/
theorem report_take_append {limit : Int} {exprs : List Text}
    (h : firstTooLong limit exprs < exprs.length) (other : List Text) :
    report limit (exprs.take (firstTooLong limit exprs + 1) ++ other) = report limit exprs := by
  induction exprs with
  | nil => exact absurd h (Nat.not_lt_zero _)
  | cons expr rest ih =>
    by_cases hfits : (expr.length : Int) ≤ limit
    · rw [firstTooLong_cons_of_le hfits, List.length_cons, Nat.add_lt_add_iff_right] at h
      rw [firstTooLong_cons_of_le hfits, List.take_succ_cons, List.cons_append,
        report_cons_of_le hfits, report_cons_of_le hfits, ih h]
    · have hlong := Int.not_le.mp hfits
      rw [firstTooLong_cons_of_lt hlong, List.take_succ_cons, List.cons_append,
        report_cons_of_lt hlong, report_cons_of_lt hlong]

/-- What a report comes to, told by the place of the first expression that is too long. -/
structure EndsAtFirstTooLong (limit : Int) (exprs : List Text) : Prop where
  lines : (report limit exprs).lines =
    (exprs.take (firstTooLong limit exprs)).map fun e => resultLine e (isValid e)
  length : (report limit exprs).lines.length = firstTooLong limit exprs
  printed : (report limit exprs).printed = .ofLines (report limit exprs).lines
  exit : (report limit exprs).exit =
    if firstTooLong limit exprs < exprs.length then .tooLong else .ok
  events : (report limit exprs).events = (exprs.take (firstTooLong limit exprs)).map Log.ofScan ++
    (exprs[firstTooLong limit exprs]?.map fun e => .refused ⟨e.length, limit⟩).toList
  scans : ∀ e : Text, Log.ofScan e = .scanned e.length (scan e) ∧ (Log.ofScan e).level = .debug
  refusal : ∀ n, (Log.Event.refused ⟨n, limit⟩).level = .error ∧
    (Log.Event.refused ⟨n, limit⟩).message =
      "Input of ".toList ++ .ofNat n ++ " characters exceeds maximum of ".toList ++ .ofInt limit
  short : ∀ e ∈ exprs.take (firstTooLong limit exprs), (e.length : Int) ≤ limit
  /-- Whatever stands behind that expression makes no difference. -/
  behind : ∀ other, firstTooLong limit exprs < exprs.length →
    report limit (exprs.take (firstTooLong limit exprs + 1) ++ other) = report limit exprs
  append : ∀ more, report limit (exprs ++ more) =
    if (report limit exprs).exit = .ok then
      (report limit exprs).followedBy (report limit more)
    else report limit exprs
  append_iff : ∀ more,
    report limit (exprs ++ more) = (report limit exprs).followedBy (report limit more) ↔
      (report limit exprs).exit = .ok
  /-- What is printed and recorded goes on only then. -/
  goes_on_iff : ∀ more, more ≠ [] →
    ((report limit (exprs ++ more)).printed =
        (report limit exprs).printed ++ (report limit more).printed ∧
      (report limit (exprs ++ more)).events =
        (report limit exprs).events ++ (report limit more).events ↔
      (report limit exprs).exit = .ok)
  greater : ∀ greater, limit ≤ greater →
    (report limit exprs).printed <+: (report greater exprs).printed

/-- **A report goes as far as the first expression that is too long.** It prints a line for each
expression before that one and records their scans, and all of these are short enough. It succeeds
if there is no such expression; else it records the refusal, and whatever stands behind makes no
difference. So the report on a list goes on with the report on more expressions just if it succeeds,
and a greater limit only adds to what is printed. -/
theorem report_up_to_firstTooLong (limit : Int) (exprs : List Text) :
    EndsAtFirstTooLong limit exprs := by
  have hlines := report_lines limit exprs
  rw [fitting_eq_take] at hlines
  constructor
  case lines => exact hlines
  case length =>
    rw [hlines, List.length_map, List.length_take]
    exact Nat.min_eq_left List.findIdx_le_length
  case printed => rfl
  case exit => exact report_exit_eq limit exprs
  case events => rw [report_events, fitting_eq_take]
  case scans =>
    intro e
    exact ⟨rfl, rfl⟩
  case refusal =>
    intro n
    exact ⟨rfl, rfl⟩
  case short =>
    intro e he
    rw [← fitting_eq_take] at he
    exact length_le_of_mem_fitting he
  case behind =>
    intro other h
    exact report_take_append h other
  case append =>
    intro more
    exact report_append limit exprs more
  case append_iff =>
    intro more
    exact report_append_iff
  case goes_on_iff =>
    intro more hmore
    refine (and_iff_right_of_imp ?_).trans (report_events_append_iff hmore)
    intro hevents
    rw [report_append_of_ok ((report_events_append_iff hmore).mp hevents), printed_followedBy]
  case greater =>
    intro greater h
    exact report_printed_prefix_of_le h exprs

/-- With at most four characters the report ends at the second expression, so that the third is in
no part of it; with five it goes on. -/
theorem report_up_to_firstTooLong_sample :
    firstTooLong 4 ["1+23".toList, "12345".toList] = 1 ∧
    report 4 ["1+23".toList, "12345".toList, "+".toList] =
      report 4 ["1+23".toList, "12345".toList] ∧
    (report 4 ["1+23".toList, "12345".toList]).printed <+:
      (report 5 ["1+23".toList, "12345".toList]).printed :=
  ⟨by decide,
    (report_up_to_firstTooLong 4 ["1+23".toList, "12345".toList]).behind ["+".toList] (by decide),
    (report_up_to_firstTooLong 4 ["1+23".toList, "12345".toList]).greater 5 (by decide)⟩

end SumExpr
