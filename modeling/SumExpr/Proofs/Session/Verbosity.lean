import SumExpr.Proofs.Session.Outcome

/-! # What the switch for details changes

A command line with the switch in front is understood just if it is without it, and as the same but
for the switch (`parse_cons_verbose`). The run prints the same and ends the same; its log has
details that it would not have otherwise, and in the details the lines that are printed can be
followed. -/
namespace SumExpr.Arguments

/-! ## The switch in front -/

/-- The switch for details, by its letter. -/
def verboseToken : Text := ['-', 'v']

/-- What is understood if the switch is added. -/
def Invocation.verbosely (inv : Invocation) : Invocation :=
  { inv with settings := { inv.settings with verbose := true } }

theorem items_cons_verbose (ts : List Text) :
    items (verboseToken :: ts) = (items ts).map (.switches verboseToken [.verbose] :: ·) := by
  have hitem : item? verboseToken = .ok (some (.switches verboseToken [.verbose])) := rfl
  rw [items.eq_def]
  simp only [hitem]

theorem invocation_cons_verbose (its : List Item) (rest : List Text) :
    invocation (.switches verboseToken [.verbose] :: its) rest =
      (invocation its rest).map Invocation.verbosely := by
  have hexpr : (Item.switches verboseToken [.verbose] :: its).filterMap Item.expression? =
      its.filterMap Item.expression? := rfl
  simp only [invocation, hexpr]
  split <;> rfl

theorem parse_cons_verbose (argv : List Text) :
    parse (verboseToken :: argv) = (parse argv).map Invocation.verbosely := by
  have hhead : head (verboseToken :: argv) = verboseToken :: head argv := rfl
  have htail : tail (verboseToken :: argv) = tail argv := rfl
  have hnames : (verboseToken :: head argv).findSome? ambiguity? =
      (head argv).findSome? ambiguity? := rfl
  simp only [parse, hhead, htail, hnames, items_cons_verbose]
  cases (head argv).findSome? ambiguity? with
  | some e => rfl
  | none =>
    cases items (head argv) with
    | error stop => rfl
    | ok its => exact invocation_cons_verbose its (tail argv)

end SumExpr.Arguments

namespace SumExpr

/-! ## Logs with and without details -/

namespace Log.Event

theorem reaches_debug (e : Event) : e.reaches .debug = true := by cases e <;> rfl

theorem reaches_info (e : Event) : e.reaches .info = decide (e.level ≠ .debug) := by cases e <;> rfl

end Log.Event

namespace Run

/-- The run with the details taken out of its log. -/
def withoutDetails (r : Run) : Run := { r with events := r.events.filter (·.level ≠ .debug) }

theorem recorded_debug (r : Run) : r.recorded .debug = r := by
  rw [recorded, List.filter_eq_self.mpr fun e _ => e.reaches_debug]

theorem recorded_info (r : Run) : r.recorded .info = r.withoutDetails := by
  simp only [recorded, withoutDetails, Log.Event.reaches_info]

theorem recorded_ofStop (stop : Arguments.Stop) (threshold : Log.Level) :
    (ofStop stop).recorded threshold = ofStop stop := by
  cases stop <;> rfl

end Run

namespace Session
open Arguments (parse verboseToken Invocation Settings)

/-- The settings of a command line, if it is understood. -/
def settings? (argv : List Text) : Option Settings := (parse argv).toOption.map (·.settings)

/-- The command line asks for details. -/
def AsksDetails (argv : List Text) : Prop :=
  ∃ inv, parse argv = .ok inv ∧ inv.settings.verbose = true

/-! ## Calls with the switch and without -/

theorem single_verbose_of_ok {argv : List Text} {inv : Invocation} (h : parse argv = .ok inv)
    (input : Input) : single (verboseToken :: argv) input = execute inv input := by
  have hparse : parse (verboseToken :: argv) = .ok inv.verbosely := by
    rw [Arguments.parse_cons_verbose, h]
    rfl
  rw [single_of_ok hparse]
  exact Run.recorded_debug _

theorem single_verbose_of_error {argv : List Text} {stop : Arguments.Stop}
    (h : parse argv = .error stop) (input : Input) :
    single (verboseToken :: argv) input = .ofStop stop := by
  have hparse : parse (verboseToken :: argv) = .error stop := by
    rw [Arguments.parse_cons_verbose, h]
    rfl
  exact single_of_error hparse input

/-- A call is the run with all its details, recorded from the level that is set, or else from the
one that the call asks for; and that level is set after it. -/
theorem call_eq (set : Option Log.Level) (argv : List Text) (input : Input) :
    call set argv input =
      ((single (verboseToken :: argv) input).recorded
        ((set.or ((settings? argv).map level)).getD .info),
        set.or ((settings? argv).map level)) := by
  unfold call settings?
  cases hparse : parse argv with
  | error stop =>
    rw [single_verbose_of_error hparse, Run.recorded_ofStop]
    cases set <;> rfl
  | ok inv =>
    rw [single_verbose_of_ok hparse]
    cases set <;> rfl

theorem single_eq_recorded (argv : List Text) (input : Input) :
    single argv input = (single (verboseToken :: argv) input).recorded
      (((settings? argv).map level).getD .info) := by
  rw [single, call_eq, Option.none_or]

theorem single_verbose_ending (argv : List Text) (input : Input) :
    (single (verboseToken :: argv) input).ending = (single argv input).ending := by
  rw [single_eq_recorded argv]
  rfl

theorem single_verbose_printed (argv : List Text) (input : Input) :
    (single (verboseToken :: argv) input).printed = (single argv input).printed := by
  rw [single_eq_recorded argv]
  rfl

theorem single_of_asksDetails {argv : List Text} (h : AsksDetails argv) (input : Input) :
    single argv input = single (verboseToken :: argv) input := by
  obtain ⟨inv, hparse, hverbose⟩ := h
  have hlevel : (settings? argv).map level = some .debug := by
    simp [settings?, hparse, Except.toOption, level, hverbose]
  rw [single_eq_recorded, hlevel]
  exact Run.recorded_debug _

theorem single_of_not_asksDetails {argv : List Text} (h : ¬ AsksDetails argv) (input : Input) :
    single argv input = (single (verboseToken :: argv) input).withoutDetails := by
  have hlevel : ((settings? argv).map level).getD .info = .info := by
    unfold settings?
    cases hparse : parse argv with
    | error stop => rfl
    | ok inv =>
      have hquiet : inv.settings.verbose ≠ true := fun hverbose => h ⟨inv, hparse, hverbose⟩
      simp [Except.toOption, level, hquiet]
  rw [single_eq_recorded, hlevel, Run.recorded_info]

/-! ## Details of a run -/

/-- The expressions of which something is printed. -/
def reported (limit : Limit.Setting) (exprs : List Text) : List Text :=
  match limit with
  | .atMost n => fitting n exprs
  | .empty => []

theorem reportOn_printed (limit : Limit.Setting) (exprs : List Text) :
    (reportOn limit exprs).printed =
      .ofLines ((reported limit exprs).map fun e => resultLine e (isValid e)) := by
  cases limit with
  | empty => exact reportOn_empty_printed exprs
  | atMost n =>
    show (report n exprs).printed = _
    rw [Report.printed, report_lines]
    rfl

theorem reportOn_details (limit : Limit.Setting) (exprs : List Text) :
    (reportOn limit exprs).events.filter (·.level = .debug) =
      (reported limit exprs).map Log.ofScan := by
  cases limit with
  | empty => cases exprs <;> rfl
  | atMost n => exact report_details n exprs

section Details

variable {inv : Invocation} {input : Input} {exprs : List Text}

theorem execute_printed (h : chosen inv input = .ok exprs) :
    (execute inv input).printed =
      tablePart inv ++ (reportOn inv.settings.maxLength exprs).printed := by
  simp only [execute, h, tablePart]

theorem execute_events (h : chosen inv input = .ok exprs) :
    (execute inv input).events =
      .checking exprs.length :: (reportOn inv.settings.maxLength exprs).events := by
  simp only [execute, h]

end Details

/-- **The switch for details changes the log and nothing else.** With it in front the run ends as it
does without it and prints the same. Without it the log and all of standard error are what is left
when the details are taken out. The details are the number of expressions, if these could be read,
and then, line by line of what is printed, the scan that the line tells the verdict of. -/
theorem details_change_log_only (argv : List Text) (input : Input) :
    (single (verboseToken :: argv) input).ending = (single argv input).ending ∧
    (single (verboseToken :: argv) input).printed = (single argv input).printed ∧
    (AsksDetails argv → single argv input = single (verboseToken :: argv) input) ∧
    (¬ AsksDetails argv →
      (single argv input).events =
        (single (verboseToken :: argv) input).events.filter (·.level ≠ .debug) ∧
      ∀ line, (single argv input).errorOutput line =
        (single (verboseToken :: argv) input).withoutDetails.errorOutput line) ∧
    ∀ inv exprs, parse argv = .ok inv → chosen inv input = .ok exprs →
      (single (verboseToken :: argv) input).printed = tablePart inv ++
        .ofLines ((reported inv.settings.maxLength exprs).map fun e => resultLine e (isValid e)) ∧
      (single (verboseToken :: argv) input).events.filter (·.level = .debug) =
        .checking exprs.length ::
          ((reported inv.settings.maxLength exprs).map fun e =>
            .scanned e.length ⟨isValid e, finalState e⟩) ∧
      (Log.Event.checking exprs.length).message =
        "Checking ".toList ++ .ofNat exprs.length ++ " expression(s)".toList := by
  refine ⟨single_verbose_ending argv input, single_verbose_printed argv input,
    fun h => single_of_asksDetails h input, ?_, ?_⟩
  · intro h
    rw [single_of_not_asksDetails h]
    exact ⟨rfl, fun _ => rfl⟩
  · intro inv exprs hparse hchosen
    rw [single_verbose_of_ok hparse, execute_printed hchosen, execute_events hchosen,
      reportOn_printed, List.filter_cons_of_pos rfl, reportOn_details]
    exact ⟨rfl, rfl, rfl⟩

/-- One line is asked for quietly: the two details of it are all that the switch adds. -/
theorem details_change_log_only_sample :
    ¬ AsksDetails ["--stdin".toList] ∧
    (single ["--stdin".toList] (.text "1+2\n".toList)).events =
      (single [verboseToken, "--stdin".toList] (.text "1+2\n".toList)).events.filter
        (·.level ≠ .debug) ∧
    (single [verboseToken, "--stdin".toList] (.text "1+2\n".toList)).events.filter
      (·.level = .debug) = [.checking 1, .scanned 3 ⟨true, .digit⟩] ∧
    AsksDetails ["--verbose".toList] ∧
    single ["--verbose".toList] (.text []) =
      single [verboseToken, "--verbose".toList] (.text []) := by
  have hquiet : ¬ AsksDetails ["--stdin".toList] := by
    rintro ⟨inv, hparse, hverbose⟩
    cases hparse
    cases hverbose
  have hasks : AsksDetails ["--verbose".toList] := ⟨_, rfl, rfl⟩
  obtain ⟨_, _, _, hevents, hdetails⟩ :=
    details_change_log_only ["--stdin".toList] (.text "1+2\n".toList)
  obtain ⟨_, hscans, _⟩ := hdetails _ ["1+2".toList] rfl rfl
  exact ⟨hquiet, (hevents hquiet).1, hscans.trans (by decide), hasks,
    (details_change_log_only ["--verbose".toList] (.text [])).2.2.1 hasks⟩

end Session
end SumExpr
