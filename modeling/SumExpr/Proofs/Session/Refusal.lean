import SumExpr.Proofs.Arguments.Event
import SumExpr.Proofs.Session.Outcome

/-! # How command lines are answered that are not understood

A command line can be wrong in several places, and can ask for help as well. The answer is about one
of them: the first long name without a letter, else the first option that asks for help or is a
mistake, else the first expression that looks like a long name. -/
namespace SumExpr.Session
open Arguments (parse head options expressions separator nameless Stop UsageError Choice Letter
  StartsGroup FirstEvent)

/-- What a run shows of the reason why its command line was not understood. -/
def Answers (r : Run) : Stop → Prop
  | .help => r.ending = .help ∧ r.ending.code = 0 ∧ r.printed = Arguments.help ∧
      ∀ line, r.errorOutput line = []
  | .usage e => r.ending = .usage e ∧ r.ending.code = 2 ∧ r.printed = [] ∧
      ∀ line, r.errorOutput line = e.report

theorem answers_of_error {argv : List Text} {stop : Stop} (h : parse argv = .error stop)
    (input : Input) : Answers (single argv input) stop := by
  rw [single_of_error h]
  cases stop with
  | help => exact ⟨rfl, rfl, rfl, fun _ => rfl⟩
  | usage e => exact ⟨rfl, rfl, rfl, fun _ => rfl⟩

theorem all_names_listed :
    " could match ".toList ++ [',', ' '].intercalate (Choice.all.map Choice.longName) =
      " could match --help, --stdin, --table, --max-length, --verbose".toList := by rfl

theorem message_ambiguous (t : Text) :
    (UsageError.ambiguous t Choice.all).message = "ambiguous option: ".toList ++ t ++
      " could match --help, --stdin, --table, --max-length, --verbose".toList :=
  calc (UsageError.ambiguous t Choice.all).message
      = "ambiguous option: ".toList ++ t ++ " could match ".toList ++
          [',', ' '].intercalate (Choice.all.map Choice.longName) := rfl
    _ = "ambiguous option: ".toList ++ t ++ (" could match ".toList ++
          [',', ' '].intercalate (Choice.all.map Choice.longName)) := List.append_assoc _ _ _
    _ = _ := congrArg _ all_names_listed

/-- **The first mistake decides.** A long name without a letter is answered before all else. Then
the options are gone through up to the first that asks for help or is a mistake, and only then the
expressions up to the first that looks like a long name. With none of these the command line is
understood. -/
theorem first_mistake_decides (argv : List Text) (input : Input) :
    (∀ t, (head argv).find? nameless = some t →
      Answers (single argv input) (.usage (.ambiguous t Choice.all)) ∧
      (UsageError.ambiguous t Choice.all).message = "ambiguous option: ".toList ++ t ++
        " could match --help, --stdin, --table, --max-length, --verbose".toList) ∧
    ((head argv).find? nameless = none →
      (∀ stop, FirstEvent (options (head argv)) stop → Answers (single argv input) stop) ∧
      ((∀ stop, ¬ FirstEvent (options (head argv)) stop) →
        (∀ t, (expressions (head argv)).find? separator.isPrefixOf = some t →
          Answers (single argv input) (.usage (.unrecognized t)) ∧
          (UsageError.unrecognized t).message = "unrecognized arguments: ".toList ++ t) ∧
        ((expressions (head argv)).find? separator.isPrefixOf = none →
          ∃ inv, parse argv = .ok inv))) := by
  constructor
  · intro t ht
    exact ⟨answers_of_error (Arguments.parse_of_nameless ht) input, message_ambiguous t⟩
  · intro hnames
    constructor
    · intro stop hfirst
      exact answers_of_error (Arguments.parse_of_firstEvent hnames hfirst) input
    · intro hnone
      obtain ⟨hlong, hshort⟩ :=
        Arguments.parse_of_quiet hnames (Arguments.quiet_of_no_firstEvent hnone)
      refine ⟨?_, hshort⟩
      intro t ht
      exact ⟨answers_of_error (hlong t ht) input, rfl⟩

/-- The help that a group asks for is not given if the group goes on with an unknown letter. -/
theorem first_mistake_decides_group :
    Answers (single ["1".toList, "-hx".toList, "-h".toList] (.text []))
      (.usage (.ignoredValue .help ['x'])) := by
  have hgroup : StartsGroup "-hx".toList .h (some (([] : List Letter).map Letter.char ++ ['x'])) :=
    ⟨['x'], rfl, rfl⟩
  have hfirst : FirstEvent (options (head ["1".toList, "-hx".toList, "-h".toList]))
      (.usage (.ignoredValue .help ['x'])) :=
    ⟨[], "-hx".toList, some "-h".toList, [("-h".toList, none)], rfl, by simp,
      .badLetter hgroup (by decide) (by decide)⟩
  exact ((first_mistake_decides _ _).2 rfl).1 _ hfirst

/-- A bare `--` is no limit, but attached to the option it is not refused, and the request for help
behind it is answered. -/
theorem attached_separator_not_refused :
    Limit.parse separator = .error (.invalid separator) ∧
      Answers (single ["--max-length=--".toList, "-h".toList] (.text [])) .help :=
  ⟨rfl, rfl, rfl, rfl, fun _ => rfl⟩

end SumExpr.Session
