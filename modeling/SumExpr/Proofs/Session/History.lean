import Mathlib.Data.List.Forall2
import SumExpr.Proofs.Session.Verbosity

/-! # What a call leaves behind

Calls come one after another in a session, and each is as it would be on its own, but for how much
its log tells. That is settled by the first call that is understood (`calls_eq`). -/
namespace SumExpr.Session
open Arguments (parse verboseToken Settings)

/-- The settings of the first call that is understood. -/
def firstSettings? (cs : List (List Text × Input)) : Option Settings :=
  cs.findSome? fun c => settings? c.1

theorem firstSettings?_cons (argv : List Text) (input : Input) (cs : List (List Text × Input)) :
    firstSettings? ((argv, input) :: cs) = (settings? argv).or (firstSettings? cs) := by
  rw [firstSettings?, List.findSome?_cons]
  cases settings? argv <;> rfl

theorem firstSettings?_append (before after : List (List Text × Input)) :
    firstSettings? (before ++ after) = (firstSettings? before).or (firstSettings? after) :=
  List.findSome?_append

/-- A run of a call that is not understood has no log to be kept from any level on. -/
theorem recorded_of_not_understood {argv : List Text} (h : settings? argv = none) (input : Input)
    (threshold other : Log.Level) :
    (single (verboseToken :: argv) input).recorded threshold =
      (single (verboseToken :: argv) input).recorded other := by
  unfold settings? at h
  cases hparse : parse argv with
  | ok inv => simp [hparse, Except.toOption] at h
  | error stop => rw [single_verbose_of_error hparse, Run.recorded_ofStop, Run.recorded_ofStop]

/-- Every run of a session is recorded from one level on: the level that was set before, or else the
one that the first call asks for that is understood. -/
theorem calls_eq (set : Option Log.Level) (cs : List (List Text × Input)) :
    calls set cs = cs.map fun c =>
      (single (verboseToken :: c.1) c.2).recorded
        ((set.or ((firstSettings? cs).map level)).getD .info) := by
  induction cs generalizing set with
  | nil => rfl
  | cons c cs ih =>
    obtain ⟨argv, input⟩ := c
    have hset : set.or ((firstSettings? ((argv, input) :: cs)).map level) =
        (set.or ((settings? argv).map level)).or ((firstSettings? cs).map level) := by
      rw [firstSettings?_cons, Option.map_or, Option.or_assoc]
    rw [calls, call_eq, ih, List.map_cons, hset]
    refine congrArg (· :: _) ?_
    -- The level of the first run is that of all, unless nothing is set after it.
    cases hafter : set.or ((settings? argv).map level) with
    | some l => rfl
    | none =>
      have hnone : settings? argv = none := by
        cases hs : settings? argv with
        | none => rfl
        | some settings => cases set <;> simp [hs] at hafter
      exact recorded_of_not_understood hnone input _ _

/-! ## Sessions beside calls on their own -/

/-- A run in a session beside the call on its own: the same but for the details in its log, which
are all there or all missing. -/
structure AsAlone (details : Bool) (c : List Text × Input) (r : Run) : Prop where
  ending : r.ending = (single c.1 c.2).ending
  printed : r.printed = (single c.1 c.2).printed
  events : r.events = (single (verboseToken :: c.1) c.2).events.filter fun e =>
    details || e.level ≠ .debug

theorem asAlone_recorded (settings : Option Settings) (c : List Text × Input) :
    AsAlone (settings.any (·.verbose)) c
      ((single (verboseToken :: c.1) c.2).recorded ((settings.map level).getD .info)) where
  ending := single_verbose_ending c.1 c.2
  printed := single_verbose_printed c.1 c.2
  events := by
    refine List.filter_congr fun e _ => ?_
    cases settings with
    | none => simp [Log.Event.reaches_info]
    | some s =>
      cases hverbose : s.verbose with
      | false => simp [level, hverbose, Log.Event.reaches_info]
      | true => simp [level, hverbose, Log.Event.reaches_debug]

/-- The switch changes nothing where it is given already. -/
theorem single_verbose_twice (argv : List Text) (input : Input) :
    single (verboseToken :: verboseToken :: argv) input = single (verboseToken :: argv) input := by
  cases hparse : parse argv with
  | error stop =>
    have htwice : parse (verboseToken :: argv) = .error stop := by
      rw [Arguments.parse_cons_verbose, hparse]
      rfl
    rw [single_verbose_of_error htwice, single_verbose_of_error hparse]
  | ok inv =>
    have hasks : AsksDetails (verboseToken :: argv) := by
      refine ⟨inv.verbosely, ?_, rfl⟩
      rw [Arguments.parse_cons_verbose, hparse]
      rfl
    exact (single_of_asksDetails hasks input).symm

theorem firstSettings?_of_refused {argv : List Text} (h : settings? argv = none) (input : Input)
    (before after : List (List Text × Input)) :
    firstSettings? (before ++ (argv, input) :: after) = firstSettings? (before ++ after) := by
  rw [firstSettings?_append, firstSettings?_append, firstSettings?_cons, h, Option.none_or]

theorem firstSettings?_of_decided {before : List (List Text × Input)} {settings : Settings}
    (h : firstSettings? before = some settings) (after : List (List Text × Input)) :
    firstSettings? (before ++ after) = some settings := by
  rw [firstSettings?_append, h, Option.some_or]

/-- **Calls do not depend on their history.** Each run of a session ends as it would end on its own
and prints the same. The details of its log are there just if the first call that was understood
asks for them. So a call that is not understood can be left out without a trace in the other runs,
and behind a call that was understood the switch for details has no effect at all. -/
theorem calls_independent (cs : List (List Text × Input)) :
    List.Forall₂ (AsAlone ((firstSettings? cs).any (·.verbose))) cs (calls none cs) ∧
    (∀ before argv input after stop, cs = before ++ (argv, input) :: after →
      parse argv = .error stop →
      (calls none cs).eraseIdx before.length = calls none (before ++ after)) ∧
    ∀ before argv input after settings, cs = before ++ (argv, input) :: after →
      firstSettings? before = some settings →
      calls none (before ++ (verboseToken :: argv, input) :: after) = calls none cs := by
  refine ⟨?_, ?_, ?_⟩
  · rw [calls_eq, List.forall₂_map_right_iff, List.forall₂_same]
    intro c _
    exact asAlone_recorded (firstSettings? cs) c
  · rintro before argv input after stop rfl hstop
    have hrefused : settings? argv = none := by rw [settings?, hstop]; rfl
    rw [calls_eq, calls_eq, firstSettings?_of_refused hrefused]
    simp [List.eraseIdx_append_of_length_le]
  · rintro before argv input after settings rfl hfirst
    rw [calls_eq, calls_eq, firstSettings?_of_decided hfirst, firstSettings?_of_decided hfirst]
    simp [single_verbose_twice]

end SumExpr.Session
