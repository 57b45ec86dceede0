import SumExpr.Proofs.Session.Outcome
import SumExpr.Proofs.Text.Lines
import SumExpr.Proofs.Text.Utf8

/-! # What a run makes of its input

The input is read line by line, and all of it before anything is done with a line. So a line that
cannot be read takes those before it along (`failed_read_all_or_nothing`). Bytes that are no text
are such a failure, and the only one that bytes can have (`bytes_read_strictly`). -/
namespace SumExpr

namespace Input

theorem lines_encode (t : Text) :
    (Input.bytes (Text.Utf8.encode t)).lines = .ok t.unifyNewlines.lines := by
  rw [lines_bytes_of_ok (Text.Utf8.decode_encode t)]

end Input

namespace Session
open Arguments (parse Invocation)

/-! ## Failures -/

/-- Failures that a run has an answer to. -/
inductive Answered : ReadFailure → Prop
  | device (message : Text) : Answered (.device message)
  | brokenPipe (message : Text) : Answered (.brokenPipe message)
  | undecodable (fault : Text.Utf8.Fault) : Answered (.undecodable fault)

theorem expected_eq_true_iff {failure : ReadFailure} :
    failure.expected = true ↔ Answered failure := by
  constructor
  · intro h
    cases failure with
    | device message => exact .device message
    | brokenPipe message => exact .brokenPipe message
    | undecodable fault => exact .undecodable fault
    | badValue message => cases h
    | runtime message => cases h
  · intro h
    cases h <;> rfl

section Failing

variable {argv : List Text} {inv : Invocation} {input : Input} {failure : ReadFailure}

theorem chosen_of_stdin (hstdin : inv.settings.stdin = true) : chosen inv input = input.lines :=
  if_pos hstdin

theorem single_of_answered (hparse : parse argv = .ok inv) (hstdin : inv.settings.stdin = true)
    (hlines : input.lines = .error failure) (h : Answered failure) :
    single argv input =
      ⟨.returned .unreadable, tablePart inv, [.unreadable failure.message]⟩ := by
  have hexecute : execute inv input =
      ⟨.returned .unreadable, tablePart inv, [.unreadable failure.message]⟩ := by
    simp only [execute, chosen_of_stdin hstdin, hlines, expected_eq_true_iff.mpr h, if_true,
      tablePart]
  -- The record is of the highest level, so it stays whatever the settings ask for.
  rw [single_of_ok hparse, hexecute, Run.recorded, List.filter_cons_of_pos]
  · rfl
  · cases level inv.settings <;> rfl

theorem single_of_not_answered (hparse : parse argv = .ok inv) (hstdin : inv.settings.stdin = true)
    (hlines : input.lines = .error failure) (h : ¬ Answered failure) :
    single argv input = ⟨.escaped (.input failure), tablePart inv, []⟩ := by
  have hexpected : ¬ failure.expected = true := mt expected_eq_true_iff.mp h
  rw [single_of_ok hparse]
  simp only [execute, chosen_of_stdin hstdin, hlines, if_neg hexpected, tablePart, Run.recorded,
    List.filter_nil]

end Failing

/-- The input is not looked at where it is not asked for. -/
theorem single_without_stdin {argv : List Text}
    (h : ∀ inv, parse argv = .ok inv → inv.settings.stdin = false) (input other : Input) :
    single argv input = single argv other := by
  cases hparse : parse argv with
  | error stop => rw [single_of_error hparse, single_of_error hparse]
  | ok inv =>
    have hchosen : chosen inv input = chosen inv other := by
      simp only [chosen, h inv hparse, Bool.false_eq_true, if_false]
    rw [single_of_ok hparse, single_of_ok hparse, execute, execute, hchosen]

/-- **A failed read is all or nothing.** However many lines were read before it, and whatever was in
them, the run prints the matrix if that is asked for, and nothing else. A failure that it has an
answer to is what it returns with, and one error with the text of the failure is all that its log
holds; any other failure leaves the run as it is, and there is no log. Where the input is not asked
for, the run is the same with any input. -/
theorem failed_read_all_or_nothing (argv : List Text) (input : Input) :
    (∀ inv (read : List Text) failure rest, parse argv = .ok inv → inv.settings.stdin = true →
      input.reads = read.map .ok ++ .error failure :: rest →
      (single argv input).printed = tablePart inv ∧
      (Answered failure →
        (single argv input).ending = .returned .unreadable ∧ (single argv input).ending.code = 1 ∧
        (single argv input).events = [.unreadable failure.message] ∧
        (Log.Event.unreadable failure.message).level = .error ∧
        (Log.Event.unreadable failure.message).message =
          "Failed to read standard input: ".toList ++ failure.message) ∧
      (¬ Answered failure →
        (single argv input).ending = .escaped (.input failure) ∧
        (single argv input).events = [])) ∧
    ((∀ inv, parse argv = .ok inv → inv.settings.stdin = false) →
      ∀ other, single argv input = single argv other) := by
  constructor
  · intro inv read failure rest hparse hstdin hreads
    have hlines := Input.lines_of_failure hreads
    refine ⟨?_, ?_, ?_⟩
    · by_cases h : Answered failure
      · rw [single_of_answered hparse hstdin hlines h]
      · rw [single_of_not_answered hparse hstdin hlines h]
    · intro h
      rw [single_of_answered hparse hstdin hlines h]
      exact ⟨rfl, rfl, rfl, rfl, rfl⟩
    · intro h
      rw [single_of_not_answered hparse hstdin hlines h]
      exact ⟨rfl, rfl⟩
  · intro h other
    exact single_without_stdin h input other

/-- A line was read before the source failed, and nothing is said of it; a run that is not to read
does not notice. -/
theorem failed_read_all_or_nothing_sample :
    (single ["--stdin".toList]
      (.failing ["1+2\n".toList] (.device "gone".toList))).ending.code = 1 ∧
    (single ["--stdin".toList]
      (.failing ["1+2\n".toList] (.device "gone".toList))).printed = [] ∧
    (single ["--stdin".toList] (.failing ["1+2\n".toList] (.runtime "gone".toList))).ending =
      .escaped (.input (.runtime "gone".toList)) ∧
    single ["1".toList] (.failing [] (.runtime "gone".toList)) =
      single ["1".toList] (.text []) := by
  have hdevice := (failed_read_all_or_nothing ["--stdin".toList]
    (.failing ["1+2\n".toList] (.device "gone".toList))).1 _ ["1+2\n".toList] _ [] rfl rfl rfl
  have hruntime := (failed_read_all_or_nothing ["--stdin".toList]
    (.failing ["1+2\n".toList] (.runtime "gone".toList))).1 _ ["1+2\n".toList] _ [] rfl rfl rfl
  have hunread := failed_read_all_or_nothing ["1".toList] (.failing [] (.runtime "gone".toList))
  refine ⟨(hdevice.2.1 (.device _)).2.1, hdevice.1, (hruntime.2.2 nofun).1, hunread.2 ?_ (.text [])⟩
  intro inv hparse
  cases hparse
  rfl

/-! ## Bytes -/

/-- A run returns with the code for an unreadable input only where the input cannot be read. -/
theorem code_of_returned {argv : List Text} {inv : Invocation} {input : Input} {ls : List Text}
    (hparse : parse argv = .ok inv) (hlines : input.lines = .ok ls) {exit : Exit}
    (hreturned : (single argv input).ending = .returned exit) : exit.code ≠ 1 := by
  cases hlimit : inv.settings.maxLength with
  | atMost n =>
    obtain ⟨_, exit', hreturned', hcode⟩ := single_of_limit hparse hlines hlimit
    obtain rfl : exit = exit' := Ending.returned.inj (hreturned.symm.trans hreturned')
    rw [hcode]
    split <;> decide
  | empty =>
    obtain ⟨_, hending⟩ := single_of_no_limit hparse hlines hlimit
    rw [hending] at hreturned
    split at hreturned
    · obtain rfl := Ending.returned.inj hreturned
      decide
    · cases hreturned

/-- **Bytes are read strictly, and reading undoes writing.** A run that is to read bytes returns the
code for an unreadable input just if they are not the bytes of any text, and then it prints no line
on an expression. The bytes of lines in writing, in which no line ends early, are read as these
lines, whichever end they are given; the last line needs none unless it is empty. -/
theorem bytes_read_strictly :
    (∀ argv inv data, parse argv = .ok inv → inv.settings.stdin = true →
      ((∃ exit, (single argv (.bytes data)).ending = .returned exit ∧ exit.code = 1) ↔
        ¬ ∃ t, data = Text.Utf8.encode t) ∧
      ((¬ ∃ t, data = Text.Utf8.encode t) →
        (single argv (.bytes data)).printed = tablePart inv)) ∧
    ∀ (e : Text.LineEnd) (ls : List Text), (∀ l ∈ ls, l.Unbroken) →
      (Input.bytes (Text.Utf8.encode (Text.written e ls))).lines = .ok ls ∧
      ∀ last : Text, last.Unbroken → last ≠ [] →
        (Input.bytes (Text.Utf8.encode (Text.written e ls ++ last))).lines =
          .ok (ls ++ [last]) := by
  refine ⟨?_, ?_⟩
  · intro argv inv data hparse hstdin
    cases hdecode : Text.Utf8.decode data with
    | ok t =>
      have htext : ∃ t, data = Text.Utf8.encode t := ⟨t, Text.Utf8.decode_eq_ok_iff.mp hdecode⟩
      have hlines : (Input.bytes data).lines = .ok t.unifyNewlines.lines :=
        Input.lines_bytes_of_ok hdecode
      refine ⟨iff_of_false ?_ (not_not_intro htext), fun h => absurd htext h⟩
      rintro ⟨exit, hreturned, hcode⟩
      exact code_of_returned hparse hlines hreturned hcode
    | error fault =>
      have hnone : ¬ ∃ t, data = Text.Utf8.encode t :=
        Text.Utf8.exists_decode_error_iff.mp ⟨fault, hdecode⟩
      have hlines : (Input.bytes data).lines = .error (.undecodable fault) :=
        Input.lines_bytes_of_error hdecode
      have hrun := single_of_answered hparse hstdin hlines (.undecodable fault)
      rw [hrun]
      exact ⟨iff_of_true ⟨.unreadable, rfl, rfl⟩ hnone, fun _ => rfl⟩
  · intro e ls h
    constructor
    · rw [Input.lines_encode, Text.lines_written e h]
    · intro last hlast hne
      rw [Input.lines_encode, Text.lines_written_append e h hlast, Text.lines_of_unbroken hlast hne]

/-- A byte that begins no character behind a line that could be read; and two lines in bytes. -/
theorem bytes_read_strictly_sample :
    (¬ ∃ t, [0x31, 0x0A, 0xFF] = Text.Utf8.encode t) ∧
    (∃ exit, (single ["--stdin".toList] (.bytes [0x31, 0x0A, 0xFF])).ending = .returned exit ∧
      exit.code = 1) ∧
    (single ["--stdin".toList] (.bytes [0x31, 0x0A, 0xFF])).printed = [] ∧
    (Input.bytes (Text.Utf8.encode (Text.written .cr ["1+2".toList] ++ "3".toList))).lines =
      .ok ["1+2".toList, "3".toList] := by
  have hnone : ¬ ∃ t, [0x31, 0x0A, 0xFF] = Text.Utf8.encode t :=
    Text.Utf8.exists_decode_error_iff.mp ⟨_, rfl⟩
  obtain ⟨hstrict, hread⟩ := bytes_read_strictly
  obtain ⟨hcode, hprinted⟩ := hstrict ["--stdin".toList] _ [0x31, 0x0A, 0xFF] rfl rfl
  have hunbroken : ∀ l ∈ ["1+2".toList], Text.Unbroken l := by
    intro l hl
    obtain rfl := List.mem_singleton.mp hl
    exact ⟨by decide, by decide⟩
  exact ⟨hnone, hcode.mpr hnone, hprinted hnone,
    (hread .cr _ hunbroken).2 "3".toList ⟨by decide, by decide⟩ (by decide)⟩

end Session
end SumExpr
