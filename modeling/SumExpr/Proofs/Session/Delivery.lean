import SumExpr.Proofs.Session.Agreement
import SumExpr.Proofs.Session.Reading
import SumExpr.Proofs.Text.Returns

/-! # The same text, as it is or in bytes

Bytes come with their ends of lines unified, and a text that is taken as it is does not. A run knows
its input by the lines alone (`single_congr`), so it can tell the two apart only where a carriage
return stands within a line: there the line goes on in the text, and ends in the bytes. -/
namespace SumExpr.Session
open Arguments (parse)

theorem single_congr {input other : Input} (h : input.lines = other.lines) (argv : List Text) :
    single argv input = single argv other := by
  cases hparse : parse argv with
  | error stop => rw [single_of_error hparse, single_of_error hparse]
  | ok inv =>
    have hexecute : execute inv input = execute inv other :=
      execute_congr rfl rfl (by rw [chosen, chosen, h])
    rw [single_of_ok hparse, single_of_ok hparse, hexecute]

/-- **A text and its bytes are read alike just if every carriage return in it is at the end of a
line.** The lines of the text as it is are its segments, each without one carriage return at its
end, so that any other stays where it is. In bytes all ends of lines are unified first, and no line
holds a carriage return. -/
theorem text_and_bytes_agree_iff (text : Text) :
    ((Input.text text).lines = .ok text.lines ∧
      List.Forall₂ Text.Bared text.lineSegments text.lines) ∧
    ((Input.bytes (Text.Utf8.encode text)).lines = .ok text.unifyNewlines.lineSegments ∧
      ∀ line ∈ text.unifyNewlines.lineSegments, '\r' ∉ line) ∧
    ((Input.bytes (Text.Utf8.encode text)).lines = (Input.text text).lines ↔ text.Settled) ∧
    (text.Settled →
      ∀ argv, single argv (.bytes (Text.Utf8.encode text)) = single argv (.text text)) := by
  have hbytes := Input.lines_encode text
  have hagree : (Input.bytes (Text.Utf8.encode text)).lines = (Input.text text).lines ↔
      text.Settled := by
    rw [hbytes, Input.lines_text, Except.ok.injEq, Text.lines_unifyNewlines_eq_iff]
  rw [Text.lines_unifyNewlines] at hbytes
  refine ⟨⟨Input.lines_text text, Text.bared_lines text⟩, ⟨hbytes, ?_⟩, hagree, ?_⟩
  · intro line hline
    rw [← Text.lines_unifyNewlines] at hline
    exact Text.return_notMem_line hline
  · intro hsettled argv
    exact single_congr (hagree.mpr hsettled) argv

theorem text_and_bytes_agree_iff_sample :
    single ["--stdin".toList] (.bytes (Text.Utf8.encode "1+2\r\n3\r".toList)) =
      single ["--stdin".toList] (.text "1+2\r\n3\r".toList) :=
  (text_and_bytes_agree_iff "1+2\r\n3\r".toList).2.2.2 (by decide) ["--stdin".toList]

/-- A carriage return within a line: one invalid expression in the text, two valid ones in its
bytes. -/
theorem return_within_line_ends_it_in_bytes :
    (single ["--stdin".toList] (.text "1\r2\n".toList)).printed =
      "Is \"1\r2\" a valid expression? No\n".toList ∧
    (single ["--stdin".toList] (.bytes (Text.Utf8.encode "1\r2\n".toList))).printed =
      "Is \"1\" a valid expression? Yes\nIs \"2\" a valid expression? Yes\n".toList := by
  constructor <;> decide

end SumExpr.Session
