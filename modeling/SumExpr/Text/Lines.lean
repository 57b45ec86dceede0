import SumExpr.Text

/-! Lines of a text. A line ends after a line feed and nowhere else; of its terminator one line feed
and then one carriage return are removed. A text with other conventions is brought to line feeds
first. `flatten_splitLines` says that splitting loses nothing, `splitLines_line` where it cuts. -/

namespace SumExpr.Text

/-- The lines with their terminators. Only the last one may have none, and none is empty. -/
def splitLines : Text → List Text
  | [] => []
  | c :: rest =>
    if c = '\n' then [c] :: splitLines rest
    else match splitLines rest with
      | [] => [[c]]
      | line :: lines => (c :: line) :: lines

def dropFinal (c : Char) (text : Text) : Text :=
  if text.getLast? = some c then text.dropLast else text

def stripTerminator (line : Text) : Text := dropFinal '\r' (dropFinal '\n' line)

def lines (text : Text) : List Text := (splitLines text).map stripTerminator

/-- Every carriage return, with the line feed behind it if there is one, becomes a line feed. -/
def unifyNewlines : Text → Text
  | [] => []
  | '\r' :: '\n' :: rest => '\n' :: unifyNewlines rest
  | c :: rest => (if c = '\r' then '\n' else c) :: unifyNewlines rest

theorem flatten_splitLines (text : Text) : (splitLines text).flatten = text := by
  induction text with
  | nil => rfl
  | cons c rest ih =>
    rw [splitLines]
    split
    · rw [List.flatten_cons, ih, List.singleton_append]
    · split <;> simp_all

/-- A line that is ended splits off, whatever follows. -/
theorem splitLines_line {line : Text} (h : '\n' ∉ line) (rest : Text) :
    splitLines (line ++ '\n' :: rest) = (line ++ ['\n']) :: splitLines rest := by
  induction line with
  | nil => simp [splitLines]
  | cons c line ih =>
    obtain ⟨hc, hl⟩ : c ≠ '\n' ∧ '\n' ∉ line := by simpa [eq_comm] using h
    rw [List.cons_append, splitLines, if_neg hc, ih hl, List.cons_append]

/-- A text without a line feed is one line. -/
theorem splitLines_of_not_mem {line : Text} (h : '\n' ∉ line) (hne : line ≠ []) :
    splitLines line = [line] := by
  induction line with
  | nil => exact absurd rfl hne
  | cons c line ih =>
    obtain ⟨hc, hl⟩ : c ≠ '\n' ∧ '\n' ∉ line := by simpa [eq_comm] using h
    rw [splitLines, if_neg hc]
    cases line with
    | nil => rfl
    | cons d line => rw [ih hl (List.cons_ne_nil d line)]

end SumExpr.Text
