import SumExpr.Text.Lines

/-! # Lines that were written are read back

Of a text written line by line the lines are what was written, but for a carriage return at the end
of a line, which goes with the line feed (`lines_ofLines`). With a carriage return before every line
feed nothing else is lost, whatever the lines end in (`lines_crlf`). Once all ends of lines are
brought to line feeds, lines that hold none of these ends are read back whichever of them they were
given (`lines_written_append`). -/
namespace SumExpr.Text

theorem dropFinal_append (line : Text) (c : Char) : dropFinal c (line ++ [c]) = line := by
  simp [dropFinal]

theorem dropFinal_of_ne {line : Text} {c : Char} (h : line.getLast? ≠ some c) :
    dropFinal c line = line :=
  if_neg h

theorem lines_nil : lines [] = [] := rfl

/-- A text without a line feed is one line, or none if it is empty. -/
theorem lines_of_not_mem {line : Text} (h : '\n' ∉ line) (hne : line ≠ []) :
    lines line = [dropFinal '\r' line] := by
  have hfeed : dropFinal '\n' line = line :=
    dropFinal_of_ne fun hlast => h (List.mem_of_getLast? hlast)
  rw [lines, splitLines_of_not_mem h hne, List.map_singleton, stripTerminator, hfeed]

theorem lines_append_newline {line : Text} (h : '\n' ∉ line) (rest : Text) :
    lines (line ++ '\n' :: rest) = dropFinal '\r' line :: lines rest := by
  rw [lines, splitLines_line h, List.map_cons, stripTerminator, dropFinal_append]
  rfl

theorem lines_ofLines_append {ls : List Text} (h : ∀ l ∈ ls, '\n' ∉ l) (rest : Text) :
    lines (ofLines ls ++ rest) = ls.map (dropFinal '\r') ++ lines rest := by
  induction ls with
  | nil => rfl
  | cons l ls ih =>
    obtain ⟨hl, hls⟩ := List.forall_mem_cons.mp h
    have hsplit : ofLines (l :: ls) ++ rest = l ++ '\n' :: (ofLines ls ++ rest) := by simp [ofLines]
    rw [hsplit, lines_append_newline hl, ih hls, List.map_cons, List.cons_append]

theorem lines_ofLines {ls : List Text} (h : ∀ l ∈ ls, '\n' ∉ l) :
    (ofLines ls).lines = ls.map (dropFinal '\r') := by
  have happend := lines_ofLines_append h []
  rwa [List.append_nil, lines_nil, List.append_nil] at happend

/-- Lines that end in no carriage return are read back as they are. -/
theorem lines_ofLines_of_no_return {ls : List Text} (h : ∀ l ∈ ls, '\n' ∉ l)
    (hreturn : ∀ l ∈ ls, l.getLast? ≠ some '\r') : (ofLines ls).lines = ls := by
  calc (ofLines ls).lines = ls.map (dropFinal '\r') := lines_ofLines h
    _ = ls.map id := List.map_congr_left fun l hl => dropFinal_of_ne (hreturn l hl)
    _ = ls := List.map_id ls

theorem lines_crlf {ls : List Text} (h : ∀ l ∈ ls, '\n' ∉ l) :
    lines (ls.flatMap (· ++ ['\r', '\n'])) = ls := by
  have hwritten : ls.flatMap (· ++ ['\r', '\n']) = ofLines (ls.map (· ++ ['\r'])) := by
    simp [ofLines, List.flatMap_map]
  have hfeed : ∀ l ∈ ls.map (· ++ ['\r']), '\n' ∉ l := by
    simpa using h
  rw [hwritten, lines_ofLines hfeed, List.map_map]
  simp [Function.comp_def, dropFinal_append]

/-! ## Other ends of lines -/

/-- The usual ends of a line. -/
inductive LineEnd
  | lf | crlf | cr

def LineEnd.text : LineEnd → Text
  | .lf => ['\n']
  | .crlf => ['\r', '\n']
  | .cr => ['\r']

/-- The lines in writing, each with this end. -/
def written (e : LineEnd) (ls : List Text) : Text := ls.flatMap (· ++ e.text)

/-- A line in which no line ends. -/
structure Unbroken (line : Text) : Prop where
  no_feed : '\n' ∉ line
  no_return : '\r' ∉ line

theorem unifyNewlines_append {text : Text} (h : '\r' ∉ text) (rest : Text) :
    unifyNewlines (text ++ rest) = text ++ unifyNewlines rest := by
  induction text with
  | nil => rfl
  | cons c text ih =>
    obtain ⟨hc, htext⟩ : c ≠ '\r' ∧ '\r' ∉ text := by simpa [eq_comm] using h
    rw [List.cons_append, unifyNewlines.eq_def]
    split
    · simp_all
    · simp_all
    · next heq =>
      obtain ⟨rfl, rfl⟩ := List.cons.inj heq
      rw [if_neg hc, ih htext]
      rfl

/-- Every end becomes one line feed, unless a carriage return gets one behind it. -/
theorem unifyNewlines_end {e : LineEnd} {rest : Text} (h : e = .cr → rest.head? ≠ some '\n') :
    unifyNewlines (e.text ++ rest) = '\n' :: unifyNewlines rest := by
  cases e with
  | lf =>
    have hfeed : '\r' ∉ ['\n'] := by decide
    exact unifyNewlines_append hfeed rest
  | crlf => rfl
  | cr =>
    cases rest with
    | nil => rfl
    | cons c rest =>
      have hc : c ≠ '\n' := by simpa using h rfl
      rw [LineEnd.text, List.singleton_append, unifyNewlines.eq_def]
      split
      · simp_all
      · simp_all
      · next heq =>
        obtain ⟨rfl, rfl⟩ := List.cons.inj heq
        rfl

theorem head?_written_cr {ls : List Text} (h : ∀ l ∈ ls, Unbroken l) {last : Text}
    (hlast : Unbroken last) : (written .cr ls ++ last).head? ≠ some '\n' := by
  intro hhead
  rcases List.mem_append.mp (List.mem_of_head? hhead) with hmem | hmem
  · obtain ⟨l, hl, hmem⟩ := List.mem_flatMap.mp hmem
    rcases List.mem_append.mp hmem with hmem | hmem
    · exact (h l hl).no_feed hmem
    · exact absurd hmem (by decide)
  · exact hlast.no_feed hmem

theorem unifyNewlines_written (e : LineEnd) {ls : List Text} (h : ∀ l ∈ ls, Unbroken l)
    {last : Text} (hlast : Unbroken last) :
    unifyNewlines (written e ls ++ last) = ofLines ls ++ last := by
  induction ls with
  | nil =>
    have happend := unifyNewlines_append hlast.no_return []
    rw [List.append_nil] at happend
    simpa [written, ofLines, unifyNewlines] using happend
  | cons l ls ih =>
    obtain ⟨hl, hls⟩ := List.forall_mem_cons.mp h
    have hwritten : written e (l :: ls) ++ last = l ++ (e.text ++ (written e ls ++ last)) := by
      simp [written]
    have hlines : ofLines (l :: ls) ++ last = l ++ '\n' :: (ofLines ls ++ last) := by simp [ofLines]
    have hend : e = .cr → (written e ls ++ last).head? ≠ some '\n' := by
      rintro rfl
      exact head?_written_cr hls hlast
    rw [hwritten, hlines, unifyNewlines_append hl.no_return, unifyNewlines_end hend, ih hls]

/-! ## Unbroken lines -/

theorem dropFinal_return {line : Text} (h : Unbroken line) : dropFinal '\r' line = line :=
  dropFinal_of_ne fun hlast => h.no_return (List.mem_of_getLast? hlast)

theorem lines_of_unbroken {line : Text} (h : Unbroken line) (hne : line ≠ []) :
    lines line = [line] := by
  rw [lines_of_not_mem h.no_feed hne, dropFinal_return h]

/-- Lines in writing are read back, and behind them a last one that has no end. -/
theorem lines_written_append (e : LineEnd) {ls : List Text} (h : ∀ l ∈ ls, Unbroken l)
    {last : Text} (hlast : Unbroken last) :
    (unifyNewlines (written e ls ++ last)).lines = ls ++ last.lines := by
  have hkeep : ls.map (dropFinal '\r') = ls :=
    (List.map_congr_left fun l hl => dropFinal_return (h l hl)).trans (List.map_id ls)
  rw [unifyNewlines_written e h hlast, lines_ofLines_append fun l hl => (h l hl).no_feed, hkeep]

theorem lines_written (e : LineEnd) {ls : List Text} (h : ∀ l ∈ ls, Unbroken l) :
    (unifyNewlines (written e ls)).lines = ls := by
  have hnil : Unbroken [] := ⟨List.not_mem_nil, List.not_mem_nil⟩
  have happend := lines_written_append e h hnil
  rwa [List.append_nil, lines_nil, List.append_nil] at happend

end SumExpr.Text
