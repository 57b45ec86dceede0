import Mathlib.Data.List.Forall2
import SumExpr.Input
import SumExpr.Proofs.Text.Lines

/-! # Lines and segments

The segments of a text are what stands between its line feeds. Every text is lines in writing with a
last segment behind them (`exists_segments`), so what holds of these holds of all texts. Whatever is
written line by line consists of its segments (`consistsOf_segments`). The lines of a text are its
segments but for an empty last one, each without a carriage return at its end (`lines_eq_map`). From
this follow how many lines there are and that a text may be read piece by piece, wherever a line
ends (`lines_append`). -/
namespace SumExpr.Text

/-- What stands between the line feeds. -/
def segments (text : Text) : List Text := text.splitOn '\n'

/-- The segments that are lines: behind the last line feed there may be nothing more. -/
def lineSegments (text : Text) : List Text :=
  if text.segments.getLast? = some [] then text.segments.dropLast else text.segments

/-- `line` is `segment` without the carriage return at its end, if there is one. -/
inductive Bared : (segment line : Text) → Prop
  | kept {segment : Text} (h : segment.getLast? ≠ some '\r') : Bared segment segment
  | cut (line : Text) : Bared (line ++ ['\r']) line

theorem bared_dropFinal (segment : Text) : Bared segment (dropFinal '\r' segment) := by
  by_cases h : segment.getLast? = some '\r'
  · obtain ⟨line, rfl⟩ := List.getLast?_eq_some_iff.mp h
    rw [dropFinal_append]
    exact .cut line
  · rw [dropFinal_of_ne h]
    exact .kept h

theorem dropFinal_eq_self_iff {line : Text} {c : Char} :
    dropFinal c line = line ↔ line.getLast? ≠ some c := by
  constructor
  · rintro h hlast
    obtain ⟨rest, rfl⟩ := List.getLast?_eq_some_iff.mp hlast
    rw [dropFinal_append] at h
    exact List.cons_ne_nil c [] (List.self_eq_append_right.mp h)
  · exact dropFinal_of_ne

theorem not_mem_dropFinal {line : Text} {d : Char} (h : d ∉ line) (c : Char) :
    d ∉ dropFinal c line := by
  unfold dropFinal
  split
  · exact fun hd => h ((List.dropLast_sublist line).subset hd)
  · exact h

/-! ## Segments -/

/-- Every text is lines in writing with a segment behind them that has no end. -/
theorem exists_segments (text : Text) :
    ∃ (ls : List Text) (last : Text),
      (∀ l ∈ ls, '\n' ∉ l) ∧ '\n' ∉ last ∧ text = ofLines ls ++ last := by
  induction text with
  | nil => exact ⟨[], [], by simp, by simp, rfl⟩
  | cons c text ih =>
    obtain ⟨ls, last, hls, hlast, rfl⟩ := ih
    by_cases hc : c = '\n'
    · subst hc
      exact ⟨[] :: ls, last, by simpa using hls, hlast, rfl⟩
    · -- The character comes to the first segment, which is the last one if it is the only one.
      cases ls with
      | nil => exact ⟨[], c :: last, hls, by simp [hlast, Ne.symm hc], rfl⟩
      | cons l ls =>
        obtain ⟨hl, hls⟩ := List.forall_mem_cons.mp hls
        refine ⟨(c :: l) :: ls, last, ?_, hlast, rfl⟩
        exact List.forall_mem_cons.mpr ⟨by simp [hl, Ne.symm hc], hls⟩

theorem ofLines_cons_append (l : Text) (ls : List Text) (rest : Text) :
    ofLines (l :: ls) ++ rest = l ++ '\n' :: (ofLines ls ++ rest) := by
  simp [ofLines]

/-- The line feeds of what was written are those behind the pieces and those within them. -/
theorem count_feed_ofLines (ls : List Text) :
    (ofLines ls).count '\n' = ls.length + ls.flatten.count '\n' := by
  induction ls with
  | nil => rfl
  | cons l ls ih =>
    have hcons := ofLines_cons_append l ls []
    rw [List.append_nil, List.append_nil] at hcons
    rw [hcons, List.count_append, List.count_cons_self, ih, List.length_cons, List.flatten_cons,
      List.count_append]
    omega

theorem count_ofLines_eq_iff {ls : List Text} :
    (ofLines ls).count '\n' = ls.length ↔ ∀ l ∈ ls, '\n' ∉ l := by
  rw [count_feed_ofLines, Nat.add_eq_left, List.count_eq_zero, List.mem_flatten]
  simp only [not_exists, not_and]

section Segments

variable {ls : List Text} {last : Text}

theorem segments_ofLines_append (h : ∀ l ∈ ls, '\n' ∉ l) (hlast : '\n' ∉ last) :
    segments (ofLines ls ++ last) = ls ++ [last] := by
  induction ls with
  | nil => exact List.splitOn_eq_singleton hlast
  | cons l ls ih =>
    obtain ⟨hl, hls⟩ := List.forall_mem_cons.mp h
    rw [ofLines_cons_append, segments, List.splitOn_append_cons_self_of_not_mem hl, ← segments,
      ih hls, List.cons_append]

theorem lineSegments_ofLines_append (h : ∀ l ∈ ls, '\n' ∉ l) (hlast : '\n' ∉ last) :
    lineSegments (ofLines ls ++ last) = ls ++ (if last = [] then [] else [last]) := by
  rw [lineSegments, segments_ofLines_append h hlast, List.getLast?_concat, List.dropLast_concat]
  by_cases hnil : last = [] <;> simp [hnil]

theorem count_ofLines (h : ∀ l ∈ ls, '\n' ∉ l) : (ofLines ls).count '\n' = ls.length :=
  count_ofLines_eq_iff.mpr h

/-- The last segment is empty if there is none before it, or a line feed before it. -/
theorem last_eq_nil_iff (hlast : '\n' ∉ last) :
    last = [] ↔ ofLines ls ++ last = [] ∨ (ofLines ls ++ last).getLast? = some '\n' := by
  constructor
  · rintro rfl
    rcases List.eq_nil_or_concat ls with rfl | ⟨ls, l, rfl⟩
    · exact .inl rfl
    · exact .inr (by simp [ofLines])
  · intro h
    by_contra hne
    rcases h with h | h
    · exact hne (List.append_eq_nil_iff.mp h).2
    · rw [List.getLast?_append_of_ne_nil _ hne] at h
      exact hlast (List.mem_of_getLast? h)

end Segments

theorem length_segments (text : Text) : text.segments.length = text.count '\n' + 1 := by
  obtain ⟨ls, last, hls, hlast, rfl⟩ := exists_segments text
  rw [segments_ofLines_append hls hlast, List.length_append, List.length_singleton,
    List.count_append, count_ofLines hls, List.count_eq_zero.mpr hlast, Nat.add_zero]

/-! ## Texts made of lines -/

/-- The text is these lines, each with a line feed behind it and none within. -/
structure ConsistsOf (text : Text) (ls : List Text) : Prop where
  written : text = ofLines ls
  whole : ∀ l ∈ ls, '\n' ∉ l

theorem ConsistsOf.length_eq {text : Text} {ls : List Text} (h : text.ConsistsOf ls) :
    ls.length = text.count '\n' := by
  rw [h.written, count_ofLines h.whole]

/-- Only pieces without line feeds are written as one line each. -/
theorem exists_consistsOf_iff (ls : List Text) :
    (∃ ls', (ofLines ls).ConsistsOf ls' ∧ ls'.length = ls.length) ↔ ∀ l ∈ ls, '\n' ∉ l := by
  constructor
  · rintro ⟨ls', h, hlength⟩
    exact count_ofLines_eq_iff.mp (h.length_eq.symm.trans hlength)
  · intro h
    exact ⟨ls, ⟨rfl, h⟩, rfl⟩

/-- What was written consists of the segments of what it was written from. -/
theorem consistsOf_segments (ls : List Text) : (ofLines ls).ConsistsOf (ls.flatMap segments) := by
  induction ls with
  | nil => exact ⟨rfl, by simp⟩
  | cons l ls ih =>
    obtain ⟨parts, last, hparts, hlast, rfl⟩ := exists_segments l
    rw [List.flatMap_cons, segments_ofLines_append hparts hlast]
    constructor
    · calc ofLines ((ofLines parts ++ last) :: ls)
        _ = ofLines parts ++ ofLines [last] ++ ofLines ls := by simp [ofLines]
        _ = ofLines parts ++ ofLines [last] ++ ofLines (ls.flatMap segments) := by
          rw [← ih.written]
        _ = ofLines (parts ++ [last] ++ ls.flatMap segments) := by
          simp only [ofLines, List.flatMap_append]
    · intro s hs
      rw [List.mem_append, List.mem_append, List.mem_singleton] at hs
      rcases hs with (hs | rfl) | hs
      · exact hparts s hs
      · exact hlast
      · exact ih.whole s hs

/-! ## Lines -/

theorem lines_eq_map (text : Text) : text.lines = text.lineSegments.map (dropFinal '\r') := by
  obtain ⟨ls, last, hls, hlast, rfl⟩ := exists_segments text
  rw [lines_ofLines_append hls, lineSegments_ofLines_append hls hlast, List.map_append]
  by_cases hnil : last = []
  · rw [if_pos hnil, hnil]
    rfl
  · rw [if_neg hnil, lines_of_not_mem hlast hnil]
    rfl

theorem bared_lines (text : Text) : List.Forall₂ Bared text.lineSegments text.lines := by
  rw [lines_eq_map, List.forall₂_map_right_iff]
  exact List.forall₂_same.mpr fun segment _ => bared_dropFinal segment

theorem mem_of_mem_lineSegments {text segment : Text} (h : segment ∈ text.lineSegments) {c : Char}
    (hc : c ∈ segment) : c ∈ text := by
  obtain ⟨ls, last, hls, hlast, rfl⟩ := exists_segments text
  rw [lineSegments_ofLines_append hls hlast, List.mem_append] at h
  rcases h with h | h
  · exact List.mem_append_left _ (List.mem_flatMap.mpr ⟨segment, h, List.mem_append_left _ hc⟩)
  · split at h
    · cases h
    · exact List.mem_append_right _ (List.mem_singleton.mp h ▸ hc)

/-- In a text without carriage returns there is nothing to take from the segments. -/
theorem lines_eq_lineSegments {text : Text} (h : '\r' ∉ text) :
    text.lines = text.lineSegments := by
  calc text.lines = text.lineSegments.map (dropFinal '\r') := lines_eq_map text
    _ = text.lineSegments.map id := List.map_congr_left fun segment hsegment =>
      dropFinal_of_ne fun hlast =>
        h (mem_of_mem_lineSegments hsegment (List.mem_of_getLast? hlast))
    _ = text.lineSegments := List.map_id _

theorem not_mem_of_mem_lines {text line : Text} (h : line ∈ text.lines) : '\n' ∉ line := by
  obtain ⟨ls, last, hls, hlast, rfl⟩ := exists_segments text
  rw [lines_eq_map, lineSegments_ofLines_append hls hlast] at h
  obtain ⟨segment, hsegment, rfl⟩ := List.mem_map.mp h
  have hfeed : '\n' ∉ segment := by
    rcases List.mem_append.mp hsegment with hmem | hmem
    · exact hls segment hmem
    · split at hmem
      · cases hmem
      · exact (List.mem_singleton.mp hmem) ▸ hlast
  exact not_mem_dropFinal hfeed '\r'

theorem length_lines (text : Text) :
    text.lines.length =
      text.count '\n' + (if text = [] ∨ text.getLast? = some '\n' then 0 else 1) := by
  obtain ⟨ls, last, hls, hlast, rfl⟩ := exists_segments text
  simp only [← last_eq_nil_iff hlast]
  rw [lines_eq_map, lineSegments_ofLines_append hls hlast, List.length_map, List.length_append,
    List.count_append, count_ofLines hls, List.count_eq_zero.mpr hlast]
  split <;> rfl

/-- A text may be read in two pieces if the first of them ends where a line ends. -/
theorem lines_append (text more : Text) :
    lines (text ++ '\n' :: more) = lines (text ++ ['\n']) ++ lines more := by
  obtain ⟨ls, last, hls, hlast, rfl⟩ := exists_segments text
  rw [List.append_assoc, List.append_assoc, lines_ofLines_append hls, lines_ofLines_append hls,
    lines_append_newline hlast, lines_append_newline hlast, lines_nil, List.append_assoc]
  rfl

theorem lines_ofLines_eq_iff {ls : List Text} (h : ∀ l ∈ ls, '\n' ∉ l) :
    (ofLines ls).lines = ls ↔ ∀ l ∈ ls, l.getLast? ≠ some '\r' := by
  rw [lines_ofLines h]
  nth_rewrite 2 [← List.map_id ls]
  rw [List.map_inj_left]
  exact forall₂_congr fun l _ => dropFinal_eq_self_iff

/-- **Lines are what stands between line feeds.** A text that is taken as it is has as lines its
segments, but not an empty last one, and each without one carriage return at its end, if there is
one. So no line holds a line feed; there is a line for each line feed, and one more if something
stands behind the last; and a text may be read piece by piece, wherever a line ends. Lines that are
written with a carriage return and a line feed are read back, whatever they end in; with a line feed
alone that is so just if none of them ends in a carriage return. -/
theorem lines_between_feeds :
    (∀ text : Text, (Input.text text).lines = .ok text.lines ∧
      List.Forall₂ Bared text.lineSegments text.lines ∧
      (∀ line ∈ text.lines, '\n' ∉ line) ∧
      text.lines.length =
        text.count '\n' + (if text = [] ∨ text.getLast? = some '\n' then 0 else 1) ∧
      ∀ more, lines (text ++ '\n' :: more) = lines (text ++ ['\n']) ++ lines more) ∧
    ∀ ls : List Text, (∀ l ∈ ls, '\n' ∉ l) →
      (written .crlf ls).lines = ls ∧
      ((written .lf ls).lines = ls ↔ ∀ l ∈ ls, l.getLast? ≠ some '\r') := by
  constructor
  · intro text
    exact ⟨Input.lines_text text, bared_lines text, fun _ => not_mem_of_mem_lines,
      length_lines text, lines_append text⟩
  · intro ls h
    exact ⟨lines_crlf h, lines_ofLines_eq_iff h⟩

theorem lines_between_feeds_sample :
    (written .crlf ["1+2\r".toList, [], "3".toList]).lines = ["1+2\r".toList, [], "3".toList] ∧
    (written .lf ["1+2\r".toList, [], "3".toList]).lines ≠ ["1+2\r".toList, [], "3".toList] := by
  have hlines := lines_between_feeds.2 ["1+2\r".toList, [], "3".toList] (by decide)
  exact ⟨hlines.1, fun h => hlines.2.mp h "1+2\r".toList (by decide) (by decide)⟩

end SumExpr.Text
