import Mathlib.Data.List.Chain
import SumExpr.Proofs.Text.Segments

/-! # Carriage returns within a text

Once the ends of lines are unified, no line holds a carriage return. In a text that is taken as it
is, one stays in its line unless the line ends with it. So the lines are the same for exactly the
texts in which every carriage return but a very last one has a line feed behind it
(`lines_unifyNewlines_eq_iff`). The proofs go by characters: a line feed ends an empty line, a
carriage return with a line feed behind it does so too, and any other character belongs to the first
line of what follows (`lines_cons`). -/
namespace SumExpr.Text

/-- Every carriage return has a line feed behind it, or nothing. -/
def Settled (text : Text) : Prop := text.IsChain fun c d => c = '\r' → d = '\n'

instance (text : Text) : Decidable text.Settled :=
  inferInstanceAs (Decidable (text.IsChain fun c d => c = '\r' → d = '\n'))

/-! ## Lines character by character -/

theorem lines_newline_cons (text : Text) : lines ('\n' :: text) = [] :: lines text :=
  lines_append_newline List.not_mem_nil text

theorem lines_return_newline_cons (text : Text) :
    lines ('\r' :: '\n' :: text) = [] :: lines text := by
  have hfeed : '\n' ∉ ['\r'] := by decide
  exact lines_append_newline hfeed text

/-- Only the last character can be dropped. -/
theorem dropFinal_cons {c d : Char} {line : Text} (h : d ≠ c ∨ line ≠ []) :
    dropFinal c (d :: line) = d :: dropFinal c line := by
  cases line with
  | nil =>
    have hne : d ≠ c := h.resolve_right (absurd rfl)
    rw [dropFinal_of_ne (by simpa using hne), dropFinal_of_ne (by simp)]
  | cons e line =>
    rw [dropFinal, dropFinal, List.getLast?_cons_cons]
    split <;> rfl

/-- The lines with a character before the first of them. -/
def consFirst (c : Char) : List Text → List Text
  | [] => [[c]]
  | line :: lines => (c :: line) :: lines

theorem splitLines_cons {c : Char} (h : c ≠ '\n') (text : Text) :
    splitLines (c :: text) = consFirst c (splitLines text) := by
  rw [splitLines, if_neg h]
  cases splitLines text <;> rfl

/-- A character that ends no line belongs to the first line. -/
theorem lines_cons {c : Char} (hfeed : c ≠ '\n') (hreturn : c ≠ '\r') (text : Text) :
    lines (c :: text) = consFirst c (lines text) := by
  have hstrip : ∀ line, stripTerminator (c :: line) = c :: stripTerminator line := by
    intro line
    rw [stripTerminator, dropFinal_cons (.inl hfeed), dropFinal_cons (.inl hreturn),
      stripTerminator]
  rw [lines, splitLines_cons hfeed, lines]
  cases splitLines text with
  | nil => rw [consFirst, List.map_singleton, hstrip]; rfl
  | cons line rest => rw [consFirst, List.map_cons, hstrip]; rfl

/-- A carriage return stays in its line if it has something else than a line feed behind it. -/
theorem return_mem_lines {c : Char} (h : c ≠ '\n') (text : Text) :
    ∃ line ∈ lines ('\r' :: c :: text), '\r' ∈ line := by
  obtain ⟨line, rest, hsplit⟩ : ∃ line rest, splitLines (c :: text) = (c :: line) :: rest := by
    rw [splitLines_cons h]
    cases splitLines text with
    | nil => exact ⟨[], [], rfl⟩
    | cons line rest => exact ⟨line, rest, rfl⟩
  have hreturn : '\r' ≠ '\n' := by decide
  have hstrip : stripTerminator ('\r' :: c :: line) =
      '\r' :: dropFinal '\r' (c :: dropFinal '\n' line) := by
    rw [stripTerminator, dropFinal_cons (.inl hreturn), dropFinal_cons (.inl h),
      dropFinal_cons (.inr (List.cons_ne_nil _ _))]
  refine ⟨stripTerminator ('\r' :: c :: line), ?_, ?_⟩
  · rw [lines, splitLines_cons hreturn, hsplit]
    exact List.mem_cons_self
  · rw [hstrip]
    exact List.mem_cons_self

/-! ## Unified ends of lines -/

theorem return_notMem_unifyNewlines (text : Text) : '\r' ∉ unifyNewlines text := by
  induction text using unifyNewlines.induct with
  | case1 => exact List.not_mem_nil
  | case2 rest ih =>
    rw [unifyNewlines]
    simpa using ih
  | case3 c rest hpair ih =>
    rw [unifyNewlines.eq_3 c rest hpair]
    split
    · simpa using ih
    · next hc => simpa [Ne.symm hc] using ih

theorem lines_unifyNewlines (text : Text) :
    text.unifyNewlines.lines = text.unifyNewlines.lineSegments :=
  lines_eq_lineSegments (return_notMem_unifyNewlines text)

theorem return_notMem_line {text line : Text} (h : line ∈ text.unifyNewlines.lines) :
    '\r' ∉ line := by
  rw [lines_unifyNewlines] at h
  exact fun hmem => return_notMem_unifyNewlines text (mem_of_mem_lineSegments h hmem)

/-- It makes no difference whether the ends of lines are unified in a text in which they all are
ends of lines already. -/
theorem lines_unifyNewlines_of_settled {text : Text} (h : text.Settled) :
    text.unifyNewlines.lines = text.lines := by
  induction text using unifyNewlines.induct with
  | case1 => rfl
  | case2 rest ih =>
    have hrest : Settled rest := (List.isChain_cons_cons.mp h).2.of_cons
    rw [unifyNewlines, lines_newline_cons, lines_return_newline_cons, ih hrest]
  | case3 c rest hpair ih =>
    have hrest : Settled rest := h.of_cons
    rw [unifyNewlines.eq_3 c rest hpair]
    by_cases hreturn : c = '\r'
    · -- No line feed follows, so nothing does.
      cases rest with
      | nil => subst hreturn; rfl
      | cons d rest =>
        have hd : d = '\n' := (List.isChain_cons_cons.mp h).1 hreturn
        exact absurd (hd ▸ rfl) (hpair rest hreturn)
    · rw [if_neg hreturn]
      by_cases hfeed : c = '\n'
      · rw [hfeed, lines_newline_cons, lines_newline_cons, ih hrest]
      · rw [lines_cons hfeed hreturn, lines_cons hfeed hreturn, ih hrest]

theorem notMem_of_consFirst {c d : Char} {lines : List Text}
    (h : ∀ line ∈ consFirst c lines, d ∉ line) : ∀ line ∈ lines, d ∉ line := by
  cases lines with
  | nil => exact fun line hline => nomatch hline
  | cons first rest =>
    obtain ⟨hfirst, hrest⟩ := List.forall_mem_cons.mp h
    exact List.forall_mem_cons.mpr ⟨fun hd => hfirst (List.mem_cons_of_mem c hd), hrest⟩

theorem settled_of_return_notMem {text : Text} (h : ∀ line ∈ text.lines, '\r' ∉ line) :
    text.Settled := by
  induction text with
  | nil => exact .nil
  | cons c text ih =>
    by_cases hreturn : c = '\r'
    · subst hreturn
      cases text with
      | nil => exact .singleton _
      | cons d text =>
        by_cases hd : d = '\n'
        · subst hd
          rw [lines_return_newline_cons, ← lines_newline_cons] at h
          exact List.isChain_cons_cons.mpr ⟨fun _ => rfl, ih h⟩
        · obtain ⟨line, hline, hmem⟩ := return_mem_lines hd text
          exact absurd hmem (h line hline)
    · have hrest : ∀ line ∈ lines text, '\r' ∉ line := by
        by_cases hfeed : c = '\n'
        · rw [hfeed, lines_newline_cons] at h
          exact (List.forall_mem_cons.mp h).2
        · rw [lines_cons hfeed hreturn] at h
          exact notMem_of_consFirst h
      exact List.isChain_cons.mpr ⟨fun _ _ hc => absurd hc hreturn, ih hrest⟩

theorem lines_unifyNewlines_eq_iff {text : Text} :
    text.unifyNewlines.lines = text.lines ↔ text.Settled := by
  constructor
  · intro h
    refine settled_of_return_notMem ?_
    intro line hline
    rw [← h] at hline
    exact return_notMem_line hline
  · exact lines_unifyNewlines_of_settled

end SumExpr.Text
