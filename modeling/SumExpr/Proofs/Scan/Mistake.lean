import Mathlib.Data.List.Induction
import Mathlib.Data.List.Infix
import Mathlib.Logic.ExistsUnique
import SumExpr.Proofs.Scan.Basic

/-! # A mistake is never made good

A text with something in it rests in the error state unless it is an expression
(`finalState_eq_error_iff`), and nothing that follows leads out of that state. So the heads of an
expression are expressions, and in any other text there is a first mistake: a head up to which every
shorter one is an expression and behind which nothing matters. -/
namespace SumExpr

theorem finalState_ne_start {text : Text} (h : text ≠ []) : finalState text ≠ .start := by
  cases text using List.reverseRecOn with
  | nil => exact absurd rfl h
  | append_singleton u c =>
    rw [finalState_append_singleton]
    exact State.next_ne_start _ _

/-- What is read and is no expression has led to the error state. -/
theorem finalState_eq_error_iff {text : Text} (h : text ≠ []) :
    finalState text = .error ↔ isValid text = false := by
  have hstart := finalState_ne_start h
  rw [isValid_eq_accepting]
  cases hs : finalState text with
  | start => exact absurd hs hstart
  | digit => decide
  | operator => decide
  | error => decide

theorem finalState_append_of_error {u : Text} (h : finalState u = .error) (w : Text) :
    finalState (u ++ w) = .error := by
  rw [finalState_append, h, Scan.run_error]

/-- A character that no expression has is a mistake wherever it stands. -/
theorem isValid_eq_false_of_other {text : Text} {c : Char} (hc : c ∈ text)
    (hother : Symbol.ofChar c = .other) : isValid text = false := by
  obtain ⟨u, v, rfl⟩ := List.append_of_mem hc
  have herror : finalState (u ++ [c]) = .error := by
    rw [finalState_append_singleton, hother]
    cases finalState u <;> rfl
  rw [List.append_cons, isValid_eq_accepting, finalState_append_of_error herror]
  rfl

/-! ## Heads of a text -/

variable {text u : Text}

theorem scan_append_of_invalid (hu : u ≠ []) (h : isValid u = false) (w : Text) :
    scan (u ++ w) = ⟨false, .error⟩ := by
  have herror := finalState_append_of_error ((finalState_eq_error_iff hu).mpr h) w
  rw [scan, herror]
  rfl

theorem isValid_of_append (hu : u ≠ []) {w : Text} (h : isValid (u ++ w) = true) :
    isValid u = true := by
  cases hself : isValid u with
  | true => rfl
  | false =>
    rw [isValid, scan_append_of_invalid hu hself w] at h
    cases h

theorem isValid_of_head (hu : u ≠ []) (hhead : u <+: text) (h : isValid text = true) :
    isValid u = true := by
  obtain ⟨w, rfl⟩ := hhead
  exact isValid_of_append hu h

/-! ## The first mistake -/

/-- `part` is the shortest head of `text` that is no expression, the empty one apart. -/
structure FirstMistake (text part : Text) : Prop where
  head : part <+: text
  ne_nil : part ≠ []
  invalid : isValid part = false
  shortest : ∀ p, p <+: text → p ≠ [] → isValid p = false → part.length ≤ p.length

/-- The last character is the mistake if nothing is wrong before it; otherwise the mistake is one of
the text before it. -/
theorem exists_firstMistake (hne : text ≠ []) (h : isValid text = false) :
    ∃ part, FirstMistake text part := by
  induction text using List.reverseRecOn with
  | nil => exact absurd rfl hne
  | append_singleton u c ih =>
    by_cases hu : u ≠ [] ∧ isValid u = false
    · obtain ⟨part, hpart⟩ := ih hu.1 hu.2
      refine ⟨part, hpart.head.trans (List.prefix_append u [c]), hpart.ne_nil, hpart.invalid, ?_⟩
      intro p hp hpne hinvalid
      rcases List.prefix_concat_iff.mp hp with rfl | hp
      · exact hpart.head.length_le.trans (List.prefix_append u [c]).length_le
      · exact hpart.shortest p hp hpne hinvalid
    · refine ⟨u ++ [c], List.prefix_refl _, hne, h, ?_⟩
      intro p hp hpne hinvalid
      rcases List.prefix_concat_iff.mp hp with rfl | hp
      · exact Nat.le_refl _
      · have hune : u ≠ [] := by
          rintro rfl
          exact hpne (List.prefix_nil.mp hp)
        have hvalid : isValid u = true := by
          simpa [hune] using hu
        rw [isValid_of_head hpne hp hvalid] at hinvalid
        cases hinvalid

namespace FirstMistake

variable {part : Text}

theorem unique (h : FirstMistake text part) {other : Text} (h' : FirstMistake text other) :
    other = part := by
  have hle := h.shortest other h'.head h'.ne_nil h'.invalid
  have hge := h'.shortest part h.head h.ne_nil h.invalid
  exact (List.prefix_of_prefix_length_le h'.head h.head hge).eq_of_length
    (Nat.le_antisymm hge hle)

/-- The heads that are expressions are those that end before the mistake is complete. -/
theorem isValid_head_iff (h : FirstMistake text part) {p : Text} (hp : p <+: text) (hne : p ≠ []) :
    isValid p = true ↔ p.length < part.length := by
  constructor
  · intro hvalid
    by_contra hlong
    have hpart := List.prefix_of_prefix_length_le h.head hp (Nat.not_lt.mp hlong)
    have hpartValid := isValid_of_head h.ne_nil hpart hvalid
    rw [h.invalid] at hpartValid
    cases hpartValid
  · intro hshort
    cases hself : isValid p with
    | true => rfl
    | false => exact absurd (h.shortest p hp hne hself) (Nat.not_le.mpr hshort)

theorem scan_append (h : FirstMistake text part) (w : Text) : scan (part ++ w) = scan text := by
  obtain ⟨rest, rfl⟩ := h.head
  rw [scan_append_of_invalid h.ne_nil h.invalid, scan_append_of_invalid h.ne_nil h.invalid]

end FirstMistake

/-- **A mistake is never made good.** Every head of an expression is an expression, unless it is
empty. What is read and is no expression rests in the error state, and so does whatever begins with
it. Hence a text that is not empty and no expression has exactly one first mistake: its heads are
expressions just as far as they are shorter, and its verdict is known there, whatever follows. -/
theorem mistakes_are_final :
    (∀ u w : Text, u ≠ [] → isValid (u ++ w) = true → isValid u = true) ∧
    (∀ u w : Text, u ≠ [] → isValid u = false →
      scan u = ⟨false, .error⟩ ∧ scan (u ++ w) = ⟨false, .error⟩) ∧
    ∀ text : Text, text ≠ [] → isValid text = false →
      (∃! part, FirstMistake text part) ∧
      ∀ part, FirstMistake text part →
        (∀ p, p <+: text → p ≠ [] → (isValid p = true ↔ p.length < part.length)) ∧
        ∀ w, scan (part ++ w) = scan text := by
  refine ⟨?_, ?_, ?_⟩
  · intro u w hu h
    exact isValid_of_append hu h
  · intro u w hu h
    have hself := scan_append_of_invalid hu h []
    rw [List.append_nil] at hself
    exact ⟨hself, scan_append_of_invalid hu h w⟩
  · intro text hne h
    obtain ⟨part, hpart⟩ := exists_firstMistake hne h
    refine ⟨⟨part, hpart, fun _ hother => hpart.unique hother⟩, ?_⟩
    intro part hpart
    exact ⟨fun p => hpart.isValid_head_iff, hpart.scan_append⟩

/-- The second operator is the mistake here: up to the first one all is well, and no operand behind
it helps. -/
theorem mistakes_are_final_doubled_operator :
    FirstMistake "3++2".toList "3++".toList ∧ isValid "3+".toList = true ∧
      ∀ w, scan ("3++".toList ++ w) = scan "3++2".toList := by
  have hpart : FirstMistake "3++2".toList "3++".toList := by
    refine ⟨by decide, by decide, by decide, ?_⟩
    intro p hp
    have hall : ∀ q ∈ "3++2".toList.inits, q ≠ [] → isValid q = false → 3 ≤ q.length := by decide
    exact hall p ((List.mem_inits p _).mpr hp)
  have hfinal := (mistakes_are_final.2.2 "3++2".toList (by decide) (by decide)).2 _ hpart
  exact ⟨hpart, (hfinal.1 "3+".toList (by decide) (by decide)).mpr (by decide), hfinal.2⟩

end SumExpr
